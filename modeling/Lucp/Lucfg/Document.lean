import Lucp.Lucfg.Load

/-!
# Configuration files as they are written

What someone writes into a configuration file are headers of sections and keys with values, with
blanks, comments and empty lines where they like.  This file says which files can be written so, and
that loading one gets back what was written and nothing else, but for the values in quotes.

## What is here

* `Item`, `Written` — what is written, and a line it is written in.
* `documentEntries` — the assignments, each with the section it stands under, as they are kept.
* `readLine_text` — a line is read as what was written in it.
* `loadFile_document` — **a file that has been written is loaded, and says what was written**
  without quotes.
-/

set_option autoImplicit false

namespace Lucp.Lucfg

open Lines

variable {D : Type} [Doubles D]

/-! ## What can be written -/

/-- What stands in a line, apart from the comment. -/
inductive Item where
  | blank
  | header (name : Bytes)
  | assign (key value : Bytes) (quoted : Bool)
  deriving DecidableEq

/-- Signs that mean nothing by themselves. -/
def Plain (s : Bytes) : Prop :=
  ∀ c ∈ s, c ≠ quo ∧ startsComment c = false ∧ c ≠ 0 ∧ c ≠ 0x0A

instance (s : Bytes) : Decidable (Plain s) :=
  inferInstanceAs (Decidable (∀ c ∈ s, c ≠ quo ∧ startsComment c = false ∧ c ≠ 0 ∧ c ≠ 0x0A))

/-- A text that can stand between quotes. -/
def Quotable (s : Bytes) : Prop := ∀ c ∈ s, c ≠ quo ∧ c ≠ 0 ∧ c ≠ 0x0A

instance (s : Bytes) : Decidable (Quotable s) :=
  inferInstanceAs (Decidable (∀ c ∈ s, c ≠ quo ∧ c ≠ 0 ∧ c ≠ 0x0A))

/-- Which names and values can be written: a name without the signs that end it, and any text in
quotes as a value. -/
def Item.Ok : Item → Prop
  | .blank => True
  | .header name => Plain name ∧ 0x5D ∉ name ∧ name.length ≤ 127
  | .assign key value quoted =>
    Plain key ∧ Trimmed key ∧ 0x3D ∉ key ∧ key.head? ≠ some 0x5B ∧
      if quoted then Quotable value else Plain value ∧ Trimmed value

instance (item : Item) : Decidable item.Ok :=
  match item with
  | .blank => isTrue trivial
  | .header _ => inferInstanceAs (Decidable (_ ∧ _ ∧ _))
  | .assign _ _ true => inferInstanceAs (Decidable (_ ∧ _ ∧ _ ∧ _ ∧ Quotable _))
  | .assign _ _ false => inferInstanceAs (Decidable (_ ∧ _ ∧ _ ∧ _ ∧ Plain _ ∧ Trimmed _))

/-- A value with its quotes. -/
def writtenValue (value : Bytes) (quoted : Bool) : Bytes :=
  if quoted then quo :: (value ++ [quo]) else value

/-- Blanks within a line. -/
def Blanks (s : Bytes) : Prop := ∀ c ∈ s, isspace c = true ∧ c ≠ 0x0A

instance (s : Bytes) : Decidable (Blanks s) :=
  inferInstanceAs (Decidable (∀ c ∈ s, isspace c = true ∧ c ≠ 0x0A))

/-- An item without the blanks around it, and with `left` and `right` around its equals sign. -/
def Item.body (left right : Bytes) : Item → Bytes
  | .blank => []
  | .header name => 0x5B :: (name ++ [0x5D])
  | .assign key value quoted => key ++ (left ++ 0x3D :: (right ++ writtenValue value quoted))

/-- A line in which an item is written. -/
structure Written where
  item : Item
  /-- The blanks, from left to right. -/
  before : Bytes
  left : Bytes
  right : Bytes
  after : Bytes
  /-- The comment with the sign that starts it, or nothing. -/
  comment : Bytes
  ok : item.Ok
  blanks : Blanks before ∧ Blanks left ∧ Blanks right ∧ Blanks after
  comment_starts : ∀ c ∈ comment.head?, startsComment c = true
  comment_line : ∀ c ∈ comment, c ≠ 0 ∧ c ≠ 0x0A
  fits : (before ++ item.body left right ++ after ++ comment).length < lineSize - 1

/-- The line, without its end. -/
def Written.text (w : Written) : Bytes :=
  w.before ++ w.item.body w.left w.right ++ w.after ++ w.comment

/-- The file. -/
def documentText (ws : List Written) : Bytes := ws.flatMap fun w => w.text ++ [0x0A]

/-- What is kept of an assignment: its value, unless that stands in quotes. -/
def writtenEntry (freed sec : CString) (key value : Bytes) (quoted : Bool) : Entry D :=
  let kept := if quoted then freed.bytes else value
  ⟨sec, strdup key, strdup kept, contentOf kept⟩

/-- The assignments, oldest first, behind `n` others and below a section. -/
def documentEntries (freed : ℕ → CString) (n : ℕ) (sec : CString) : List Item → List (Entry D)
  | [] => []
  | .blank :: items => documentEntries freed n sec items
  | .header name :: items => documentEntries freed n (strdup name) items
  | .assign key value quoted :: items =>
    writtenEntry (freed n) sec key value quoted :: documentEntries freed (n + 1) sec items

/-- The section that some items, below a section, leave. -/
def sectionBelow (sec : CString) : List Item → CString
  | [] => sec
  | .blank :: items => sectionBelow sec items
  | .header name :: items => sectionBelow (strdup name) items
  | .assign _ _ _ :: items => sectionBelow sec items

/-- The names that some items, below a section, assign to. -/
def assigned (sec : CString) : List Item → List (CString × CString)
  | [] => []
  | .blank :: items => assigned sec items
  | .header name :: items => assigned (strdup name) items
  | .assign key _ _ :: items => (sec, strdup key) :: assigned sec items

theorem documentEntries_append (freed : ℕ → CString) (n : ℕ) (sec : CString)
    (items items' : List Item) :
    documentEntries (D := D) freed n sec (items ++ items')
      = documentEntries freed n sec items
        ++ documentEntries freed (n + (assigned sec items).length) (sectionBelow sec items)
            items' := by
  induction items generalizing n sec with
  | nil => rfl
  | cons item items ih =>
    cases item with
    | blank => exact ih n sec
    | header name => exact ih n (strdup name)
    | assign key value quoted =>
      have hcount : n + (assigned sec (.assign key value quoted :: items)).length
          = n + 1 + (assigned sec items).length := by
        show n + ((assigned sec items).length + 1) = _
        omega
      rw [hcount]
      exact congrArg _ (ih (n + 1) sec)

theorem names_documentEntries (freed : ℕ → CString) (n : ℕ) (sec : CString) (items : List Item) :
    (documentEntries (D := D) freed n sec items).map (fun e => (e.sec, e.key))
      = assigned sec items := by
  induction items generalizing n sec with
  | nil => rfl
  | cons item items ih =>
    cases item with
    | blank => exact ih n sec
    | header name => exact ih n (strdup name)
    | assign key value quoted => exact congrArg _ (ih (n + 1) sec)

/-! ## Texts without a comment -/

/-- No comment in a text, and no open quotes behind it. -/
def Closed (s : Bytes) : Prop := stripCommentFrom false s = s ∧ inQuo false s = false

theorem Closed.append {s t : Bytes} (hs : Closed s) (ht : Closed t) : Closed (s ++ t) := by
  constructor
  · rw [stripCommentFrom_append hs.1, hs.2, ht.1]
  · rw [inQuo_append, hs.2, ht.2]

theorem Plain.closed {s : Bytes} (h : Plain s) : Closed s :=
  stripCommentFrom_eq_self false fun c hc => ⟨(h c hc).1, .inr (h c hc).2.1⟩

theorem Blanks.plain {s : Bytes} (h : Blanks s) : Plain s := by
  intro c hc
  obtain ⟨hspace, hnl⟩ := h c hc
  refine ⟨?_, ?_, ?_, hnl⟩
  · rintro rfl
    exact absurd hspace (by decide)
  · rw [← Bool.not_eq_true]
    intro hstarts
    rcases of_decide_eq_true hstarts with rfl | rfl <;> exact absurd hspace (by decide)
  · rintro rfl
    exact absurd hspace (by decide)

theorem Quotable.closed {s : Bytes} (h : Quotable s) : Closed (quo :: (s ++ [quo])) := by
  obtain ⟨hstrip, hin⟩ := stripCommentFrom_eq_self true
    fun c hc => ⟨(h c hc).1, .inl rfl⟩
  constructor
  · show quo :: stripCommentFrom true (s ++ [quo]) = _
    rw [stripCommentFrom_append hstrip, hin]
    rfl
  · show inQuo true (s ++ [quo]) = false
    rw [inQuo_append, hin]
    rfl

theorem closed_singleton {c : UInt8} (hquo : c ≠ quo) (hc : startsComment c = false) :
    Closed [c] :=
  stripCommentFrom_eq_self false fun _ hb => by
    rw [List.mem_singleton.1 hb]
    exact ⟨hquo, .inr hc⟩

theorem closed_writtenValue {value : Bytes} {quoted : Bool}
    (h : if quoted = true then Quotable value else Plain value ∧ Trimmed value) :
    Closed (writtenValue value quoted) := by
  cases quoted with
  | true => exact Quotable.closed h
  | false => exact Plain.closed h.1

theorem Item.Ok.closed {item : Item} (h : item.Ok) {left right : Bytes} (hleft : Blanks left)
    (hright : Blanks right) : Closed (item.body left right) := by
  cases item with
  | blank => exact ⟨rfl, rfl⟩
  | header name =>
    have hopen : Closed [0x5B] := closed_singleton (by decide) rfl
    have hclose : Closed [0x5D] := closed_singleton (by decide) rfl
    exact hopen.append (h.1.closed.append hclose)
  | assign key value quoted =>
    have heq : Closed [0x3D] := closed_singleton (by decide) rfl
    exact h.1.closed.append (hleft.plain.closed.append
      (heq.append (hright.plain.closed.append (closed_writtenValue h.2.2.2.2))))

/-! ## Reading a line -/

theorem head?_append_of_ne_nil {s t : Bytes} (h : s ≠ []) : (s ++ t).head? = s.head? := by
  obtain ⟨c, s, rfl⟩ := List.exists_cons_of_ne_nil h
  rfl

theorem getLast?_append_of_ne_nil {s t : Bytes} (h : t ≠ []) :
    (s ++ t).getLast? = t.getLast? := by
  rw [List.getLast?_append, List.getLast?_eq_some_getLast h, Option.some_or]

theorem trimmed_writtenValue {value : Bytes} {quoted : Bool}
    (h : if quoted = true then Quotable value else Plain value ∧ Trimmed value) :
    Trimmed (writtenValue value quoted) := by
  cases quoted with
  | true =>
    refine ⟨List.cons_ne_nil _ _, ?_, ?_⟩
    · intro c hc
      obtain rfl : quo = c := Option.some.inj hc
      decide
    · intro c hc
      have hlast : (quo :: (value ++ [quo])).getLast? = some quo := by
        rw [← List.cons_append, List.getLast?_append]
        rfl
      obtain rfl : quo = c := Option.some.inj (hlast.symm.trans hc)
      decide
  | false => exact h.2

theorem Item.Ok.bare {item : Item} (h : item.Ok) (left right : Bytes) :
    Bare isspace (item.body left right) := by
  cases item with
  | blank => exact ⟨by simp [Item.body], by simp [Item.body]⟩
  | header name =>
    constructor
    · intro c hc
      obtain rfl : 0x5B = c := Option.some.inj hc
      decide
    · intro c hc
      have hlast : (0x5B :: (name ++ [0x5D])).getLast? = some 0x5D := by
        rw [← List.cons_append, List.getLast?_append]
        rfl
      obtain rfl : 0x5D = c := Option.some.inj (hlast.symm.trans hc)
      decide
  | assign key value quoted =>
    obtain ⟨-, ⟨hne, hkey, -⟩, -, -, hvalue⟩ := h
    obtain ⟨hvne, -, hlast⟩ := trimmed_writtenValue hvalue
    constructor
    · intro c hc
      rw [Item.body, head?_append_of_ne_nil hne] at hc
      exact hkey c hc
    · intro c hc
      rw [Item.body, getLast?_append_of_ne_nil (by simp),
        getLast?_append_of_ne_nil (List.cons_ne_nil _ _), List.getLast?_cons,
        List.getLast?_append, List.getLast?_eq_some_getLast hvne] at hc
      exact hlast c (by rw [List.getLast?_eq_some_getLast hvne]; simpa using hc)

/-- What is left of a line once its comment and the blanks around it are gone. -/
theorem trim_stripComment_text (w : Written) :
    trim (stripComment (w.text ++ [0x0A])) = w.item.body w.left w.right := by
  obtain ⟨hbefore, hleft, hright, hafter⟩ := w.blanks
  have hclosed : Closed (w.before ++ w.item.body w.left w.right ++ w.after) :=
    (hbefore.plain.closed.append (w.ok.closed hleft hright)).append hafter.plain.closed
  have hbare := w.ok.bare w.left w.right
  rw [Written.text]
  cases hcomment : w.comment with
  | nil =>
    have hend : Closed [0x0A] := closed_singleton (by decide) rfl
    rw [List.append_nil, stripComment, (hclosed.append hend).1, trim, List.append_assoc _ w.after]
    refine hbare.strip_append (fun c hc => (hbefore c hc).1) fun c hc => ?_
    rcases List.mem_append.1 hc with hc | hc
    · exact (hafter c hc).1
    · rw [List.mem_singleton.1 hc]
      rfl
  | cons c t =>
    have hc : startsComment c = true := w.comment_starts c (by rw [hcomment]; rfl)
    rw [List.append_assoc, List.cons_append, stripComment_append hclosed.1 hclosed.2 hc, trim]
    exact hbare.strip_append (fun c hc => (hbefore c hc).1) fun c hc => (hafter c hc).1

/-- What `load_file()` is to make of an item. -/
def Item.line : Item → Line
  | .blank => .blank
  | .header name => .header name
  | .assign key value quoted => .assign key (writtenValue value quoted)

theorem takeWhile_append_cons {s : Bytes} {x : UInt8} (h : x ∉ s) (t : Bytes) :
    (s ++ x :: t).takeWhile (· ≠ x) = s ∧ (s ++ x :: t).dropWhile (· ≠ x) = x :: t := by
  have hs : ∀ c ∈ s, decide (c ≠ x) = true := by
    intro c hc
    refine decide_eq_true ?_
    rintro rfl
    exact h hc
  constructor
  · rw [List.takeWhile_append_of_pos hs]
    simp
  · rw [List.dropWhile_append_of_pos hs]
    simp

/-- **A line is read as what was written in it.** -/
theorem readLine_text (w : Written) : readLine (w.text ++ [0x0A]) = w.item.line := by
  obtain ⟨-, hleft, hright, -⟩ := w.blanks
  have hok := w.ok
  rw [readLine, trim_stripComment_text]
  cases hitem : w.item with
  | blank => rfl
  | header name =>
    rw [hitem] at hok
    have hmem : (0x5D : UInt8) ∈ 0x5B :: (name ++ [0x5D]) := by simp
    simp only [Item.body, List.cons_ne_nil, if_false, List.head?_cons, if_true, if_pos hmem,
      List.drop_succ_cons, List.drop_zero]
    rw [(takeWhile_append_cons hok.2.1 []).1]
    rfl
  | assign key value quoted =>
    rw [hitem] at hok
    obtain ⟨-, ⟨hne, hbare⟩, heq, hopen, hvalue⟩ := hok
    obtain ⟨hvne, hvbare⟩ := trimmed_writtenValue hvalue
    have hnoeq : 0x3D ∉ key ++ w.left := by
      intro h
      rcases List.mem_append.1 h with h | h
      · exact heq h
      · exact absurd (hleft _ h).1 (by decide)
    obtain ⟨htake, hdrop⟩ := takeWhile_append_cons hnoeq (w.right ++ writtenValue value quoted)
    have hkey : trim (key ++ w.left) = key := by
      rw [trim, strip_append_of_forall fun c hc => (hleft c hc).1, hbare.strip_eq]
    have hval : trim (w.right ++ writtenValue value quoted) = writtenValue value quoted := by
      rw [trim, strip_append_left fun c hc => (hright c hc).1, hvbare.strip_eq]
    have hbody : (Item.assign key value quoted).body w.left w.right
        = key ++ w.left ++ 0x3D :: (w.right ++ writtenValue value quoted) := by
      rw [Item.body, List.append_assoc]
    have hmem : 0x3D ∈ key ++ w.left ++ 0x3D :: (w.right ++ writtenValue value quoted) := by simp
    have hhead : (key ++ w.left ++ 0x3D :: (w.right ++ writtenValue value quoted)).head?
        ≠ some 0x5B := by
      rw [List.append_assoc, head?_append_of_ne_nil hne]
      exact hopen
    have hboth : ¬ (key = [] ∨ writtenValue value quoted = []) := by
      rintro (h | h)
      · exact hne h
      · exact hvne h
    rw [hbody, if_neg (List.ne_nil_of_mem hmem), if_neg hhead, if_pos hmem, htake, hdrop,
      List.drop_succ_cons, List.drop_zero, hkey, hval]
    exact if_neg hboth

/-! ## Loading what was written -/

theorem parseValue_writtenValue (freed : CString) {value : Bytes} {quoted : Bool}
    (h : if quoted = true then Quotable value else Plain value ∧ Trimmed value) :
    parseValue (D := D) freed (writtenValue value quoted)
      = (if quoted then freed.bytes else value,
        contentOf (if quoted then freed.bytes else value)) := by
  have htrim : trim (writtenValue value quoted) = writtenValue value quoted :=
    (trimmed_writtenValue h).2.strip_eq
  rw [parseValue, htrim]
  cases quoted with
  | true =>
    have hquoted : Quoted (quo :: (value ++ [quo])) := by
      refine ⟨by simp, rfl, ?_⟩
      rw [← List.cons_append, List.getLast?_append]
      rfl
    exact if_pos hquoted
  | false =>
    have hplain : ¬ Quoted value := fun hq => (h.1 quo (List.mem_of_mem_head? hq.2.1)).1 rfl
    exact if_neg hplain

theorem entriesFrom_line (freed : ℕ → CString) (items : List Item)
    (hitems : ∀ item ∈ items, item.Ok) (n : ℕ) (sec : CString) :
    entriesFrom (D := D) freed n sec (items.map Item.line) = documentEntries freed n sec items := by
  induction items generalizing n sec with
  | nil => rfl
  | cons item items ih =>
    rw [List.forall_mem_cons] at hitems
    obtain ⟨hok, hitems⟩ := hitems
    rw [List.map_cons]
    cases item with
    | blank => exact ih hitems n sec
    | header name =>
      show entriesFrom freed n (strdup (name.take 127)) _
        = documentEntries freed n (strdup name) items
      rw [List.take_of_length_le hok.2.2]
      exact ih hitems n _
    | assign key value quoted =>
      show entryOf (freed n) sec key (writtenValue value quoted)
        :: entriesFrom freed (n + 1) sec _ = _ :: _
      rw [ih hitems, entryOf, parseValue_writtenValue (freed n) hok.2.2.2.2]
      rfl

theorem not_mem_text (w : Written) : (0 : UInt8) ∉ w.text ∧ (0x0A : UInt8) ∉ w.text := by
  obtain ⟨hbefore, hleft, hright, hafter⟩ := w.blanks
  have hplain : ∀ {s : Bytes}, Plain s → ∀ c ∈ s, c ≠ 0 ∧ c ≠ 0x0A :=
    fun h c hc => (h c hc).2.2
  have hbody : ∀ c ∈ w.item.body w.left w.right, c ≠ 0 ∧ c ≠ 0x0A := by
    have hok := w.ok
    cases hitem : w.item with
    | blank => exact fun c hc => absurd hc List.not_mem_nil
    | header name =>
      rw [hitem] at hok
      intro c hc
      simp only [Item.body, List.mem_cons, List.mem_append, List.not_mem_nil, or_false] at hc
      rcases hc with rfl | hc | rfl
      · decide
      · exact hplain hok.1 c hc
      · decide
    | assign key value quoted =>
      rw [hitem] at hok
      have hvalue : ∀ c ∈ writtenValue value quoted, c ≠ 0 ∧ c ≠ 0x0A := by
        have hv := hok.2.2.2.2
        cases quoted with
        | true =>
          intro c hc
          simp only [writtenValue, if_true, List.mem_cons, List.mem_append, List.not_mem_nil,
            or_false] at hc
          rcases hc with rfl | hc | rfl
          · decide
          · exact (hv c hc).2
          · decide
        | false => exact hplain hv.1
      intro c hc
      simp only [Item.body, List.mem_cons, List.mem_append] at hc
      rcases hc with hc | hc | rfl | hc | hc
      · exact hplain hok.1 c hc
      · exact hplain hleft.plain c hc
      · decide
      · exact hplain hright.plain c hc
      · exact hvalue c hc
  have hall : ∀ c ∈ w.text, c ≠ 0 ∧ c ≠ 0x0A := by
    intro c hc
    simp only [Written.text, List.mem_append] at hc
    rcases hc with ((hc | hc) | hc) | hc
    · exact hplain hbefore.plain c hc
    · exact hbody c hc
    · exact hplain hafter.plain c hc
    · exact w.comment_line c hc
  exact ⟨fun h => (hall 0 h).1 rfl, fun h => (hall 0x0A h).2 rfl⟩

/-- **A file that has been written is loaded, and says what was written** without quotes. -/
theorem loadFile_document (ws : List Written) {mem : Memory}
    (hmark : mem.mark = 0 ∨ mem.mark = 0x0A) :
    (loadFile mem (documentText ws) : Except Rc (Table D))
      = .ok (Chained.pushAll Entry.bucket Chained.empty
          (documentEntries mem.freed 0 (strdup []) (ws.map Written.item))) := by
  have hlines : lines 0x0A (documentText ws) = ws.map fun w => w.text ++ [0x0A] :=
    lines_flatMap Written.text ws fun w _ => (not_mem_text w).2
  have hzero : 0 ∉ documentText ws := by
    intro h
    obtain ⟨w, -, hw⟩ := List.mem_flatMap.1 h
    rcases List.mem_append.1 hw with hw | hw
    · exact (not_mem_text w).1 hw
    · exact absurd (List.mem_singleton.1 hw) (by decide)
  have hacc : Accepted (documentText ws) := by
    intro l hl
    rw [hlines] at hl
    obtain ⟨w, -, rfl⟩ := List.mem_map.1 hl
    refine ⟨not_overlong_append w.fits, ?_⟩
    rw [readLine_text]
    cases w.item <;> exact fun h => Line.noConfusion h
  have hread : (lines 0x0A (documentText ws)).map readLine
      = (ws.map Written.item).map Item.line := by
    rw [hlines, List.map_map, List.map_map]
    exact List.map_congr_left fun w _ => readLine_text w
  have hallows : MarkAllows mem.mark (documentText ws) := hmark.elim .inl fun h => .inr (.inl h)
  rw [loadFile_eq hzero, if_pos ⟨hallows, hacc⟩, entriesOf, hread, entriesFrom_line]
  intro item hitem
  obtain ⟨w, -, rfl⟩ := List.mem_map.1 hitem
  exact w.ok

/-- `[network]`. -/
def networkLine : Written where
  item := .header (textBytes "network")
  before := []
  left := []
  right := []
  after := []
  comment := []
  ok := by decide +kernel
  blanks := by decide +kernel
  comment_starts := by simp
  comment_line := by simp
  fits := by decide +kernel

/-- `port = 80  # of lucpd`. -/
def portLine : Written where
  item := .assign (textBytes "port") (textBytes "80") false
  before := []
  left := [0x20]
  right := [0x20]
  after := [0x20, 0x20]
  comment := textBytes "# of lucpd"
  ok := by decide +kernel
  blanks := by decide +kernel
  comment_starts := by decide +kernel
  comment_line := by decide +kernel
  fits := by decide +kernel

end Lucp.Lucfg
