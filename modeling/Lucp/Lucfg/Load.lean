import Lucp.General.Chained
import Lucp.Lucfg.Text
import Lucp.Lucfg.Expr

/-!
# Loading a configuration file

`lucfg_open()` reads a file line by line into a buffer of 1024 bytes and puts each assignment into a
hash table, with what its value is: an expression, an integer, a `double` or a text.

Two things that it reads it has not written.  A line that is too long for the buffer is known by the
byte in front of its last one.  That byte of the buffer is looked at after every line, and nothing
has written to it before a line that is long enough; what stands there when the function starts
decides about the first lines of a file.  And a value in quotes is copied from its own block after
that block has been freed.

## What is here

* `Memory` — what the memory holds in these two places.
* `parseValue`, `hashFunc`, `loadFile`, `lucfgOpen` — the functions of the source.
* `Accepted` — what is required of a file, line by line.
* `loadFile_ok_iff` — **a file is loaded exactly if it is accepted and the byte allows it**, and the
  table then holds the assignments of its lines, of which those in quotes have lost their values.
-/

set_option autoImplicit false

namespace Lucp.Lucfg

open Lines

variable {D : Type} [Doubles D]

/-! ## Values -/

/-- What a value is: `type`, `has_expr` and the number that goes with them. -/
inductive Content (D : Type) where
  /-- Type 0. -/
  | string
  /-- Type 1, with `ivalue`. -/
  | int (ivalue : ℤ)
  /-- Type 2 without an expression, with `dvalue`. -/
  | double (dvalue : D)
  /-- Type 2 with `has_expr`, and `expr_value`. -/
  | expr (exprValue : D)
  deriving DecidableEq

/-- The end that `strtol()` reports; nothing is read where there is no digit. -/
def strtolEnd (s : Bytes) : Bytes :=
  if (afterSign s).takeWhile isdigit = [] then s else (afterSign s).dropWhile isdigit

/-- What `parse_value()` finds in a text. -/
def contentOf (s : Bytes) : Content D :=
  match tryEvalExpr s with
  | some ev => .expr ev
  | none =>
    if strtolEnd s = [] then .int (strtol s)
    else
      match Doubles.strtod s with
      | none => .string
      | some (dv, []) => .double dv
      | some (_, _ :: _) => .string

/-- A text in quotes. -/
def Quoted (s : Bytes) : Prop := 2 ≤ s.length ∧ s.head? = some quo ∧ s.getLast? = some quo

instance (s : Bytes) : Decidable (Quoted s) := inferInstanceAs (Decidable (_ ∧ _ ∧ _))

/-- What `load_file()` finds in memory that it has not written, or has given back. -/
structure Memory where
  /-- The byte of `line` in front of its last one, at the start. -/
  mark : UInt8
  /-- What `parse_value()` has got once it has copied the value of the `n`th assignment out of the
  block that it has freed. -/
  freed : ℕ → CString

/-- `parse_value()`: the value as it is kept, and what it is.  The quotes around a value are dropped
together with the block that the value is in.  The blanks around a value would stay in it, but
`load_file()` has trimmed them off. -/
def parseValue (freed : CString) (value : Bytes) : Bytes × Content D :=
  let s := trim value
  if Quoted s then (freed.bytes, contentOf freed.bytes) else (value, contentOf s)

/-! ## The table -/

/-- `entry_t`. -/
structure Entry (D : Type) where
  sec : CString
  key : CString
  value : CString
  content : Content D
  deriving DecidableEq

/-- A step of `hash_func()`, where `char` is signed. -/
def hashStep (h : UInt32) (c : UInt8) : UInt32 :=
  (h <<< 5) + h + c.toInt8.toInt32.toUInt32

/-- `hash_func()`. -/
def hashFunc (sec key : Bytes) : Fin 127 :=
  Fin.ofNat 127 ((key.foldl hashStep (sec.foldl hashStep 5381)).toNat)

/-- The chain of an entry. -/
def Entry.bucket (e : Entry D) : Fin 127 := hashFunc e.sec.bytes e.key.bytes

/-- The chains. -/
abbrev Table (D : Type) := Chained 127 (Entry D)

/-- `strdup()`. -/
def strdup (s : Bytes) : CString :=
  ⟨s.takeWhile (· ≠ 0), fun h => by simpa using List.mem_takeWhile_imp h⟩

/-- Memory that is all zeros. -/
def Memory.zeros : Memory := ⟨0, fun _ => strdup []⟩

/-! ## The file -/

/-- The codes of `lucfg.h`. -/
inductive Rc where
  | ok | errOpen | errParse | errNokey | errType | errLock | errRange
  deriving DecidableEq

/-- The variables of `load_file()`. -/
structure LoadState (D : Type) where
  /-- The byte of the buffer in front of its last one. -/
  mark : UInt8
  /-- `cur_sec`. -/
  curSec : CString
  /-- How many assignments there have been. -/
  count : ℕ
  /-- The chains so far. -/
  table : Table D

/-- The size of `line`. -/
def lineSize : ℕ := 1024

/-- What an assignment adds. -/
def entryOf (freed sec : CString) (key val : Bytes) : Entry D where
  sec := sec
  key := strdup key
  value := strdup (parseValue (D := D) freed val).1
  content := (parseValue freed val).2

/-- What a line does, once it is known not to be too long. -/
def loadLine (freed : ℕ → CString) (st : LoadState D) : Line → Except Rc (LoadState D)
  | .blank => .ok st
  | .header name => .ok { st with curSec := strdup (name.take 127) }
  | .assign key val =>
    let ent : Entry D := entryOf (freed st.count) st.curSec key val
    .ok { st with
      count := st.count + 1
      table := st.table.push (hashFunc st.curSec.bytes key) ent }
  | .malformed => .error .errParse

/-- One turn of the loop: `fgets()` has put the piece `chunk` into the buffer, with a zero behind
it.  The zeros that the rest of the turn writes into the buffer do not matter for the byte that is
looked at: the next turns let a zero pass there. -/
def loadChunk (freed : ℕ → CString) (st : LoadState D) (chunk : Bytes) :
    Except Rc (LoadState D) :=
  let mark := ((chunk ++ [0])[lineSize - 2]?).getD st.mark
  if mark ≠ 0 ∧ mark ≠ 0x0A then .error .errParse
  else loadLine freed { st with mark := mark } (readLine (chunk.takeWhile (· ≠ 0)))

/-- `load_file()` on an open file. -/
def loadFile (mem : Memory) (file : Bytes) : Except Rc (Table D) :=
  ((reads 0x0A (lineSize - 1) file).foldlM (loadChunk mem.freed)
    { mark := mem.mark, curSec := strdup [], count := 0, table := Chained.empty }).map
      LoadState.table

/-- `lucfg_open()`, over the files there are. -/
def lucfgOpen (files : CString → Option Bytes) (mem : Memory) (filename : CString) :
    Option (Table D) :=
  match files filename with
  | none => none
  | some file =>
    match (loadFile mem file : Except Rc (Table D)) with
    | .ok table => some table
    | .error _ => none

/-! ## What is accepted -/

/-- The assignments of lines, oldest first, behind `n` others and a header. -/
def entriesFrom (freed : ℕ → CString) (n : ℕ) (sec : CString) : List Line → List (Entry D)
  | [] => []
  | .header name :: ls => entriesFrom freed n (strdup (name.take 127)) ls
  | .assign key val :: ls =>
    entryOf (freed n) sec key val :: entriesFrom freed (n + 1) sec ls
  | .blank :: ls => entriesFrom freed n sec ls
  | .malformed :: ls => entriesFrom freed n sec ls

/-- The assignments of a file. -/
def entriesOf (freed : ℕ → CString) (file : Bytes) : List (Entry D) :=
  entriesFrom freed 0 (strdup []) ((lines 0x0A file).map readLine)

/-- A line that is not too long, and that means something. -/
def GoodLine (l : Bytes) : Prop := ¬ Overlong 0x0A (lineSize - 1) l ∧ readLine l ≠ .malformed

instance (l : Bytes) : Decidable (GoodLine l) := inferInstanceAs (Decidable (_ ∧ _))

/-- A file of such lines. -/
def Accepted (file : Bytes) : Prop := ∀ l ∈ lines 0x0A file, GoodLine l

instance (file : Bytes) : Decidable (Accepted file) :=
  inferInstanceAs (Decidable (∀ l ∈ lines 0x0A file, GoodLine l))

/-- The byte that nothing has written to does not stop the load: it happens to be harmless, or the
first line writes to it, or there is none. -/
def MarkAllows (mark : UInt8) (file : Bytes) : Prop :=
  mark = 0 ∨ mark = 0x0A ∨ file = [] ∨ lineSize - 2 ≤ (firstLine 0x0A file).length

instance (mark : UInt8) (file : Bytes) : Decidable (MarkAllows mark file) :=
  inferInstanceAs (Decidable (_ ∨ _ ∨ _ ∨ _))

/-! ## The loop -/

theorem takeWhile_ne_zero_eq_self {s : Bytes} (h : 0 ∉ s) : s.takeWhile (· ≠ 0) = s :=
  List.takeWhile_eq_self_iff.2 fun _ hc => decide_eq_true fun h0 => h (h0 ▸ hc)

theorem strdup_self (s : CString) : strdup s.bytes = s :=
  CString.ext (takeWhile_ne_zero_eq_self s.noNul)

theorem strdup_bytes {s : Bytes} (h : 0 ∉ s) : (strdup s).bytes = s :=
  takeWhile_ne_zero_eq_self h

theorem mem_of_readLine_assign {l key val : Bytes} (h : readLine l = .assign key val) :
    (∀ c ∈ key, c ∈ l) ∧ ∀ c ∈ val, c ∈ l := by
  have hsub : ∀ c ∈ trim (stripComment l), c ∈ l :=
    fun c hc => (isPrefix_stripCommentFrom false l).subset (mem_of_mem_strip hc)
  rw [readLine] at h
  generalize trim (stripComment l) = p at h hsub
  split at h
  · cases h
  · split at h
    · split at h <;> cases h
    · split at h
      · dsimp only at h
        split at h
        · cases h
        · cases h
          refine ⟨fun c hc => hsub c ?_, fun c hc => hsub c ?_⟩
          · exact (List.takeWhile_prefix _).subset (mem_of_mem_strip hc)
          · exact (List.dropWhile_suffix _).subset (List.mem_of_mem_drop (mem_of_mem_strip hc))
      · cases h

/-- **What the lines behind the first one add**, or the error if one of them is bad. -/
theorem loadLine_eq (freed : ℕ → CString) (st : LoadState D) {l : Bytes} (hl : 0 ∉ l)
    (h : readLine l ≠ .malformed) :
    ∃ st', loadLine freed st (readLine l) = .ok st' ∧ st'.mark = st.mark ∧
      ∀ ls : List Line,
        Chained.pushAll Entry.bucket st'.table (entriesFrom freed st'.count st'.curSec ls)
          = Chained.pushAll Entry.bucket st.table
              (entriesFrom freed st.count st.curSec (readLine l :: ls)) := by
  generalize hline : readLine l = line at h
  cases line with
  | blank => exact ⟨st, rfl, rfl, fun _ => rfl⟩
  | header name => exact ⟨_, rfl, rfl, fun _ => rfl⟩
  | assign key val =>
    have hkey : 0 ∉ key := fun h0 => hl ((mem_of_readLine_assign hline).1 0 h0)
    refine ⟨_, rfl, rfl, fun ls => ?_⟩
    rw [entriesFrom, Chained.pushAll_cons]
    show _ = Chained.pushAll _ (st.table.push (hashFunc _ (strdup key).bytes) _) _
    rw [strdup_bytes hkey]
    rfl
  | malformed => exact absurd rfl h

/-- The byte in front of the last one of the buffer, after a piece without zeros. -/
theorem mark_iff {mark : UInt8} (hmark : mark = 0 ∨ mark = 0x0A) {c : Bytes} (hzero : 0 ∉ c)
    (hroom : c.length ≤ lineSize - 1) (hnl : 0x0A ∉ c.dropLast) :
    (((c ++ [0])[lineSize - 2]?).getD mark ≠ 0 ∧ ((c ++ [0])[lineSize - 2]?).getD mark ≠ 0x0A) ↔
      Overlong 0x0A (lineSize - 1) c := by
  have hsize : lineSize = 1024 := rfl
  rcases Nat.lt_trichotomy c.length (lineSize - 2) with hlt | heq | hgt
  · have hnone : (c ++ [0])[lineSize - 2]? = none := by
      rw [List.getElem?_eq_none_iff, List.length_append, List.length_singleton]
      omega
    rw [hnone, Option.getD_none]
    refine ⟨fun h => ?_, fun h => absurd h.1 (by omega)⟩
    rcases hmark with hmark | hmark
    · exact absurd hmark h.1
    · exact absurd hmark h.2
  · have hzero' : (c ++ [0])[lineSize - 2]? = some 0 := by
      rw [← heq, List.getElem?_concat_length]
    rw [hzero', Option.getD_some]
    exact ⟨fun h => absurd rfl h.1, fun h => absurd h.1 (by omega)⟩
  · have hlen : c.length = lineSize - 1 := by omega
    have hne : c ≠ [] := List.ne_nil_of_length_pos (by omega)
    have hlast : (c ++ [0])[lineSize - 2]? = some (c.getLast hne) := by
      rw [List.getElem?_append_left (by omega), ← List.getLast?_eq_some_getLast hne,
        List.getLast?_eq_getElem?, hlen]
      rfl
    have hmem : 0x0A ∈ c ↔ c.getLast hne = 0x0A := by
      conv_lhs => rw [← List.dropLast_append_getLast hne]
      rw [List.mem_append, List.mem_singleton, or_iff_right hnl, eq_comm]
    have hpos : c.getLast hne ≠ 0 := fun h0 => hzero (h0 ▸ List.getLast_mem hne)
    rw [hlast, Option.getD_some, Overlong, List.take_of_length_le hroom, hmem]
    exact ⟨fun h => ⟨hlen.ge, h.2⟩, fun h => ⟨hpos, h.2⟩⟩

/-- **The loop**, from a state in which the byte is harmless. -/
theorem foldlM_loadChunk (freed : ℕ → CString) {st : LoadState D}
    (hmark : st.mark = 0 ∨ st.mark = 0x0A)
    (cs : List Bytes) (hcs : ∀ c ∈ cs, c.length ≤ lineSize - 1 ∧ 0x0A ∉ c.dropLast ∧ 0 ∉ c) :
    (cs.foldlM (loadChunk freed) st).map LoadState.table
      = if ∀ c ∈ cs, GoodLine c then
          .ok (Chained.pushAll Entry.bucket st.table
            (entriesFrom freed st.count st.curSec (cs.map readLine)))
        else .error .errParse := by
  induction cs generalizing st with
  | nil => rfl
  | cons c cs ih =>
    rw [List.forall_mem_cons] at hcs
    obtain ⟨⟨hroom, hnl, hzero⟩, hcs⟩ := hcs
    have hiff := mark_iff hmark hzero hroom hnl
    rw [List.foldlM_cons, loadChunk, takeWhile_ne_zero_eq_self hzero]
    simp only [List.forall_mem_cons]
    by_cases hover : Overlong 0x0A (lineSize - 1) c
    · rw [if_pos (hiff.2 hover), if_neg fun h => h.1.1 hover]
      rfl
    · rw [if_neg fun h => hover (hiff.1 h)]
      by_cases hbad : readLine c = .malformed
      · rw [if_neg fun h => h.1.2 hbad, hbad]
        rfl
      · have hmark' := mt hiff.1 hover
        rw [not_and_or, not_not, not_not] at hmark'
        obtain ⟨st', hst', hm, htable⟩ := loadLine_eq freed
          { st with mark := ((c ++ [0])[lineSize - 2]?).getD st.mark } hzero hbad
        have hgood : GoodLine c := ⟨hover, hbad⟩
        rw [hst', List.map_cons, ← htable (cs.map readLine)]
        simp only [hgood, true_and]
        exact ih (by rw [hm]; exact hmark') hcs

/-- What becomes of a file. -/
theorem loadFile_eq {file : Bytes} (hzero : 0 ∉ file) (mem : Memory) :
    (loadFile mem file : Except Rc (Table D))
      = if MarkAllows mem.mark file ∧ Accepted file then
          .ok (Chained.pushAll Entry.bucket Chained.empty (entriesOf mem.freed file))
        else .error .errParse := by
  have hroom : 0 < lineSize - 1 := by decide
  obtain ⟨mark, freed⟩ := mem
  have hharmless : ∀ m : UInt8, m = 0 ∨ m = 0x0A →
      (loadFile ⟨m, freed⟩ file : Except Rc (Table D))
      = if Accepted file then
          .ok (Chained.pushAll Entry.bucket Chained.empty (entriesOf freed file))
        else .error .errParse := by
    intro m hm
    have hpieces : ∀ c ∈ reads 0x0A (lineSize - 1) file,
        c.length ≤ lineSize - 1 ∧ 0x0A ∉ c.dropLast ∧ 0 ∉ c := by
      intro c hc
      obtain ⟨hlen, hnl, hsub⟩ := piece_of_mem_reads hc
      exact ⟨hlen, hnl, fun h => hzero (hsub 0 h)⟩
    have hiff : (∀ c ∈ reads 0x0A (lineSize - 1) file, GoodLine c) ↔ Accepted file :=
      forall_reads_iff hroom file fun l => readLine l ≠ .malformed
    rw [loadFile, foldlM_loadChunk freed hm _ hpieces]
    by_cases hacc : Accepted file
    · rw [if_pos (hiff.2 hacc), if_pos hacc, entriesOf,
        reads_eq_lines hroom fun l hl => (hacc l hl).1]
    · rw [if_neg (mt hiff.1 hacc), if_neg hacc]
  by_cases hm : mark = 0 ∨ mark = 0x0A
  · have hallows : MarkAllows mark file := hm.elim .inl fun h => .inr (.inl h)
    rw [hharmless mark hm]
    simp only [hallows, true_and]
  · obtain ⟨hm0, hmnl⟩ := not_or.1 hm
    rcases eq_or_ne file [] with rfl | hne
    · have hallows : MarkAllows mark [] := .inr (.inr (.inl rfl))
      have hacc : Accepted [] := fun l hl => absurd hl List.not_mem_nil
      rw [loadFile, reads_nil, if_pos ⟨hallows, hacc⟩]
      rfl
    · -- the first piece decides: it writes to the byte, or the load ends with it
      have hlen : (fgets 0x0A (lineSize - 1) file).length
          = min (lineSize - 1) (firstLine 0x0A file).length := List.length_take
      by_cases hlong : lineSize - 2 ≤ (firstLine 0x0A file).length
      · have hallows : MarkAllows mark file := .inr (.inr (.inr hlong))
        have hsize : lineSize = 1024 := rfl
        obtain ⟨b, hb⟩ : ∃ b, (fgets 0x0A (lineSize - 1) file ++ [0])[lineSize - 2]? = some b := by
          refine ⟨_, List.getElem?_eq_getElem ?_⟩
          rw [List.length_append, List.length_singleton]
          omega
        have hsame : (loadFile ⟨mark, freed⟩ file : Except Rc (Table D))
            = loadFile ⟨0, freed⟩ file := by
          rw [loadFile, loadFile, reads_cons hroom hne, List.foldlM_cons, List.foldlM_cons,
            loadChunk, loadChunk, hb]
          rfl
        rw [hsame, hharmless 0 (.inl rfl)]
        simp only [hallows, true_and]
      · have hnone : (fgets 0x0A (lineSize - 1) file ++ [0])[lineSize - 2]? = none := by
          rw [List.getElem?_eq_none_iff, List.length_append, List.length_singleton]
          omega
        have hstop : ¬ MarkAllows mark file := by
          rintro (h | h | h | h)
          · exact hm0 h
          · exact hmnl h
          · exact hne h
          · exact hlong h
        rw [loadFile, reads_cons hroom hne, List.foldlM_cons, loadChunk, hnone,
          if_pos ⟨hm0, hmnl⟩, if_neg fun h => hstop h.1]
        rfl

/-- **A file is loaded exactly if it is accepted and the byte allows it**, and the table then holds
the assignments of its lines; every other file is a syntax error. -/
theorem loadFile_ok_iff {file : Bytes} (hzero : 0 ∉ file) (mem : Memory) :
    (∀ t : Table D, loadFile mem file = .ok t ↔ (MarkAllows mem.mark file ∧ Accepted file) ∧
        t = Chained.pushAll Entry.bucket Chained.empty (entriesOf mem.freed file)) ∧
      ((loadFile mem file : Except Rc (Table D)) = .error .errParse ↔
        ¬ (MarkAllows mem.mark file ∧ Accepted file)) := by
  rw [loadFile_eq hzero]
  by_cases h : MarkAllows mem.mark file ∧ Accepted file
  · rw [if_pos h]
    refine ⟨fun t => ⟨fun ht => ⟨h, (Except.ok.inj ht).symm⟩, fun ht => by rw [ht.2]⟩, ?_⟩
    exact ⟨fun herr => (by cases herr), fun hnot => absurd h hnot⟩
  · rw [if_neg h]
    exact ⟨fun t => ⟨fun ht => (by cases ht), fun ht => absurd ht.1 h⟩, fun _ => h, fun _ => rfl⟩

/-- A port in quotes: the load fails where the buffer happens to start with a one, and loses the
port where it does not. -/
theorem loadFile_one :
    let file := textBytes "[network]\nport = \"80\"\n"
    (loadFile { Memory.zeros with mark := 1 } file : Except Rc (Table Exact))
        = .error .errParse ∧
      (loadFile .zeros file : Except Rc (Table Exact))
        = .ok (Chained.pushAll Entry.bucket Chained.empty
            [⟨strdup (textBytes "network"), strdup (textBytes "port"), strdup [], .int 0⟩]) := by
  intro file
  have hzero : 0 ∉ file := by decide
  constructor
  · exact (loadFile_ok_iff hzero _).2.2 (by decide)
  · exact ((loadFile_ok_iff hzero .zeros).1 _).2
      ⟨by decide, congrArg (Chained.pushAll Entry.bucket Chained.empty) (by decide +kernel)⟩

end Lucp.Lucfg
