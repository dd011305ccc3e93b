import Mathlib.Data.List.DropRight
import Mathlib.Data.List.Infix
import Mathlib.Data.List.TakeWhile

/-!
# Text in lines, read into a buffer

A reader that takes a text line by line into a buffer of fixed size does not see its lines but what
fits: a line that is too long comes in pieces.  A caller who wants to know looks at whether a piece
fills the buffer without ending its line.  This file relates the two readings over arbitrary
symbols, and has what a reader of lines needs besides, to take the blanks off their ends.

## What is here

* `Lines.lines`, `Lines.reads` — the lines of a text, and the pieces in which a buffer gets them.
* `Lines.reads_eq_lines` — a buffer with room for every line gets the lines.
* `Lines.forall_reads_iff` — **a reader that gives up at a piece that fills its buffer accepts
  exactly if it would accept the lines themselves**, none of them being too long.
* `Lines.lines_flatMap` — lines that are written one after the other can be read back.
* `Lines.strip`, `Lines.Bare` — a text without the blanks around it; `Lines.strip_append`.
-/

set_option autoImplicit false

universe u

namespace Lines

variable {α : Type u}

section Reading

variable [DecidableEq α] {nl : α} {room : ℕ}

/-- The first line of a text, with the symbol that ends it. -/
def firstLine (nl : α) : List α → List α
  | [] => []
  | c :: s => if c = nl then [c] else c :: firstLine nl s

/-- The lines of a text; the last one need not be ended. -/
def lines (nl : α) : List α → List (List α)
  | [] => []
  | c :: s =>
    if c = nl then [c] :: lines nl s
    else
      match lines nl s with
      | [] => [[c]]
      | l :: ls => (c :: l) :: ls

/-- What a buffer gets with one call: the first line, as far as there is room. -/
def fgets (nl : α) (room : ℕ) (s : List α) : List α := (firstLine nl s).take room

theorem firstLine_ne_nil (nl : α) {s : List α} (h : s ≠ []) : firstLine nl s ≠ [] := by
  obtain ⟨c, s, rfl⟩ := List.exists_cons_of_ne_nil h
  rw [firstLine]
  split <;> exact List.cons_ne_nil _ _

theorem isPrefix_firstLine (s : List α) : firstLine nl s <+: s := by
  induction s with
  | nil => exact List.prefix_rfl
  | cons c s ih =>
    rw [firstLine]
    split
    · exact ⟨s, rfl⟩
    · exact List.prefix_cons_inj c |>.2 ih

theorem length_fgets_pos (nl : α) (hroom : 0 < room) {s : List α} (h : s ≠ []) :
    0 < (fgets nl room s).length := by
  have := List.length_pos_iff.2 (firstLine_ne_nil nl h)
  rw [fgets, List.length_take]
  omega

/-- What a buffer gets with one call after the other. -/
def reads (nl : α) (room : ℕ) (s : List α) : List (List α) :=
  if _h : s ≠ [] ∧ 0 < room then
    fgets nl room s :: reads nl room (s.drop (fgets nl room s).length)
  else []
termination_by s.length
decreasing_by
  have hpos := length_fgets_pos nl _h.2 _h.1
  have := List.length_pos_iff.2 _h.1
  rw [List.length_drop]
  omega

/-- A line that fills the buffer without ending. -/
def Overlong (nl : α) (room : ℕ) (l : List α) : Prop := room ≤ l.length ∧ nl ∉ l.take room

instance (nl : α) (room : ℕ) (l : List α) : Decidable (Overlong nl room l) :=
  inferInstanceAs (Decidable (_ ∧ _))

theorem reads_nil : reads nl room [] = [] := by
  rw [reads, dif_neg fun h => h.1 rfl]

theorem reads_cons (hroom : 0 < room) {s : List α} (h : s ≠ []) :
    reads nl room s = fgets nl room s :: reads nl room (s.drop (fgets nl room s).length) := by
  rw [reads, dif_pos ⟨h, hroom⟩]

/-- The lines of a text are its first line and the lines behind it. -/
theorem lines_cons {s : List α} (h : s ≠ []) :
    lines nl s = firstLine nl s :: lines nl (s.drop (firstLine nl s).length) := by
  induction s with
  | nil => exact absurd rfl h
  | cons c s ih =>
    rw [lines, firstLine]
    by_cases hc : c = nl
    · rw [if_pos hc, if_pos hc]
      rfl
    · rw [if_neg hc, if_neg hc, List.length_cons, List.drop_succ_cons]
      rcases eq_or_ne s [] with rfl | hs
      · rfl
      · rw [ih hs]

theorem mem_of_mem_lines {s l : List α} (hl : l ∈ lines nl s) {x : α} (hx : x ∈ l) : x ∈ s := by
  induction hlen : s.length using Nat.strongRecOn generalizing s with
  | ind n ih =>
    rcases eq_or_ne s [] with rfl | hs
    · exact absurd hl List.not_mem_nil
    · have hpos := List.length_pos_iff.2 (firstLine_ne_nil nl hs)
      have hs' := List.length_pos_iff.2 hs
      rw [lines_cons hs] at hl
      rcases List.mem_cons.1 hl with rfl | hl
      · exact (isPrefix_firstLine s).subset hx
      · exact List.mem_of_mem_drop (ih _ (by rw [List.length_drop]; omega) hl rfl)

/-- The symbol that ends a line is its last one. -/
theorem firstLine_eq_or (nl : α) (s : List α) :
    nl ∉ firstLine nl s ∨ ∃ l, nl ∉ l ∧ firstLine nl s = l ++ [nl] := by
  induction s with
  | nil => exact .inl List.not_mem_nil
  | cons c s ih =>
    rw [firstLine]
    by_cases hc : c = nl
    · rw [if_pos hc]
      exact .inr ⟨[], List.not_mem_nil, by rw [hc]; rfl⟩
    · rw [if_neg hc]
      rcases ih with h | ⟨l, hl, h⟩
      · exact .inl (List.not_mem_cons_of_ne_of_not_mem (Ne.symm hc) h)
      · exact .inr ⟨c :: l, List.not_mem_cons_of_ne_of_not_mem (Ne.symm hc) hl, by rw [h]; rfl⟩

/-- A line that is not too long is got whole. -/
theorem fgets_eq_firstLine {s : List α} (h : ¬ Overlong nl room (firstLine nl s)) :
    fgets nl room s = firstLine nl s := by
  refine List.take_of_length_le ?_
  by_contra hlt
  refine h ⟨by omega, ?_⟩
  rcases firstLine_eq_or nl s with hno | ⟨l, hl, heq⟩
  · exact fun hmem => hno (List.mem_of_mem_take hmem)
  · rw [heq, List.length_append, List.length_singleton] at hlt
    rw [heq, List.take_append_of_le_length (by omega)]
    exact fun hmem => hl (List.mem_of_mem_take hmem)

/-- The piece of a line that is too long shows it. -/
theorem overlong_fgets {s : List α} (h : Overlong nl room (firstLine nl s)) :
    Overlong nl room (fgets nl room s) := by
  rw [fgets, Overlong, List.length_take, List.take_take, Nat.min_self]
  exact ⟨Nat.le_min.2 ⟨Nat.le_refl room, h.1⟩, h.2⟩

/-- **A buffer with room for every line gets the lines.** -/
theorem reads_eq_lines (hroom : 0 < room) {s : List α}
    (h : ∀ l ∈ lines nl s, ¬ Overlong nl room l) : reads nl room s = lines nl s := by
  induction hlen : s.length using Nat.strongRecOn generalizing s with
  | ind n ih =>
    rcases eq_or_ne s [] with rfl | hs
    · exact reads_nil
    · have hpos := length_fgets_pos nl hroom hs
      have hs' := List.length_pos_iff.2 hs
      rw [lines_cons hs, List.forall_mem_cons] at h
      rw [reads_cons hroom hs, lines_cons hs]
      rw [fgets_eq_firstLine h.1] at hpos ⊢
      rw [ih _ (by rw [List.length_drop]; omega) h.2 rfl]

/-- A line that is too long leaves a piece that shows it. -/
theorem exists_overlong_read (hroom : 0 < room) {s : List α}
    (h : ∃ l ∈ lines nl s, Overlong nl room l) : ∃ c ∈ reads nl room s, Overlong nl room c := by
  induction hlen : s.length using Nat.strongRecOn generalizing s with
  | ind n ih =>
    rcases eq_or_ne s [] with rfl | hs
    · obtain ⟨l, hl, -⟩ := h
      exact absurd hl List.not_mem_nil
    · rw [reads_cons hroom hs]
      by_cases hfirst : Overlong nl room (firstLine nl s)
      · exact ⟨_, List.mem_cons_self, overlong_fgets hfirst⟩
      · have hpos := length_fgets_pos nl hroom hs
        have hs' := List.length_pos_iff.2 hs
        rw [fgets_eq_firstLine hfirst] at hpos ⊢
        have hrest : ∃ l ∈ lines nl (s.drop (firstLine nl s).length), Overlong nl room l := by
          rw [lines_cons hs] at h
          simpa [hfirst] using h
        obtain ⟨c, hc, hover⟩ := ih _ (by rw [List.length_drop]; omega) hrest rfl
        exact ⟨c, List.mem_cons_of_mem _ hc, hover⟩

/-- **Giving up at a piece that fills the buffer is as good as seeing the lines.** -/
theorem forall_reads_iff (hroom : 0 < room) (s : List α) (P : List α → Prop) :
    (∀ c ∈ reads nl room s, ¬ Overlong nl room c ∧ P c) ↔
      ∀ l ∈ lines nl s, ¬ Overlong nl room l ∧ P l := by
  by_cases h : ∃ l ∈ lines nl s, Overlong nl room l
  · obtain ⟨c, hc, hover⟩ := exists_overlong_read hroom h
    obtain ⟨l, hl, hlong⟩ := h
    exact ⟨fun hall => absurd hover (hall c hc).1, fun hall => absurd hlong (hall l hl).1⟩
  · rw [reads_eq_lines hroom fun l hl hlong => h ⟨l, hl, hlong⟩]

/-- What a buffer can hold after a call: a piece ends no line but its own. -/
theorem piece_fgets (s : List α) :
    (fgets nl room s).length ≤ room ∧ nl ∉ (fgets nl room s).dropLast ∧
      ∀ x ∈ fgets nl room s, x ∈ s := by
  refine ⟨List.length_take_le _ _, ?_, ?_⟩
  · rcases firstLine_eq_or nl s with hno | ⟨l, hl, heq⟩
    · exact fun hmem => hno (List.mem_of_mem_take (List.mem_of_mem_dropLast hmem))
    · rw [fgets, heq]
      rcases Nat.lt_or_ge l.length room with hroom | hroom
      · rw [List.take_of_length_le (by rw [List.length_append, List.length_singleton]; omega),
          List.dropLast_concat]
        exact hl
      · rw [List.take_append_of_le_length hroom]
        exact fun hmem => hl (List.mem_of_mem_take (List.mem_of_mem_dropLast hmem))
  · exact fun x hx => (isPrefix_firstLine s).subset (List.mem_of_mem_take hx)

theorem piece_of_mem_reads {s c : List α} (h : c ∈ reads nl room s) :
    c.length ≤ room ∧ nl ∉ c.dropLast ∧ ∀ x ∈ c, x ∈ s := by
  induction hlen : s.length using Nat.strongRecOn generalizing s with
  | ind n ih =>
    by_cases hs : s ≠ [] ∧ 0 < room
    · have hpos := length_fgets_pos nl hs.2 hs.1
      have hs' := List.length_pos_iff.2 hs.1
      rw [reads_cons hs.2 hs.1] at h
      rcases List.mem_cons.1 h with rfl | h
      · exact piece_fgets s
      · obtain ⟨hroom, hnl, hsub⟩ := ih _ (by rw [List.length_drop]; omega) h rfl
        exact ⟨hroom, hnl, fun x hx => List.mem_of_mem_drop (hsub x hx)⟩
    · rw [reads, dif_neg hs] at h
      exact absurd h List.not_mem_nil

/-! ## Lines that have been written -/

theorem lines_line_append {l : List α} (h : nl ∉ l) (s : List α) :
    lines nl (l ++ nl :: s) = (l ++ [nl]) :: lines nl s := by
  induction l with
  | nil =>
    show lines nl (nl :: s) = [nl] :: lines nl s
    rw [lines, if_pos rfl]
  | cons c l ih =>
    obtain ⟨hc, hl⟩ := not_or.1 (mt List.mem_cons.2 h)
    show lines nl (c :: (l ++ nl :: s)) = (c :: l ++ [nl]) :: lines nl s
    rw [lines, if_neg (Ne.symm hc), ih hl]
    rfl

/-- **Lines that are written one after the other can be read back.** -/
theorem lines_flatMap {β : Type*} (text : β → List α) (items : List β)
    (h : ∀ b ∈ items, nl ∉ text b) :
    lines nl (items.flatMap fun b => text b ++ [nl]) = items.map fun b => text b ++ [nl] := by
  induction items with
  | nil => rfl
  | cons b items ih =>
    rw [List.forall_mem_cons] at h
    rw [List.flatMap_cons, List.append_assoc, List.singleton_append, lines_line_append h.1,
      ih h.2, List.map_cons]

omit [DecidableEq α] in
theorem not_overlong_append {l : List α} (h : l.length < room) :
    ¬ Overlong nl room (l ++ [nl]) := by
  rintro ⟨-, hnl⟩
  rw [List.take_of_length_le (by rw [List.length_append, List.length_singleton]; omega)] at hnl
  exact hnl (List.mem_append_right l (List.mem_singleton_self nl))

end Reading

/-! ## The blanks around a text -/

variable {blank : α → Bool}

/-- No blank at either end. -/
def Bare (blank : α → Bool) (s : List α) : Prop :=
  (∀ c ∈ s.head?, blank c = false) ∧ ∀ c ∈ s.getLast?, blank c = false

/-- A text without the blanks around it. -/
def strip (blank : α → Bool) (s : List α) : List α := (s.dropWhile blank).rdropWhile blank

theorem isInfix_strip (s : List α) : strip blank s <:+: s :=
  (List.rdropWhile_prefix blank (s.dropWhile blank)).isInfix.trans
    (List.dropWhile_suffix blank).isInfix

theorem mem_of_mem_strip {s : List α} {c : α} (h : c ∈ strip blank s) : c ∈ s :=
  (isInfix_strip s).subset h

theorem bare_strip (s : List α) : Bare blank (strip blank s) := by
  rw [strip]
  constructor
  · intro c hc
    have hhead := List.head?_dropWhile_not blank s
    obtain ⟨r, hr⟩ := List.rdropWhile_prefix blank (s.dropWhile blank)
    rw [← hr, List.head?_append, Option.mem_def.1 hc] at hhead
    simpa using hhead
  · intro c hc
    have hne : (s.dropWhile blank).rdropWhile blank ≠ [] := by
      rintro hnil
      simp [hnil] at hc
    have hlast := List.rdropWhile_last_not blank _ hne
    rw [List.getLast?_eq_some_getLast hne, Option.mem_some_iff] at hc
    rwa [hc, Bool.not_eq_true] at hlast

theorem Bare.dropWhile_eq {s : List α} (h : Bare blank s) : s.dropWhile blank = s := by
  cases s with
  | nil => rfl
  | cons c s => exact List.dropWhile_cons_of_neg (by simp [h.1 c rfl])

theorem Bare.strip_eq {s : List α} (h : Bare blank s) : strip blank s = s := by
  rw [strip, h.dropWhile_eq, List.rdropWhile_eq_self_iff]
  intro hne
  rw [h.2 _ (List.getLast?_eq_some_getLast hne)]
  exact Bool.false_ne_true

theorem rdropWhile_append_of_forall {s t : List α} (h : ∀ c ∈ t, blank c = true) :
    (s ++ t).rdropWhile blank = s.rdropWhile blank := by
  rw [List.rdropWhile, List.reverse_append,
    List.dropWhile_append_of_pos fun c hc => h c (List.mem_reverse.1 hc)]
  rfl

theorem strip_append_of_forall {s t : List α} (h : ∀ c ∈ t, blank c = true) :
    strip blank (s ++ t) = strip blank s := by
  rw [strip, strip, List.dropWhile_append]
  split
  case isTrue hempty =>
    rw [List.isEmpty_iff.1 hempty, (List.dropWhile_eq_nil_iff).2 h]
  case isFalse => exact rdropWhile_append_of_forall h

theorem strip_append_left {s t : List α} (h : ∀ c ∈ s, blank c = true) :
    strip blank (s ++ t) = strip blank t := by
  rw [strip, strip, List.dropWhile_append_of_pos h]

/-- **Blanks around a text that has none at its ends.** -/
theorem Bare.strip_append {before s after : List α} (h : Bare blank s)
    (hbefore : ∀ c ∈ before, blank c = true) (hafter : ∀ c ∈ after, blank c = true) :
    strip blank (before ++ s ++ after) = s := by
  rw [strip_append_of_forall hafter, strip_append_left hbefore, h.strip_eq]

end Lines
