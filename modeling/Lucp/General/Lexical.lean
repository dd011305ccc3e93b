import Mathlib.Data.List.Infix
import Mathlib.Data.List.TakeWhile

/-!
# Paths as text

A path is written as its names with a separator in front of each; the empty path is the separator
alone.  This file is about the passage between the two forms.

## What is here

* `Lexical.below`, `Lexical.text` — names as text.
* `Lexical.below_append_eq` — **text can be read back**: if text that is cut behind a name continues
  the text of `ps` to the text of `qs`, then it is the text of the names by which `qs` is longer.
* `Lexical.Continues`, `Lexical.Inside` — one text is another one, or continues it with a separator;
  `inside_text` says that on paths this is the prefix relation of the names, which the prefix
  relation of the texts is not.
* `Lexical.components` — the names that stand in a text; `components_below` gets them back.
-/

set_option autoImplicit false

universe u

namespace Lexical

variable {α : Type u} {sep : α}

/-- A name: not empty, and without separators. -/
def IsName (sep : α) (n : List α) : Prop := n ≠ [] ∧ sep ∉ n

/-- Names, with a separator in front of each. -/
def below (sep : α) (names : List (List α)) : List α := names.flatMap (sep :: ·)

/-- The text of a path. -/
def text (sep : α) (names : List (List α)) : List α :=
  if names = [] then [sep] else below sep names

/-- Text that may follow a name without becoming part of it. -/
def Cut (sep : α) (s : List α) : Prop := ∀ x ∈ s.head?, x = sep

/-- `t` is `r`, or continues it with a separator. -/
def Continues (sep : α) (r t : List α) : Prop := t = r ∨ r ++ [sep] <+: t

/-- `t` continues `r`; everything that starts with a separator is inside the separator alone. -/
def Inside (sep : α) (r t : List α) : Prop := Continues sep r t ∨ (r = [sep] ∧ [sep] <+: t)

/-! ## Names as text -/

@[simp] theorem below_nil : below sep [] = [] := rfl

@[simp] theorem below_cons (n : List α) (names : List (List α)) :
    below sep (n :: names) = sep :: (n ++ below sep names) := rfl

@[simp] theorem below_append (ps qs : List (List α)) :
    below sep (ps ++ qs) = below sep ps ++ below sep qs :=
  List.flatMap_append

@[simp] theorem text_nil : text sep [] = [sep] := rfl

@[simp] theorem text_cons (n : List α) (names : List (List α)) :
    text sep (n :: names) = sep :: (n ++ below sep names) := rfl

theorem text_of_ne_nil {names : List (List α)} (h : names ≠ []) :
    text sep names = below sep names := if_neg h

theorem cut_nil : Cut sep [] := by simp [Cut]

theorem cut_cons (s : List α) : Cut sep (sep :: s) := by simp [Cut]

theorem cut_below (names : List (List α)) : Cut sep (below sep names) := by
  cases names with
  | nil => exact cut_nil
  | cons n names => exact cut_cons _

theorem length_le_length_below {names : List (List α)} (h : ∀ n ∈ names, IsName sep n) :
    2 * names.length ≤ (below sep names).length := by
  induction names with
  | nil => simp
  | cons n names ih =>
    have hn : 0 < n.length := List.length_pos_iff.2 (h n (by simp)).1
    have := ih fun m hm => h m (by simp [hm])
    simp only [below_cons, List.length_cons, List.length_append]
    omega

/-- A path of at least one name is longer than the separator. -/
theorem one_lt_length_below {names : List (List α)} (h : ∀ n ∈ names, IsName sep n)
    (hne : names ≠ []) : 1 < (below sep names).length := by
  have := length_le_length_below h
  have : 0 < names.length := List.length_pos_iff.2 hne
  omega

/-! ## Reading text back -/

/-- Where two texts agree that start with a name and are cut behind it, the names agree. -/
theorem name_append_inj {p q a b : List α} (hp : sep ∉ p) (hq : sep ∉ q) (ha : Cut sep a)
    (hb : Cut sep b) (h : p ++ a = q ++ b) : p = q ∧ a = b := by
  induction p generalizing q with
  | nil =>
    cases q with
    | nil => exact ⟨rfl, h⟩
    | cons x q =>
      have hx : x = sep := ha x (by simpa using congrArg List.head? h)
      simp [hx] at hq
  | cons y p ih =>
    cases q with
    | nil =>
      have hy : y = sep := hb y (by simpa using (congrArg List.head? h).symm)
      simp [hy] at hp
    | cons x q =>
      simp only [List.cons_append, List.cons.injEq] at h
      obtain ⟨rfl, rfl⟩ := ih (by simp_all) (by simp_all) h.2
      exact ⟨by rw [h.1], rfl⟩

/-- **Text can be read back.** -/
theorem below_append_eq {ps qs : List (List α)} {rest : List α} (hps : ∀ n ∈ ps, IsName sep n)
    (hqs : ∀ n ∈ qs, IsName sep n) (hrest : Cut sep rest)
    (h : below sep ps ++ rest = below sep qs) : ∃ zs, qs = ps ++ zs ∧ rest = below sep zs := by
  induction ps generalizing qs with
  | nil => exact ⟨qs, rfl, h⟩
  | cons p ps ih =>
    cases qs with
    | nil => simp at h
    | cons q qs =>
      simp only [below_cons, List.cons_append, List.append_assoc, List.cons.injEq, true_and] at h
      have hcut : Cut sep (below sep ps ++ rest) := by
        cases ps with
        | nil => exact hrest
        | cons p' ps => exact cut_cons _
      obtain ⟨rfl, htail⟩ := name_append_inj (hps p (by simp)).2 (hqs q (by simp)).2 hcut
        (cut_below qs) h
      obtain ⟨zs, rfl, hz⟩ := ih (fun n hn => hps n (by simp [hn]))
        (fun n hn => hqs n (by simp [hn])) htail
      exact ⟨zs, rfl, hz⟩

theorem continues_below {ps qs : List (List α)} (hps : ∀ n ∈ ps, IsName sep n)
    (hqs : ∀ n ∈ qs, IsName sep n) : Continues sep (below sep ps) (below sep qs) ↔ ps <+: qs := by
  constructor
  · rintro (h | ⟨t, h⟩)
    · obtain ⟨zs, hz, -⟩ := below_append_eq hps hqs cut_nil (by simpa using h.symm)
      exact ⟨zs, hz.symm⟩
    · obtain ⟨zs, hz, -⟩ := below_append_eq hps hqs (cut_cons t) (by simpa using h)
      exact ⟨zs, hz.symm⟩
  · rintro ⟨zs, rfl⟩
    cases zs with
    | nil => exact .inl (by simp)
    | cons z zs => exact .inr ⟨z ++ below sep zs, by simp⟩

/-- Continuing a path means to be below it, except that nothing continues the separator alone. -/
theorem continues_text {ps qs : List (List α)} (hps : ∀ n ∈ ps, IsName sep n)
    (hqs : ∀ n ∈ qs, IsName sep n) :
    Continues sep (text sep ps) (text sep qs) ↔ ps <+: qs ∧ (ps = [] → qs = []) := by
  by_cases hq : qs = []
  · subst hq
    by_cases hp : ps = []
    · simp [hp, Continues]
    · have hlong := one_lt_length_below hps hp
      have hne : ¬ Continues sep (below sep ps) [sep] := by
        rintro (h | h)
        · simp [← h] at hlong
        · have := h.length_le
          simp only [List.length_append, List.length_singleton] at this
          omega
      simp [text_of_ne_nil hp, hne, hp]
  · by_cases hp : ps = []
    · subst hp
      obtain ⟨q, qs, rfl⟩ := List.exists_cons_of_ne_nil hq
      obtain ⟨x, q, rfl⟩ := List.exists_cons_of_ne_nil (hqs q (by simp)).1
      have hx : sep ≠ x := by
        rintro rfl
        exact (hqs (sep :: q) (by simp)).2 (by simp)
      simp [Continues, hx]
    · simp [text_of_ne_nil hp, text_of_ne_nil hq, continues_below hps hqs, hp]

/-- **Being inside is a prefix relation of names.** -/
theorem inside_text {ps qs : List (List α)} (hps : ∀ n ∈ ps, IsName sep n)
    (hqs : ∀ n ∈ qs, IsName sep n) : Inside sep (text sep ps) (text sep qs) ↔ ps <+: qs := by
  rw [Inside, continues_text hps hqs]
  by_cases hp : ps = []
  · subst hp
    have hsep : [sep] <+: text sep qs := by
      cases qs with
      | nil => simp
      | cons q qs => exact ⟨q ++ below sep qs, rfl⟩
    simp [hsep]
  · have hne : below sep ps ≠ [sep] := by
      intro h
      simpa [h] using one_lt_length_below hps hp
    simp [text_of_ne_nil hp, hne, hp]

theorem Inside.isPrefix {r t : List α} (h : Inside sep r t) : r <+: t := by
  rcases h with (rfl | h) | ⟨rfl, h⟩
  · exact List.prefix_rfl
  · exact (List.prefix_append r [sep]).trans h
  · exact h

/-- The test of a prefix and of the symbol behind it. -/
theorem continues_iff {r t : List α} :
    Continues sep r t ↔ r <+: t ∧ ¬ (r.length < t.length ∧ t[r.length]? ≠ some sep) := by
  constructor
  · rintro (rfl | ⟨u, rfl⟩)
    · simp
    · simp
  · rintro ⟨⟨u, rfl⟩, h⟩
    cases u with
    | nil => exact .inl (by simp)
    | cons x u =>
      obtain rfl : x = sep := by simpa using h
      exact .inr ⟨u, by simp⟩

theorem text_injective {ps qs : List (List α)} (hps : ∀ n ∈ ps, IsName sep n)
    (hqs : ∀ n ∈ qs, IsName sep n) (h : text sep ps = text sep qs) : ps = qs := by
  have h1 : ps <+: qs := (inside_text hps hqs).1 (.inl (.inl h.symm))
  have h2 : qs <+: ps := (inside_text hqs hps).1 (.inl (.inl h))
  exact h1.eq_of_length_le h2.length_le

/-- A path other than the separator alone does not end with a separator. -/
theorem getLast?_text {names : List (List α)} (h : ∀ n ∈ names, IsName sep n) (hne : names ≠ []) :
    (text sep names).getLast? ≠ some sep := by
  have hmem := List.getLast_mem hne
  obtain ⟨hlast, hsep⟩ := h _ hmem
  rw [text_of_ne_nil hne, ← List.dropLast_append_getLast hne, below_append, below_cons, below_nil,
    List.append_nil, List.getLast?_append, List.getLast?_cons,
    List.getLast?_eq_some_getLast hlast]
  intro heq
  have heq : (names.getLast hne).getLast hlast = sep := by simpa using heq
  exact hsep (heq ▸ List.getLast_mem hlast)

/-! ## The names in a text -/

section Components

variable [DecidableEq α]

/-- The names in a text: the stretches between separators that are not empty. -/
def components (sep : α) (s : List α) : List (List α) := (s.splitOn sep).filter (· ≠ [])

@[simp] theorem components_nil : components sep ([] : List α) = [] := by simp [components]

@[simp] theorem components_sep_cons (s : List α) :
    components sep (sep :: s) = components sep s := by
  simp [components, List.splitOn_cons_eq_if_modifyHead]

theorem components_name_append {n s : List α} (hn : IsName sep n) (hs : Cut sep s) :
    components sep (n ++ s) = n :: components sep s := by
  have hfalse : ∀ x ∈ n, (x == sep) = false := by
    intro x hx
    refine beq_eq_false_iff_ne.2 ?_
    rintro rfl
    exact hn.2 hx
  cases s with
  | nil => simp [components, List.splitOn_eq_singleton hn.2, hn.1]
  | cons x s =>
    obtain rfl : x = sep := hs x (by simp)
    simp [components, List.splitOn_eq_splitOnP, List.splitOnP_cons_eq_if_modifyHead,
      List.splitOnP_append_cons_of_forall_mem hfalse x (by simp), hn.1]

/-- Separators in front do not matter. -/
theorem components_dropWhile (s : List α) :
    components sep (s.dropWhile (· = sep)) = components sep s := by
  induction s with
  | nil => rfl
  | cons x s ih =>
    by_cases hx : x = sep
    · subst hx; simp [ih]
    · simp [hx]

theorem cut_dropWhile (s : List α) : Cut sep (s.dropWhile (· ≠ sep)) := by
  intro x hx
  have h := List.head?_dropWhile_not (· ≠ sep) s
  rw [Option.mem_def.1 hx] at h
  simpa using h

/-- A text that does not start with a separator starts with its first name. -/
theorem components_cons {x : α} {s : List α} (hx : x ≠ sep) :
    components sep (x :: s)
      = (x :: s).takeWhile (· ≠ sep) :: components sep (((x :: s).dropWhile (· ≠ sep)).drop 1) := by
  have hname : IsName sep ((x :: s).takeWhile (· ≠ sep)) := by
    refine ⟨by simp [hx], fun h => ?_⟩
    simpa using List.mem_takeWhile_imp h
  have hcut : Cut sep ((x :: s).dropWhile (· ≠ sep)) := cut_dropWhile (x :: s)
  conv_lhs => rw [← List.takeWhile_append_dropWhile (p := (· ≠ sep)) (l := x :: s)]
  rw [components_name_append hname hcut]
  cases hrest : (x :: s).dropWhile (· ≠ sep) with
  | nil => rfl
  | cons y rest =>
    obtain rfl : y = sep := hcut y (by rw [hrest]; rfl)
    simp

theorem components_below_append {names : List (List α)} {rest : List α}
    (h : ∀ n ∈ names, IsName sep n) (hrest : Cut sep rest) :
    components sep (below sep names ++ rest) = names ++ components sep rest := by
  induction names with
  | nil => simp
  | cons n names ih =>
    have hcut : Cut sep (below sep names ++ rest) := by
      cases names with
      | nil => simpa using hrest
      | cons m names => exact cut_cons _
    rw [below_cons, List.cons_append, components_sep_cons, List.append_assoc,
      components_name_append (h n (by simp)) hcut, ih fun m hm => h m (by simp [hm]),
      List.cons_append]

/-- The names of a path stand in its text. -/
theorem components_below {names : List (List α)} (h : ∀ n ∈ names, IsName sep n) :
    components sep (below sep names) = names := by
  simpa using components_below_append h cut_nil

theorem components_text {names : List (List α)} (h : ∀ n ∈ names, IsName sep n) :
    components sep (text sep names) = names := by
  by_cases hne : names = []
  · subst hne; simp
  · rw [text_of_ne_nil hne, components_below h]

/-- The names of a text do not need more room than they have there, but for one separator. -/
theorem length_below_components (s : List α) :
    (below sep (components sep s)).length ≤ s.length + 1 := by
  induction hlen : s.length using Nat.strongRecOn generalizing s with
  | ind n ih =>
    cases s with
    | nil => simp
    | cons x s =>
      by_cases hx : x = sep
      · subst hx
        have := ih s.length (by simp [← hlen]) s rfl
        rw [components_sep_cons, ← hlen, List.length_cons]
        omega
      · rw [components_cons hx, below_cons, List.length_cons, List.length_append]
        have hsum := congrArg List.length
          (List.takeWhile_append_dropWhile (p := (· ≠ sep)) (l := x :: s))
        rw [List.length_append, hlen] at hsum
        cases hrest : (x :: s).dropWhile (· ≠ sep) with
        | nil =>
          rw [hrest] at hsum
          simp only [List.drop_nil, components_nil, below_nil, List.length_nil] at hsum ⊢
          omega
        | cons y rest =>
          rw [hrest, List.length_cons] at hsum
          have := ih rest.length (by omega) rest rfl
          rw [List.drop_one, List.tail_cons]
          omega

/-- What stands between separators is a name. -/
theorem isName_of_mem_components {s n : List α} (h : n ∈ components sep s) : IsName sep n := by
  obtain ⟨hmem, hne⟩ := List.mem_filter.1 h
  refine ⟨by simpa using hne, ?_⟩
  have hall : ∀ n ∈ s.splitOn sep, sep ∉ n := by
    clear hmem hne h
    induction s with
    | nil => simp
    | cons x s ih =>
      rw [List.splitOn_cons_eq_if_modifyHead]
      by_cases hx : x = sep
      · simpa [hx] using ih
      · obtain ⟨m, ms, hms⟩ := List.exists_cons_of_ne_nil (List.splitOn_ne_nil sep s)
        simp only [hms, List.mem_cons, forall_eq_or_imp] at ih
        simp [hms, hx, ih.1, Ne.symm hx]
        exact ih.2
  exact hall n hmem

end Components

end Lexical
