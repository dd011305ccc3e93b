import Mathlib.Data.List.FinRange
import Mathlib.Data.List.Perm.Basic
import Mathlib.Data.List.Basic
import Mathlib.Data.List.Nodup

/-!
# Hash tables with chains

The plainest hash table is one list for each value of the hash, with new entries in front.  Nothing
ties the hash to the comparison by which entries are looked for: a lookup walks one chain, so an
entry that compares equal but hashes differently is not met.  This file says what such a table is,
over arbitrary entries, in terms of the list of its insertions.

## What is here

* `Chained.push`, `Chained.pushAll` — an entry put in front of its chain, and a list of them.
* `Chained.find?_pushAll` — **a lookup is a search of the insertions, newest first**, among those
  with the hash it was given.
* `Chained.entries`, `Chained.entries_pushAll_perm` — a walk over the whole table meets each
  insertion once.
* `Chained.collect`, `Chained.collectAll` — entries put in unless their chain has one like them;
  `Chained.collected_collectAll` says what then stands in the table, and that a walk over it meets
  nothing twice (`Chained.Collected.nodup_entries`).
-/

set_option autoImplicit false

universe u

/-- One chain for each value of a hash. -/
abbrev Chained (n : ℕ) (ε : Type u) := Fin n → List ε

namespace Chained

variable {n : ℕ} {ε : Type u}

/-- The table without entries. -/
def empty : Chained n ε := fun _ => []

/-- An entry in front of chain `i`. -/
def push (t : Chained n ε) (i : Fin n) (e : ε) : Chained n ε := Function.update t i (e :: t i)

/-- The entries, as a walk over the chains meets them. -/
def entries (t : Chained n ε) : List ε := (List.finRange n).flatMap t

/-- Entries put in one after the other, each into its chain. -/
def pushAll (bucket : ε → Fin n) (t : Chained n ε) (es : List ε) : Chained n ε :=
  es.foldl (fun t e => t.push (bucket e) e) t

/-- Every entry stands in its chain. -/
def Placed (bucket : ε → Fin n) (t : Chained n ε) : Prop := ∀ i, ∀ e ∈ t i, bucket e = i

@[simp] theorem push_self (t : Chained n ε) (i : Fin n) (e : ε) : t.push i e i = e :: t i :=
  Function.update_self i _ t

theorem push_of_ne (t : Chained n ε) {i j : Fin n} (e : ε) (h : j ≠ i) : t.push i e j = t j :=
  Function.update_of_ne h _ t

theorem mem_push {t : Chained n ε} {i j : Fin n} {e f : ε} :
    f ∈ t.push i e j ↔ (j = i ∧ f = e) ∨ f ∈ t j := by
  rcases eq_or_ne j i with rfl | h
  · rw [push_self, List.mem_cons]
    simp
  · rw [push_of_ne t e h]
    simp [h]

theorem mem_entries {t : Chained n ε} {e : ε} : e ∈ t.entries ↔ ∃ i, e ∈ t i := by
  simp [entries]

theorem Placed.mem_entries {bucket : ε → Fin n} {t : Chained n ε} (h : Placed bucket t) {e : ε} :
    e ∈ t.entries ↔ e ∈ t (bucket e) := by
  refine Chained.mem_entries.trans ⟨?_, fun he => ⟨_, he⟩⟩
  rintro ⟨i, hi⟩
  rwa [h i e hi]

theorem placed_empty (bucket : ε → Fin n) : Placed bucket empty := by
  intro i e he
  exact absurd he List.not_mem_nil

theorem Placed.push {bucket : ε → Fin n} {t : Chained n ε} (h : Placed bucket t) (e : ε) :
    Placed bucket (t.push (bucket e) e) := by
  intro i f hf
  rcases mem_push.1 hf with ⟨rfl, rfl⟩ | hf
  · rfl
  · exact h i f hf

/-! ## The chains as a list of insertions -/

@[simp] theorem pushAll_nil (bucket : ε → Fin n) (t : Chained n ε) : pushAll bucket t [] = t := rfl

@[simp] theorem pushAll_cons (bucket : ε → Fin n) (t : Chained n ε) (e : ε) (es : List ε) :
    pushAll bucket t (e :: es) = pushAll bucket (t.push (bucket e) e) es := rfl

/-- **A chain holds its insertions, newest first.** -/
theorem pushAll_apply (bucket : ε → Fin n) (t : Chained n ε) (es : List ε) (i : Fin n) :
    pushAll bucket t es i = es.reverse.filter (fun e => bucket e = i) ++ t i := by
  induction es generalizing t with
  | nil => rfl
  | cons e es ih =>
    rw [pushAll_cons, ih, List.reverse_cons, List.filter_append, List.append_assoc]
    rcases eq_or_ne i (bucket e) with rfl | h
    · simp
    · rw [push_of_ne t e h]
      simp [h.symm]

theorem Placed.pushAll {bucket : ε → Fin n} {t : Chained n ε} (h : Placed bucket t)
    (es : List ε) : Placed bucket (pushAll bucket t es) := by
  induction es generalizing t with
  | nil => exact h
  | cons e es ih => exact ih (h.push e)

/-- **A lookup is a search of the insertions, newest first**, among those of its chain. -/
theorem find?_pushAll (bucket : ε → Fin n) (es : List ε) (i : Fin n) (p : ε → Bool) :
    (pushAll bucket empty es i).find? p = es.reverse.find? fun e => bucket e = i && p e := by
  rw [pushAll_apply]
  show (_ ++ []).find? p = _
  rw [List.append_nil, List.find?_filter]
  simp only [Bool.decide_and, Bool.decide_eq_true]

theorem entries_push_perm (t : Chained n ε) (i : Fin n) (e : ε) :
    (t.push i e).entries.Perm (e :: t.entries) := by
  obtain ⟨l, r, hsplit⟩ := List.append_of_mem (List.mem_finRange i)
  have hnodup : (l ++ i :: r).Nodup := hsplit ▸ List.nodup_finRange n
  have hi : i ∉ l ++ r := (List.nodup_middle.1 hnodup).notMem
  have hsame : ∀ js : List (Fin n), i ∉ js → js.flatMap (t.push i e) = js.flatMap t := by
    intro js hjs
    refine List.flatMap_congr fun j hj => push_of_ne t e ?_
    rintro rfl
    exact hjs hj
  rw [entries, entries, hsplit, List.flatMap_append, List.flatMap_append, List.flatMap_cons,
    List.flatMap_cons, push_self, hsame l fun h => hi (List.mem_append_left r h),
    hsame r fun h => hi (List.mem_append_right l h)]
  exact List.perm_middle

/-- **A walk over the table meets each insertion once.** -/
theorem entries_pushAll_perm (bucket : ε → Fin n) (es : List ε) :
    (pushAll bucket empty es).entries.Perm es := by
  have hgen : ∀ t : Chained n ε, (pushAll bucket t es).entries.Perm (es ++ t.entries) := by
    induction es with
    | nil => exact fun t => List.Perm.refl _
    | cons e es ih =>
      intro t
      refine (ih _).trans (((entries_push_perm t (bucket e) e).append_left es).trans ?_)
      exact List.perm_middle
  have hempty : (empty : Chained n ε).entries = [] := by simp [entries, empty]
  simpa [hempty] using hgen empty

/-! ## Entries without repeats -/

/-- An entry in front of its chain, unless one like it stands there. -/
def collect (bucket : ε → Fin n) (same : ε → ε → Bool) (t : Chained n ε) (e : ε) : Chained n ε :=
  if (t (bucket e)).any (same · e) then t else t.push (bucket e) e

/-- A list of entries, collected into the empty table. -/
def collectAll (bucket : ε → Fin n) (same : ε → ε → Bool) (es : List ε) : Chained n ε :=
  es.foldl (collect bucket same) empty

/-- What stands in a table once `es` have been collected into it. -/
structure Collected (bucket : ε → Fin n) (same : ε → ε → Bool) (es : List ε) (t : Chained n ε) :
    Prop where
  /-- Every entry stands in its chain. -/
  placed : Placed bucket t
  /-- Every entry is one of them. -/
  sound : ∀ i, ∀ e ∈ t i, e ∈ es
  /-- Each of them has one like it in its chain. -/
  complete : ∀ e ∈ es, ∃ f ∈ t (bucket e), same f e = true
  /-- No entry of a chain is like one behind it. -/
  distinct : ∀ i, (t i).Pairwise fun f e => same e f = false

section Collect

variable {bucket : ε → Fin n} {same : ε → ε → Bool}

theorem collected_empty : Collected bucket same [] empty where
  placed := placed_empty bucket
  sound _ _ he := he
  complete _ he := absurd he List.not_mem_nil
  distinct _ := List.Pairwise.nil

/-- **One more entry.** -/
theorem Collected.collect (hrefl : ∀ e, same e e = true) {es : List ε} {t : Chained n ε}
    (h : Collected bucket same es t) (e : ε) :
    Collected bucket same (es ++ [e]) (collect bucket same t e) := by
  rw [Chained.collect]
  split
  case isTrue hany =>
    refine ⟨h.placed, fun i f hf => List.mem_append_left _ (h.sound i f hf), ?_, h.distinct⟩
    intro f hf
    rcases List.mem_append.1 hf with hf | hf
    · exact h.complete f hf
    · rw [List.mem_singleton.1 hf]
      exact List.any_eq_true.1 hany
  case isFalse hnone =>
    have hnew : ∀ f ∈ t (bucket e), same f e = false := by
      intro f hf
      rw [← Bool.not_eq_true]
      exact fun hsame => hnone (List.any_eq_true.2 ⟨f, hf, hsame⟩)
    refine ⟨h.placed.push e, ?_, ?_, ?_⟩
    · intro i f hf
      rcases mem_push.1 hf with ⟨-, rfl⟩ | hf
      · exact List.mem_append_right _ (List.mem_singleton_self f)
      · exact List.mem_append_left _ (h.sound i f hf)
    · intro f hf
      rcases List.mem_append.1 hf with hf | hf
      · obtain ⟨g, hg, hsame⟩ := h.complete f hf
        exact ⟨g, mem_push.2 (.inr hg), hsame⟩
      · rw [List.mem_singleton.1 hf]
        exact ⟨e, mem_push.2 (.inl ⟨rfl, rfl⟩), hrefl e⟩
    · intro i
      rcases eq_or_ne i (bucket e) with rfl | hi
      · rw [push_self, List.pairwise_cons]
        exact ⟨hnew, h.distinct _⟩
      · rw [push_of_ne t e hi]
        exact h.distinct i

/-- **What a table holds after all of them.** -/
theorem collected_collectAll (hrefl : ∀ e, same e e = true) (es : List ε) :
    Collected bucket same es (collectAll bucket same es) := by
  have hgen : ∀ (fs : List ε) (t : Chained n ε), Collected bucket same fs t →
      Collected bucket same (fs ++ es) (es.foldl (Chained.collect bucket same) t) := by
    induction es with
    | nil =>
      intro fs t h
      rwa [List.append_nil]
    | cons e es ih =>
      intro fs t h
      rw [List.append_cons]
      exact ih _ _ (h.collect hrefl e)
  exact hgen [] empty collected_empty

/-- No two entries of the table have the same hash and are alike. -/
theorem Collected.pairwise_entries {es : List ε} {t : Chained n ε}
    (h : Collected bucket same es t) :
    t.entries.Pairwise fun f e => bucket f = bucket e → same e f = false := by
  rw [entries, List.pairwise_flatMap]
  refine ⟨fun i _ => (h.distinct i).imp fun {f e} hfe => ?_, ?_⟩
  · exact fun _ => hfe
  · refine (List.nodup_finRange n).imp ?_
    intro i j hij f hf e he heq
    rw [h.placed i f hf, h.placed j e he] at heq
    exact absurd heq hij

theorem Collected.nodup_entries (hrefl : ∀ e, same e e = true) {es : List ε} {t : Chained n ε}
    (h : Collected bucket same es t) : t.entries.Nodup := by
  refine h.pairwise_entries.imp fun {f e} hfe => ?_
  rintro rfl
  exact absurd (hrefl f) (by simp [hfe rfl])

end Collect

end Chained
