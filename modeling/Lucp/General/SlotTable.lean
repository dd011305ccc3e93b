import Mathlib.Data.List.Basic
import Mathlib.Data.List.Induction
import Mathlib.Algebra.Order.Group.Int
import Mathlib.Algebra.Order.Monoid.Defs

/-!
# A limiter that remembers one key per slot

A rate limiter that keeps one memory per key needs as much memory as there are keys.  The usual
saving is a table of fixed size: a key goes to the slot its hash names, the slot remembers the last
key it let through and when, and whoever finds another key there overwrites it.  This file is about
that table over arbitrary keys, slots and times.

## What is here

* `Request`, `History` — a call (who, when), and the calls so far with their answers, oldest first.
* `SlotTable.check`, `SlotTable.run` — one call on the table, and a sequence of calls.
* `SlotTable.Recalls` — what a table remembers of the history behind it, kept by every call
  (`SlotTable.Recalls.check`).
* `SlotTable.exists_of_refused` — **the table is never too strict**: a refusal has an admitted call
  for the same key, less than a period ago, behind it.
* `pace` — the limiter with one memory per key, and `Spaced`, what a limiter is for.
* `SlotTable.spaced_run_iff` — **when the table is strict enough**: on a clock that does not run
  backwards, the admitted calls of every key are a period apart exactly if no admitted call is
  followed by one for another key in its slot and, within the period, by one for its own key.
-/

set_option autoImplicit false

universe u v w

/-- One call of a limiter. -/
structure Request (κ : Type u) (τ : Type w) where
  /-- Who asks. -/
  key : κ
  /-- When. -/
  time : τ
  deriving DecidableEq

/-- Calls with their answers, oldest first. -/
abbrev History (κ : Type u) (τ : Type w) := List (Request κ τ × Bool)

/-- What each slot remembers: a key and the time it was last let through. -/
abbrev SlotTable (κ : Type u) (σ : Type v) (τ : Type w) := σ → Option (κ × τ)

variable {κ : Type u} {σ : Type v} {τ : Type w} [LinearOrder τ] [Add τ]

/-! ## What a limiter is for -/

/-- Admitted calls for the same key are at least `period` apart. -/
def Spaced (period : τ) (h : History κ τ) : Prop :=
  h.Pairwise fun d e => d.2 = true → e.2 = true → d.1.key = e.1.key →
    d.1.time + period ≤ e.1.time

instance [DecidableEq κ] (period : τ) (h : History κ τ) : Decidable (Spaced period h) :=
  inferInstanceAs (Decidable (List.Pairwise _ h))

theorem spaced_snoc_iff {period : τ} {h : History κ τ} {c : Request κ τ} {v : Bool} :
    Spaced period (h ++ [(c, v)]) ↔ Spaced period h ∧
      (v = true → ∀ d ∈ h, d.2 = true → d.1.key = c.key → d.1.time + period ≤ c.time) := by
  simp only [Spaced, List.pairwise_append, List.pairwise_singleton, List.mem_singleton, true_and,
    forall_eq]
  refine and_congr_right fun _ => ⟨fun hp hv d hd hd2 => hp d hd hd2 hv, fun hp d hd hd2 hv => ?_⟩
  exact hp hv d hd hd2

/-- Whether no admitted call of the history is in the way of `c`. -/
def grants [DecidableEq κ] (period : τ) (h : History κ τ) (c : Request κ τ) : Bool :=
  h.all fun d => decide (d.2 = true → d.1.key = c.key → d.1.time + period ≤ c.time)

theorem grants_eq_true_iff [DecidableEq κ] {period : τ} {h : History κ τ} {c : Request κ τ} :
    grants period h c = true ↔
      ∀ d ∈ h, d.2 = true → d.1.key = c.key → d.1.time + period ≤ c.time := by
  simp only [grants, List.all_eq_true, decide_eq_true_eq]

/-- The limiter with one memory per key. -/
def pace [DecidableEq κ] (period : τ) (cs : List (Request κ τ)) : History κ τ :=
  cs.foldl (fun h c => h ++ [(c, grants period h c)]) []

theorem pace_snoc [DecidableEq κ] (period : τ) (cs : List (Request κ τ)) (c : Request κ τ) :
    pace period (cs ++ [c]) = pace period cs ++ [(c, grants period (pace period cs) c)] := by
  rw [pace, List.foldl_append]
  rfl

/-! ## Losing a memory -/

/-- Some call finds the memory of an admitted one for its own key gone: a call for another key of
the same slot came between the two, and the second is within the period of the first. -/
def Evicted (slot : κ → σ) (period : τ) (h : History κ τ) : Prop :=
  ∃ a b c, [a, b, c].Sublist h ∧ a.2 = true ∧ c.1.key = a.1.key ∧ b.1.key ≠ a.1.key ∧
    slot b.1.key = slot a.1.key ∧ c.1.time < a.1.time + period

/-- The call `c` finds the memory of an admitted one for its own key gone. -/
def Forgotten (slot : κ → σ) (period : τ) (h : History κ τ) (c : Request κ τ) : Prop :=
  ∃ a b, [a, b].Sublist h ∧ a.2 = true ∧ c.key = a.1.key ∧ b.1.key ≠ a.1.key ∧
    slot b.1.key = slot a.1.key ∧ c.time < a.1.time + period

omit [LinearOrder τ] [Add τ] in
theorem sublist_snoc_iff {a b c x : Request κ τ × Bool} {h : History κ τ} :
    [a, b, c].Sublist (h ++ [x]) ↔ [a, b, c].Sublist h ∨ c = x ∧ [a, b].Sublist h := by
  constructor
  · intro hs
    obtain ⟨l, r, heq, hl, hr⟩ := List.sublist_append_iff.1 hs
    rcases List.sublist_singleton.1 hr with rfl | rfl
    · rw [List.append_nil] at heq
      exact .inl (heq ▸ hl)
    · have heq' : [a, b] ++ [c] = l ++ [x] := heq
      obtain ⟨rfl, hc⟩ := List.append_inj' heq' rfl
      exact .inr ⟨(List.cons.inj hc).1, hl⟩
  · rintro (hs | ⟨rfl, hs⟩)
    · exact hs.trans (List.sublist_append_left h [x])
    · exact hs.append (List.Sublist.refl [c])

theorem evicted_snoc_iff {slot : κ → σ} {period : τ} {h : History κ τ} {c : Request κ τ}
    {v : Bool} :
    Evicted slot period (h ++ [(c, v)]) ↔ Evicted slot period h ∨ Forgotten slot period h c := by
  constructor
  · rintro ⟨a, b, d, hs, ha⟩
    rcases sublist_snoc_iff.1 hs with hd | ⟨rfl, hab⟩
    · exact .inl ⟨a, b, d, hd, ha⟩
    · exact .inr ⟨a, b, hab, ha⟩
  · rintro (⟨a, b, d, hs, ha⟩ | ⟨a, b, hs, ha⟩)
    · exact ⟨a, b, d, sublist_snoc_iff.2 (.inl hs), ha⟩
    · exact ⟨a, b, (c, v), sublist_snoc_iff.2 (.inr ⟨rfl, hs⟩), ha⟩

/-! ## The table -/

namespace SlotTable

variable [DecidableEq κ] [DecidableEq σ] (slot : κ → σ) (period : τ)

/-- Whether the slot of the call remembers its key, let through less than a period ago. -/
def refuses (T : SlotTable κ σ τ) (c : Request κ τ) : Bool :=
  match T (slot c.key) with
  | none => false
  | some (k, t) => decide (k = c.key ∧ c.time < t + period)

/-- One call: refused, or let through and remembered in the place of whatever was there. -/
def check (T : SlotTable κ σ τ) (c : Request κ τ) : Bool × SlotTable κ σ τ :=
  if refuses slot period T c then (false, T)
  else (true, Function.update T (slot c.key) (some (c.key, c.time)))

/-- The calls with the answers of the table, starting from `T`. -/
def run : SlotTable κ σ τ → List (Request κ τ) → History κ τ
  | _, [] => []
  | T, c :: cs => (c, (check slot period T c).1) :: run (check slot period T c).2 cs

/-- The table after the calls. -/
def after (T : SlotTable κ σ τ) (cs : List (Request κ τ)) : SlotTable κ σ τ :=
  cs.foldl (fun T c => (check slot period T c).2) T

variable {slot period}

theorem run_append (T : SlotTable κ σ τ) (cs ds : List (Request κ τ)) :
    run slot period T (cs ++ ds)
      = run slot period T cs ++ run slot period (after slot period T cs) ds := by
  induction cs generalizing T with
  | nil => rfl
  | cons c cs ih =>
    rw [List.cons_append, run, ih, run, List.cons_append]
    rfl

theorem run_snoc (T : SlotTable κ σ τ) (cs : List (Request κ τ)) (c : Request κ τ) :
    run slot period T (cs ++ [c]) = run slot period T cs
      ++ [(c, (check slot period (after slot period T cs) c).1)] := run_append T cs [c]

theorem after_snoc (T : SlotTable κ σ τ) (cs : List (Request κ τ)) (c : Request κ τ) :
    after slot period T (cs ++ [c]) = (check slot period (after slot period T cs) c).2 := by
  rw [after, List.foldl_append]
  rfl

theorem map_fst_run (T : SlotTable κ σ τ) (cs : List (Request κ τ)) :
    (run slot period T cs).map Prod.fst = cs := by
  induction cs generalizing T with
  | nil => rfl
  | cons c cs ih => rw [run, List.map_cons, ih]

/-! ## What a table remembers -/

/-- What `T` remembers of the history `h` behind it: a slot is empty as long as no call has come to
it, and otherwise holds an admitted call, since which only refused calls of the same key have come
to it. -/
structure Recalls (slot : κ → σ) (T : SlotTable κ σ τ) (h : History κ τ) : Prop where
  /-- Nobody has come to an empty slot. -/
  unseen : ∀ s, T s = none → ∀ d ∈ h, slot d.1.key ≠ s
  /-- What a slot holds is the last call it let through. -/
  latest : ∀ s k t, T s = some (k, t) → slot k = s ∧ ∃ h₁ h₂, h = h₁ ++ (⟨k, t⟩, true) :: h₂ ∧
    ∀ d ∈ h₂, slot d.1.key = s → d.1.key = k ∧ d.2 = false

omit [LinearOrder τ] [Add τ] [DecidableEq κ] [DecidableEq σ] in
theorem recalls_empty : Recalls slot (fun _ => none : SlotTable κ σ τ) [] where
  unseen _ _ _ hd := absurd hd List.not_mem_nil
  latest _ _ _ heq := absurd heq (by simp)

omit [DecidableEq σ] in
theorem refuses_eq_true_iff {T : SlotTable κ σ τ} {c : Request κ τ} :
    refuses slot period T c = true ↔
      ∃ t, T (slot c.key) = some (c.key, t) ∧ c.time < t + period := by
  rw [refuses]
  constructor
  · intro h
    split at h
    · cases h
    · rename_i k t heq
      obtain ⟨rfl, ht⟩ := of_decide_eq_true h
      exact ⟨t, heq, ht⟩
  · rintro ⟨t, heq, ht⟩
    rw [heq]
    exact decide_eq_true ⟨rfl, ht⟩

omit [LinearOrder τ] [Add τ] [DecidableEq κ] [DecidableEq σ] in
/-- A refused call finds its own key in its slot. -/
theorem Recalls.refuse {T : SlotTable κ σ τ} {h : History κ τ} (hT : Recalls slot T h)
    {c : Request κ τ} {t : τ} (hslot : T (slot c.key) = some (c.key, t)) :
    Recalls slot T (h ++ [(c, false)]) where
  unseen s hs d hd := by
    rcases List.mem_append.1 hd with hd | hd
    · exact hT.unseen s hs d hd
    · rw [List.mem_singleton.1 hd]
      rintro rfl
      exact absurd (hslot.symm.trans hs) (by simp)
  latest s k t' hs := by
    obtain ⟨hk, h₁, h₂, rfl, hall⟩ := hT.latest s k t' hs
    refine ⟨hk, h₁, h₂ ++ [(c, false)], by simp, fun d hd hds => ?_⟩
    rcases List.mem_append.1 hd with hd | hd
    · exact hall d hd hds
    · obtain rfl := List.mem_singleton.1 hd
      obtain rfl : slot c.key = s := hds
      obtain ⟨rfl, -⟩ := Prod.mk.inj (Option.some.inj (hslot.symm.trans hs))
      exact ⟨rfl, rfl⟩

omit [LinearOrder τ] [Add τ] [DecidableEq κ] in
/-- An admitted call is what its slot holds from now on. -/
theorem Recalls.admit {T : SlotTable κ σ τ} {h : History κ τ} (hT : Recalls slot T h)
    (c : Request κ τ) :
    Recalls slot (Function.update T (slot c.key) (some (c.key, c.time))) (h ++ [(c, true)]) where
  unseen s hs d hd := by
    rw [Function.update_apply] at hs
    split at hs
    · cases hs
    · rename_i hne
      rcases List.mem_append.1 hd with hd | hd
      · exact hT.unseen s hs d hd
      · rw [List.mem_singleton.1 hd]
        exact fun heq => hne heq.symm
  latest s k t' hs := by
    rw [Function.update_apply] at hs
    split at hs
    · rename_i heq
      obtain ⟨rfl, rfl⟩ := Prod.mk.inj (Option.some.inj hs)
      exact ⟨heq.symm, h, [], rfl, fun d hd => absurd hd List.not_mem_nil⟩
    · rename_i hne
      obtain ⟨hk, h₁, h₂, rfl, hall⟩ := hT.latest s k t' hs
      refine ⟨hk, h₁, h₂ ++ [(c, true)], by simp, fun d hd hds => ?_⟩
      rcases List.mem_append.1 hd with hd | hd
      · exact hall d hd hds
      · obtain rfl := List.mem_singleton.1 hd
        exact absurd hds.symm hne

/-- **One call.** -/
theorem Recalls.check {T : SlotTable κ σ τ} {h : History κ τ} (hT : Recalls slot T h)
    (c : Request κ τ) :
    Recalls slot (check slot period T c).2 (h ++ [(c, (check slot period T c).1)]) := by
  rw [SlotTable.check]
  split
  · rename_i hr
    obtain ⟨t, hslot, -⟩ := refuses_eq_true_iff.1 hr
    exact hT.refuse hslot
  · exact hT.admit c

/-- Every run from the empty table. -/
theorem recalls_run (cs : List (Request κ τ)) :
    Recalls slot (after slot period (fun _ => none) cs) (run slot period (fun _ => none) cs) := by
  induction cs using List.reverseRecOn with
  | nil => exact recalls_empty
  | append_singleton cs c ih =>
    rw [after_snoc, run_snoc]
    exact ih.check c

/-- **A refusal has a reason**: an admitted call for the same key, less than a period ago. -/
theorem exists_of_refused {cs : List (Request κ τ)} {h₁ h₂ : History κ τ} {c : Request κ τ}
    (heq : run slot period (fun _ => none) cs = h₁ ++ (c, false) :: h₂) :
    ∃ d, (d, true) ∈ h₁ ∧ d.key = c.key ∧ c.time < d.time + period := by
  have hcs : cs = h₁.map Prod.fst ++ c :: h₂.map Prod.fst := by
    have hmap : (run slot period (fun _ => none) cs).map Prod.fst = cs := map_fst_run _ cs
    rw [← hmap, heq]
    simp
  rw [hcs, run_append] at heq
  have hlen : (run slot period (fun _ => none) (h₁.map Prod.fst)).length = h₁.length := by
    rw [← List.length_map (f := Prod.fst), map_fst_run, List.length_map]
  obtain ⟨hpre, htail⟩ := List.append_inj heq hlen
  have hc := (Prod.mk.inj (List.cons.inj htail).1).2
  have hrefused : refuses slot period (after slot period (fun _ => none) (h₁.map Prod.fst)) c
      = true := by
    by_contra hno
    rw [check, if_neg hno] at hc
    cases hc
  obtain ⟨t, hslot, ht⟩ := refuses_eq_true_iff.1 hrefused
  obtain ⟨-, g₁, g₂, hsplit, -⟩ := (recalls_run (h₁.map Prod.fst)).latest _ _ _ hslot
  refine ⟨⟨c.key, t⟩, ?_, rfl, ht⟩
  rw [← hpre, hsplit]
  exact List.mem_append_right _ List.mem_cons_self

/-! ## When the table is strict enough -/

omit [LinearOrder τ] [Add τ] [DecidableEq κ] in
/-- Where the earlier of two calls stands, the later one being before `x`. -/
theorem mem_of_sublist {a b x : Request κ τ × Bool} {h₁ h₂ : History κ τ}
    (hs : [a, b].Sublist (h₁ ++ x :: h₂)) (hb : b ∉ x :: h₂) : a ∈ h₁ := by
  obtain ⟨l, r, heq, hl, hr⟩ := List.sublist_append_iff.1 hs
  have hr : r = [] := by
    rcases List.eq_nil_or_concat r with rfl | ⟨r, y, rfl⟩
    · rfl
    · have heq : [a] ++ [b] = (l ++ r) ++ [y] := by simpa using heq
      obtain ⟨-, hy⟩ := List.append_inj' heq rfl
      rw [List.singleton_inj.1 hy] at hb
      exact absurd (hr.subset (by simp)) hb
  rw [hr, List.append_nil] at heq
  exact hl.subset (heq ▸ List.mem_cons_self)

/-- If the memory of an admitted call was lost, then `c` comes too early after some admitted one,
unless two calls before it did already. -/
theorem Recalls.not_forgotten {T : SlotTable κ σ τ} {h : History κ τ} {c : Request κ τ}
    (hT : Recalls slot T h) (hclock : ∀ d ∈ h, d.1.time ≤ c.time)
    (hspaced : Spaced period (h ++ [(c, (SlotTable.check slot period T c).1)])) :
    ¬ Forgotten slot period h c := by
  rintro ⟨a, b, hab, ha, hkey, hne, hslot, htime⟩
  obtain ⟨hh, hc⟩ := spaced_snoc_iff.1 hspaced
  have hah : a ∈ h := hab.subset List.mem_cons_self
  have hseen : slot a.1.key = slot c.key := by rw [hkey]
  cases hs : T (slot c.key) with
  | none => exact hT.unseen _ hs a hah hseen
  | some e =>
    obtain ⟨hk, h₁, h₂, rfl, hall⟩ := hT.latest _ e.1 e.2 hs
    by_cases hek : e.1 = c.key
    · -- the slot holds a later admitted call for the key of `a`
      have hb : b ∉ (⟨e.1, e.2⟩, true) :: h₂ := by
        intro hb
        rcases List.mem_cons.1 hb with rfl | hb
        · exact hne (hek.trans hkey)
        · exact hne ((hall b hb (hslot.trans hseen)).1.trans (hek.trans hkey))
      have hae := (List.pairwise_append.1 hh).2.2 a (mem_of_sublist hab hb) _ List.mem_cons_self
        ha rfl (hkey.symm.trans hek.symm)
      have hec : e.2 ≤ c.time := hclock (⟨e.1, e.2⟩, true) (by simp)
      exact absurd (hae.trans hec) (not_le.2 htime)
    · have hv : (SlotTable.check slot period T c).1 = true := by
        rw [SlotTable.check, if_neg]
        intro hr
        obtain ⟨t, ht, -⟩ := refuses_eq_true_iff.1 hr
        rw [hs] at ht
        exact hek (Prod.mk.inj (Option.some.inj ht)).1
      exact absurd (hc hv a hah ha hkey.symm) (not_le.2 htime)

/-- If no memory was lost, then `c` is admitted only if nothing is in its way. -/
theorem Recalls.spaced_snoc [AddRightMono τ] {T : SlotTable κ σ τ} {h : History κ τ}
    {c : Request κ τ} (hT : Recalls slot T h)
    (hmono : h.Pairwise fun d e => d.1.time ≤ e.1.time) (hh : Spaced period h)
    (hkept : ¬ Forgotten slot period h c) :
    Spaced period (h ++ [(c, (SlotTable.check slot period T c).1)]) := by
  refine spaced_snoc_iff.2 ⟨hh, fun hv d hd hd2 hkey => ?_⟩
  by_contra htime
  rw [not_le] at htime
  have hseen : slot d.1.key = slot c.key := by rw [hkey]
  cases hs : T (slot c.key) with
  | none => exact hT.unseen _ hs d hd hseen
  | some e =>
    obtain ⟨hk, h₁, h₂, rfl, hall⟩ := hT.latest _ e.1 e.2 hs
    by_cases hek : e.1 = c.key
    · -- the slot holds the last admitted call for the key, and it was long ago
      have hlong : e.2 + period ≤ c.time := by
        by_contra hshort
        have hr : refuses slot period T c = true :=
          refuses_eq_true_iff.2 ⟨e.2, by rw [hs, ← hek], not_le.1 hshort⟩
        rw [SlotTable.check, if_pos hr] at hv
        cases hv
      rcases List.mem_append.1 hd with hd | hd
      · have hde : d.1.time ≤ e.2 :=
          (List.pairwise_append.1 hmono).2.2 d hd (⟨e.1, e.2⟩, true) List.mem_cons_self
        exact absurd ((add_le_add_left hde period).trans hlong) (not_le.2 htime)
      · rcases List.mem_cons.1 hd with rfl | hd
        · exact absurd hlong (not_le.2 htime)
        · rw [(hall d hd hseen).2] at hd2
          cases hd2
    · -- the slot holds another key, let through after `d`
      rcases List.mem_append.1 hd with hd | hd
      · refine hkept ⟨d, (⟨e.1, e.2⟩, true), ?_, hd2, hkey.symm, fun h => hek (h.trans hkey), ?_,
          htime⟩
        · exact (List.singleton_sublist.2 hd).append (List.singleton_sublist.2 List.mem_cons_self)
        · exact hk.trans hseen.symm
      · rcases List.mem_cons.1 hd with rfl | hd
        · exact hek hkey
        · exact hek ((hall d hd hseen).1.symm.trans hkey)

theorem pairwise_run {T : SlotTable κ σ τ} {cs : List (Request κ τ)}
    (hmono : cs.Pairwise fun d e => d.time ≤ e.time) :
    (run slot period T cs).Pairwise fun d e => d.1.time ≤ e.1.time := by
  have hmap : (run slot period T cs).map Prod.fst = cs := map_fst_run T cs
  rw [← hmap, List.pairwise_map] at hmono
  exact hmono

/-- A table that has been strict enough has lost nothing that mattered. -/
theorem not_evicted_of_spaced {cs : List (Request κ τ)}
    (hmono : cs.Pairwise fun d e => d.time ≤ e.time)
    (h : Spaced period (run slot period (fun _ => none) cs)) :
    ¬ Evicted slot period (run slot period (fun _ => none) cs) := by
  induction cs using List.reverseRecOn with
  | nil =>
    rintro ⟨a, b, c, hs, -⟩
    cases hs
  | append_singleton cs c ih =>
    rw [run_snoc] at h ⊢
    have hcs := List.pairwise_append.1 hmono
    have hclock : ∀ d ∈ run slot period (fun _ => none) cs, d.1.time ≤ c.time := by
      intro d hd
      have hd : d.1 ∈ cs := by
        have := List.mem_map_of_mem (f := Prod.fst) hd
        rwa [map_fst_run] at this
      exact hcs.2.2 d.1 hd c (List.mem_singleton.2 rfl)
    rw [evicted_snoc_iff]
    rintro (he | hf)
    · exact ih hcs.1 (spaced_snoc_iff.1 h).1 he
    · exact (recalls_run cs).not_forgotten hclock h hf

/-- A table that has been strict enough has answered as the limiter with one memory per key. -/
theorem run_eq_pace_of_spaced {cs : List (Request κ τ)}
    (h : Spaced period (run slot period (fun _ => none) cs)) :
    run slot period (fun _ => none) cs = pace period cs := by
  induction cs using List.reverseRecOn with
  | nil => rfl
  | append_singleton cs c ih =>
    rw [run_snoc] at h
    obtain ⟨hcs, hc⟩ := spaced_snoc_iff.1 h
    rw [run_snoc, pace_snoc, ← ih hcs]
    have hv : (check slot period (after slot period (fun _ => none) cs) c).1
        = grants period (run slot period (fun _ => none) cs) c := by
      rw [Bool.eq_iff_iff, grants_eq_true_iff]
      refine ⟨hc, fun hg => ?_⟩
      by_contra hno
      have hr : refuses slot period (after slot period (fun _ => none) cs) c = true := by
        by_contra hr
        rw [check, if_neg hr] at hno
        exact hno rfl
      obtain ⟨t, hslot, ht⟩ := refuses_eq_true_iff.1 hr
      obtain ⟨-, h₁, h₂, hsplit, -⟩ := (recalls_run cs).latest _ _ _ hslot
      have hmem : ((⟨c.key, t⟩, true) : Request κ τ × Bool)
          ∈ run slot period (fun _ => none) cs := by
        rw [hsplit]
        exact List.mem_append_right _ List.mem_cons_self
      exact absurd (hg _ hmem rfl rfl) (not_le.2 ht)
    rw [hv]

/-- **When a table is strict enough**: exactly if it forgets no admitted call that the limiter with
one memory per key would still hold against somebody. -/
theorem spaced_run_iff [AddRightMono τ] {cs : List (Request κ τ)}
    (hmono : cs.Pairwise fun d e => d.time ≤ e.time) :
    Spaced period (run slot period (fun _ => none) cs) ↔
      ¬ Evicted slot period (pace period cs) := by
  constructor
  · intro h
    rw [← run_eq_pace_of_spaced h]
    exact not_evicted_of_spaced hmono h
  · intro h
    induction cs using List.reverseRecOn with
    | nil => exact List.Pairwise.nil
    | append_singleton cs c ih =>
      rw [pace_snoc, evicted_snoc_iff, not_or] at h
      have hcs := (List.pairwise_append.1 hmono).1
      have hspaced := ih hcs h.1
      rw [← run_eq_pace_of_spaced hspaced] at h
      rw [run_snoc]
      exact (recalls_run cs).spaced_snoc (pairwise_run hcs) hspaced h.2

end SlotTable
