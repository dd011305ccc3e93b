import Mathlib.Data.List.Induction
import Mathlib.Data.Multiset.AddSub

/-!
# Ledgers of what is acquired and released

A program that owns things for a while, such as handles or locks, leaves a log: what it has been
given, and what it has given back.  The same thing may be given again later, so what is owned is a
multiset.

## What is here

* `Ledger.held` — what is owned at the end of a log, if nothing was released without being owned.
* `Ledger.held_acquire`, `Ledger.held_release` — one more entry.
* `Ledger.count_of_held` — **the balance**: everything has been acquired as often as it has been
  released and is owned.
-/

set_option autoImplicit false

universe u

namespace Ledger

variable {α : Type u}

/-- An entry of the log. -/
inductive Entry (α : Type u)
  | acquired (a : α)
  | released (a : α)
  deriving DecidableEq

variable [DecidableEq α]

/-- What is owned after one more entry. -/
def step (owned : Multiset α) : Entry α → Option (Multiset α)
  | .acquired a => some (a ::ₘ owned)
  | .released a => if a ∈ owned then some (owned.erase a) else none

/-- What is owned at the end of the log, or nothing if something was released that was not owned. -/
def held (log : List (Entry α)) : Option (Multiset α) := log.foldlM step 0

variable {log : List (Entry α)} {owned : Multiset α}

theorem held_snoc (e : Entry α) :
    held (log ++ [e]) = (held log).bind fun owned => step owned e := by
  simp [held, List.foldlM_append]

theorem held_acquire (h : held log = some owned) (a : α) :
    held (log ++ [.acquired a]) = some (a ::ₘ owned) := by
  rw [held_snoc, h]
  rfl

theorem held_release {a : α} (h : held log = some (a ::ₘ owned)) :
    held (log ++ [.released a]) = some owned := by
  rw [held_snoc, h, Option.bind_some, step, if_pos (Multiset.mem_cons_self a owned),
    Multiset.erase_cons_head]

/-- **The balance.** -/
theorem count_of_held (h : held log = some owned) (a : α) :
    log.count (.acquired a) = log.count (.released a) + owned.count a := by
  induction log using List.reverseRecOn generalizing owned with
  | nil =>
    obtain rfl : 0 = owned := Option.some.inj h
    simp
  | append_singleton log e ih =>
    rw [held_snoc] at h
    obtain ⟨before, hbefore, hstep⟩ := Option.bind_eq_some_iff.1 h
    have hbalance := ih hbefore
    rw [List.count_append, List.count_append]
    cases e with
    | acquired b =>
      obtain rfl : b ::ₘ before = owned := Option.some.inj hstep
      by_cases hab : b = a
      · subst hab
        simp [hbalance]
        omega
      · simp [hbalance, hab, Ne.symm hab]
    | released b =>
      by_cases hmem : b ∈ before
      · rw [step, if_pos hmem] at hstep
        obtain rfl : before.erase b = owned := Option.some.inj hstep
        by_cases hab : b = a
        · subst hab
          have hpos : 0 < before.count b := Multiset.count_pos.2 hmem
          simp [hbalance]
          omega
        · simp [hbalance, hab, Ne.symm hab]
      · rw [step, if_neg hmem] at hstep
        cases hstep

end Ledger
