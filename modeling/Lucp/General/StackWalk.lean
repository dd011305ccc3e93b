import Mathlib.Data.List.Basic
import Mathlib.Data.List.Infix

/-!
# Walks on a stack, with and without a floor

A path that is followed move by move keeps a stack of the places it has entered: a move enters a
place, goes back up, or stays.  Somebody who must not leave a part of the tree walks with a floor:
the entries up to it are never given up, and a move up at the floor is not made.

## What is here

* `Move`, `Move.free`, `Move.clamped` — a move, made without a floor and with one.
* `Move.Climbs` — the moves would go below the floor: some prefix of them has more moves up than the
  depth above the floor and the places entered allow.
* `Move.foldl_clamped` — **as long as the moves do not climb, the floor is not felt.**
* `Move.climbs_cons_iff` — climbing, one move at a time.
-/

set_option autoImplicit false

universe u

/-- A move on a stack of places. -/
inductive Move (α : Type u)
  | stay
  | up
  | enter (a : α)
  deriving DecidableEq

namespace Move

variable {α : Type u}

/-- The stack after a move; there is nothing above the empty stack. -/
def free (stack : List α) : Move α → List α
  | stay => stack
  | up => stack.dropLast
  | enter a => stack ++ [a]

/-- The same with a floor. -/
def clamped (floor : ℕ) (stack : List α) : Move α → List α
  | stay => stack
  | up => if floor < stack.length then stack.dropLast else stack
  | enter a => stack ++ [a]

/-- The number of moves up. -/
def ups (ms : List (Move α)) : ℕ := ms.countP fun m => m matches up

/-- The number of places entered. -/
def enters (ms : List (Move α)) : ℕ := ms.countP fun m => m matches enter _

/-- From `depth` above the floor, the moves would at some point be below it. -/
def Climbs (depth : ℕ) (ms : List (Move α)) : Prop :=
  ∃ p ∈ ms.inits, depth + enters p < ups p

instance (depth : ℕ) (ms : List (Move α)) : Decidable (Climbs depth ms) :=
  inferInstanceAs (Decidable (∃ p ∈ ms.inits, depth + enters p < ups p))

@[simp] theorem ups_nil : ups ([] : List (Move α)) = 0 := rfl

@[simp] theorem enters_nil : enters ([] : List (Move α)) = 0 := rfl

@[simp] theorem ups_cons (m : Move α) (ms : List (Move α)) :
    ups (m :: ms) = ups ms + if m matches up then 1 else 0 := List.countP_cons

@[simp] theorem enters_cons (m : Move α) (ms : List (Move α)) :
    enters (m :: ms) = enters ms + if m matches enter _ then 1 else 0 := List.countP_cons

/-- A nonempty prefix begins with the first move. -/
theorem climbs_cons {depth : ℕ} {m : Move α} {ms : List (Move α)} :
    Climbs depth (m :: ms) ↔ ∃ p ∈ ms.inits, depth + enters (m :: p) < ups (m :: p) := by
  constructor
  · rintro ⟨p, hp, h⟩
    rw [List.inits_cons, List.mem_cons, List.mem_map] at hp
    rcases hp with rfl | ⟨p, hp, rfl⟩
    · exact absurd h (by simp)
    · exact ⟨p, hp, h⟩
  · rintro ⟨p, hp, h⟩
    refine ⟨m :: p, ?_, h⟩
    rw [List.inits_cons]
    exact List.mem_cons_of_mem _ (List.mem_map_of_mem hp)

theorem climbs_stay_cons {depth : ℕ} {ms : List (Move α)} :
    Climbs depth (stay :: ms) ↔ Climbs depth ms := by
  rw [climbs_cons]
  simp [Climbs]

theorem climbs_enter_cons {depth : ℕ} {a : α} {ms : List (Move α)} :
    Climbs depth (enter a :: ms) ↔ Climbs (depth + 1) ms := by
  rw [climbs_cons]
  simp [Climbs, Nat.add_assoc, Nat.add_comm 1]

/-- At the floor every move up climbs. -/
theorem climbs_zero_up_cons (ms : List (Move α)) : Climbs 0 (up :: ms) :=
  climbs_cons.2 ⟨[], by simp, by simp⟩

theorem climbs_succ_up_cons {depth : ℕ} {ms : List (Move α)} :
    Climbs (depth + 1) (up :: ms) ↔ Climbs depth ms := by
  rw [climbs_cons]
  refine exists_congr fun p => and_congr_right fun _ => ?_
  simp only [enters_cons, ups_cons]
  constructor <;> intro h <;> simpa [Nat.add_right_comm] using h

/-- **The floor is not felt by moves that do not climb.** -/
theorem foldl_clamped {floor : ℕ} {ms : List (Move α)} {stack : List α}
    (hfloor : floor ≤ stack.length) (h : ¬ Climbs (stack.length - floor) ms) :
    ms.foldl (clamped floor) stack = ms.foldl free stack := by
  induction ms generalizing stack with
  | nil => rfl
  | cons m ms ih =>
    rw [List.foldl_cons, List.foldl_cons]
    cases m with
    | stay => exact ih hfloor (mt climbs_stay_cons.2 h)
    | enter a =>
      have hlen : (stack ++ [a]).length = stack.length + 1 := by simp
      refine ih (hfloor.trans (by rw [clamped, hlen]; omega)) ?_
      rw [clamped, hlen, Nat.sub_add_comm hfloor]
      exact mt climbs_enter_cons.2 h
    | up =>
      obtain ⟨depth, hdepth⟩ : ∃ depth, stack.length - floor = depth + 1 := by
        refine Nat.exists_eq_succ_of_ne_zero fun hzero => h ?_
        rw [hzero]
        exact climbs_zero_up_cons ms
      have hlt : floor < stack.length := by omega
      have hlen : stack.dropLast.length - floor = depth := by
        rw [List.length_dropLast]
        omega
      rw [hdepth] at h
      rw [clamped, if_pos hlt, free]
      refine ih (by rw [List.length_dropLast]; omega) ?_
      rw [hlen]
      exact mt climbs_succ_up_cons.2 h

end Move
