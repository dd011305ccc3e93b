import Mathlib.Data.List.Basic
import Mathlib.Data.Nat.ModEq
import Mathlib.Logic.Function.Basic

/-!
# Ring buffers

A queue in a fixed number of cells: one index for the next cell to read, one for the next cell to
write, and a count, since the indices are equal both when nothing is queued and when no cell is
free.  This file is about such buffers and nothing else: it names no program.

## What is here

* `RingBuffer α n` — a buffer of `n` cells.  That the indices and the count agree, and that the
  counted cells are filled, is part of the structure.
* `RingBuffer.contents` — the queue it stands for, oldest first.
* `RingBuffer.push`, `RingBuffer.pop` — the two operations, each with what it needs.
* `RingBuffer.contents_push`, `RingBuffer.contents_eq_cons` — **they are those of a queue**: what is
  pushed comes last, and what is popped was first.
-/

set_option autoImplicit false

universe u

/-- A ring buffer of `n` cells: `count` of them, from `head` on, are filled, and `tail` is behind
the last of these. -/
structure RingBuffer (α : Type u) (n : ℕ) where
  cells : ℕ → Option α
  head : ℕ
  tail : ℕ
  count : ℕ
  count_le : count ≤ n
  head_mod : head % n = head
  tail_eq : tail = (head + count) % n
  filled : ∀ i < count, (cells ((head + i) % n)).isSome

namespace RingBuffer

variable {α : Type u} {n : ℕ}

/-- A buffer with nothing in it. -/
def empty (α : Type u) (n : ℕ) : RingBuffer α n where
  cells _ := none
  head := 0
  tail := 0
  count := 0
  count_le := Nat.zero_le n
  head_mod := Nat.zero_mod n
  tail_eq := (Nat.zero_mod n).symm
  filled _ h := absurd h (Nat.not_lt_zero _)

/-- What is queued, oldest first. -/
def contents (r : RingBuffer α n) : List α :=
  (List.range r.count).filterMap fun i => r.cells ((r.head + i) % n)

/-- Distinct places have distinct cells. -/
theorem place_inj {head i j : ℕ} (hi : i < n) (hj : j < n) (h : (head + i) % n = (head + j) % n) :
    i = j := by
  have hcancel : i ≡ j [MOD n] := Nat.ModEq.add_left_cancel' head h
  rwa [Nat.ModEq, Nat.mod_eq_of_lt hi, Nat.mod_eq_of_lt hj] at hcancel

/-- One more, in the cell at `tail`. -/
def push (r : RingBuffer α n) (x : α) (h : r.count < n) : RingBuffer α n where
  cells := Function.update r.cells r.tail (some x)
  head := r.head
  tail := (r.tail + 1) % n
  count := r.count + 1
  count_le := h
  head_mod := r.head_mod
  tail_eq := by rw [r.tail_eq, Nat.mod_add_mod, Nat.add_assoc]
  filled i hi := by
    rw [r.tail_eq]
    by_cases hlast : i = r.count
    · rw [hlast, Function.update_self, Option.isSome_some]
    · have hlt : i < r.count := by omega
      rw [Function.update_of_ne fun heq => hlast (place_inj (lt_trans hlt h) h heq)]
      exact r.filled i hlt

/-- One less, from the cell at `head`, which stays as it is. -/
def pop (r : RingBuffer α n) (h : 0 < r.count) : RingBuffer α n where
  cells := r.cells
  head := (r.head + 1) % n
  tail := r.tail
  count := r.count - 1
  count_le := le_trans (Nat.sub_le _ _) r.count_le
  head_mod := Nat.mod_mod _ _
  tail_eq := by
    rw [r.tail_eq, Nat.mod_add_mod]
    congr 1
    omega
  filled i hi := by
    rw [Nat.mod_add_mod, Nat.add_assoc, Nat.add_comm 1 i]
    exact r.filled (i + 1) (by omega)

@[simp] theorem contents_empty : (empty α n).contents = [] := rfl

/-- As many are queued as are counted. -/
@[simp] theorem length_contents (r : RingBuffer α n) : r.contents.length = r.count := by
  have hall : ∀ i ∈ List.range r.count, (r.cells ((r.head + i) % n)).isSome := fun i hi =>
    r.filled i (List.mem_range.1 hi)
  rw [contents, List.length_filterMap_eq_countP, List.countP_eq_length.2 hall,
    List.length_range]

/-- **What is pushed comes last.** -/
theorem contents_push (r : RingBuffer α n) (x : α) (h : r.count < n) :
    (r.push x h).contents = r.contents ++ [x] := by
  have hold : ∀ i ∈ List.range r.count,
      (r.push x h).cells ((r.head + i) % n) = r.cells ((r.head + i) % n) := by
    intro i hi
    have hlt : i < r.count := List.mem_range.1 hi
    refine Function.update_of_ne (fun heq => ?_) _ _
    rw [r.tail_eq] at heq
    exact absurd (place_inj (lt_trans hlt h) h heq) (ne_of_lt hlt)
  have hnew : (r.push x h).cells ((r.head + r.count) % n) = some x := by
    rw [← r.tail_eq]
    exact Function.update_self _ _ _
  show (List.range (r.count + 1)).filterMap
    (fun i => (r.push x h).cells ((r.head + i) % n)) = _
  rw [List.range_succ, List.filterMap_append, List.filterMap_congr hold, List.filterMap_cons, hnew,
    List.filterMap_nil, contents]

/-- **What is popped was first**, and the others are left. -/
theorem contents_eq_cons (r : RingBuffer α n) (h : 0 < r.count) :
    ∃ x, r.cells r.head = some x ∧ r.contents = x :: (r.pop h).contents := by
  have hfront : (r.head + 0) % n = r.head := r.head_mod
  obtain ⟨x, hx⟩ := Option.isSome_iff_exists.1 (r.filled 0 h)
  obtain ⟨k, hk⟩ : ∃ k, r.count = k + 1 := ⟨r.count - 1, by omega⟩
  have hpop : (r.pop h).contents
      = (List.range k).filterMap fun i => r.cells ((r.head + (i + 1)) % n) := by
    show (List.range (r.count - 1)).filterMap (fun i => r.cells (((r.head + 1) % n + i) % n)) = _
    rw [hk, Nat.add_sub_cancel]
    refine List.filterMap_congr fun i _ => ?_
    rw [Nat.mod_add_mod, Nat.add_assoc, Nat.add_comm 1 i]
  refine ⟨x, hfront ▸ hx, ?_⟩
  rw [hpop, contents, hk, List.range_succ_eq_map, List.filterMap_cons, hx, List.filterMap_map]
  rfl

/-- Nothing is queued exactly if nothing is counted. -/
theorem contents_eq_nil_iff (r : RingBuffer α n) : r.contents = [] ↔ r.count = 0 := by
  rw [← List.length_eq_zero_iff, length_contents]

end RingBuffer
