import Mathlib.Data.List.Basic

/-!
# Copying into a fixed-size array

A C array is a list of known length, and every `memcpy`, `memmove`, `strcpy` or `read` into it
overwrites a stretch of it.  `CArray.blit` is that overwrite on plain lists, `CArray.write` the same
on an array, whose type keeps the size.  A copy that would run past the end has no meaning in C;
`write` then does nothing, so whoever uses it proves the bound, and `write_toList` is where the
proof goes.

`blit_blit` is the lemma that matters: copies one behind the other are one copy of everything, which
is how a function that fills a buffer field by field is compared with the bytes it is meant to
produce.
-/

set_option autoImplicit false

universe u

/-- A C array: a list of known length. -/
@[ext] structure CArray (α : Type u) (n : ℕ) where
  /-- The contents. -/
  toList : List α
  /-- The size never changes. -/
  length_eq : toList.length = n
  deriving DecidableEq

namespace CArray

variable {α : Type u}

/-- Overwrite `dst` from `off` on with `src`. -/
def blit (dst : List α) (off : ℕ) (src : List α) : List α :=
  dst.take off ++ src ++ dst.drop (off + src.length)

theorem length_blit {dst : List α} {off : ℕ} {src : List α} (h : off + src.length ≤ dst.length) :
    (blit dst off src).length = dst.length := by
  simp only [blit, List.length_append, List.length_take, List.length_drop]
  omega

@[simp] theorem blit_nil (dst : List α) (off : ℕ) : blit dst off [] = dst := by
  simp [blit]

theorem blit_zero (dst src : List α) : blit dst 0 src = src ++ dst.drop src.length := by
  simp [blit]

/-- Copies one behind the other are one copy of everything. -/
theorem blit_blit (dst : List α) (off : ℕ) (a b : List α) (h : off + a.length ≤ dst.length) :
    blit (blit dst off a) (off + a.length) b = blit dst off (a ++ b) := by
  have h1 : (dst.take off ++ a).length = off + a.length := by
    rw [List.length_append, List.length_take, Nat.min_eq_left (by omega)]
  have h2 : (blit dst off a).take (off + a.length) = dst.take off ++ a := by
    rw [blit, ← h1, List.take_left]
  have h3 : (blit dst off a).drop (off + a.length + b.length)
      = dst.drop (off + (a ++ b).length) := by
    rw [blit, ← h1, List.drop_append, h1, List.drop_drop, List.length_append]
    simp [h1, Nat.add_assoc]
  rw [blit, h2, h3, blit, List.append_assoc (dst.take off) a b]

/-- What lies before the copy, and the copy. -/
theorem take_blit_add {dst : List α} {off : ℕ} (h : off ≤ dst.length) (src : List α) :
    (blit dst off src).take (off + src.length) = dst.take off ++ src := by
  have h1 : (dst.take off ++ src).length = off + src.length := by
    rw [List.length_append, List.length_take, Nat.min_eq_left h]
  rw [blit, ← h1, List.take_left]

variable {n : ℕ}

/-- Copy `src` into the array from `off` on, if it fits. -/
def write (dst : CArray α n) (off : ℕ) (src : List α) : CArray α n :=
  if h : off + src.length ≤ n then
    ⟨blit dst.toList off src, by rw [length_blit (by rw [dst.length_eq]; exact h), dst.length_eq]⟩
  else dst

theorem write_toList {dst : CArray α n} {off : ℕ} {src : List α} (h : off + src.length ≤ n) :
    (dst.write off src).toList = blit dst.toList off src := by
  rw [write, dif_pos h]

/-- Copying nothing changes nothing. -/
@[simp] theorem write_nil (dst : CArray α n) (off : ℕ) : dst.write off [] = dst := by
  rw [write]
  split
  · ext1; exact blit_nil _ _
  · rfl

/-- A copy to the front of an array, read back. -/
theorem take_write_zero (dst : CArray α n) (src : List α) (h : src.length ≤ n) :
    (dst.write 0 src).toList.take src.length = src := by
  rw [write_toList (by omega), blit_zero, List.take_left]

/-- The array of `n` copies of `a`, as `memset` leaves it. -/
def fill (n : ℕ) (a : α) : CArray α n := ⟨List.replicate n a, List.length_replicate⟩

end CArray
