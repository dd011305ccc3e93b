import Lucp.General.CArray
import Lucp.ByteOrder

/-!
# Strings in character arrays

The configuration of `lucpd` and its table of addresses are `char` arrays of fixed size that
`strncpy` fills.  `strncpy` cuts what is too long without terminating it, and pads what is shorter
with zeros, so whether the array holds a string afterwards depends on what stands behind the copy.
The source always leaves one byte for that.

`cText_strncpy` and `cText_strncpy_write` are the facts its users need: with a zero behind the room
it is given, or written there afterwards, `strncpy` leaves the string, cut to that room.
-/

set_option autoImplicit false

namespace Lucp

/-- A C string: the bytes in front of the terminating zero. -/
@[ext] structure CString where
  /-- The bytes. -/
  bytes : Bytes
  /-- None of them is the terminating zero. -/
  noNul : 0 ∉ bytes
  deriving DecidableEq

/-- The bytes of an array in front of its first zero. -/
def cText {n : ℕ} (a : CArray UInt8 n) : Bytes := a.toList.takeWhile (· ≠ 0)

/-- Whether an array holds a string, so that reading it as one stays inside. -/
def Terminated {n : ℕ} (a : CArray UInt8 n) : Prop := 0 ∈ a.toList

/-- `strncpy(dst, src, k)`. -/
@[irreducible] def strncpy {n : ℕ} (dst : CArray UInt8 n) (src : CString) (k : ℕ) :
    CArray UInt8 n :=
  dst.write 0 (src.bytes.take k ++ List.replicate (k - src.bytes.length) 0)

theorem takeWhile_ne_zero {l r : Bytes} (h : 0 ∉ l) : (l ++ 0 :: r).takeWhile (· ≠ 0) = l := by
  rw [List.takeWhile_append_of_pos]
  · simp
  · intro b hb
    exact decide_eq_true fun heq => h (heq ▸ hb)

theorem CString.not_mem_take (s : CString) (k : ℕ) : 0 ∉ s.bytes.take k :=
  fun h => s.noNul (List.mem_of_mem_take h)

/-- `strncpy` always writes as many bytes as it is told. -/
theorem CString.length_copied (src : CString) (k : ℕ) :
    (src.bytes.take k ++ List.replicate (k - src.bytes.length) 0).length = k := by
  rw [List.length_append, List.length_take, List.length_replicate]
  omega

theorem strncpy_toList {n : ℕ} (dst : CArray UInt8 n) (src : CString) {k : ℕ} (hk : k ≤ n) :
    (strncpy dst src k).toList
      = src.bytes.take k ++ List.replicate (k - src.bytes.length) 0 ++ dst.toList.drop k := by
  have hlen := src.length_copied k
  rw [strncpy, CArray.write_toList (by omega), CArray.blit_zero, hlen]

/-- The string an array holds once the zero of the copy is in place. -/
theorem cText_of_toList {n : ℕ} {a : CArray UInt8 n} {src : CString} {k m : ℕ} {r : Bytes}
    (h : a.toList = src.bytes.take k ++ List.replicate m 0 ++ 0 :: r) :
    cText a = src.bytes.take k ∧ Terminated a := by
  refine ⟨?_, by simp [Terminated, h]⟩
  rw [cText, h]
  cases m with
  | zero =>
    rw [List.replicate_zero, List.append_nil]
    exact takeWhile_ne_zero (src.not_mem_take k)
  | succ m =>
    rw [List.replicate_succ, List.append_assoc, List.cons_append]
    exact takeWhile_ne_zero (src.not_mem_take k)

/-- **A copy into an array that has a zero behind the room for it.** -/
theorem cText_strncpy {n : ℕ} (dst : CArray UInt8 n) (src : CString) {k : ℕ} {r : Bytes}
    (hk : k ≤ n) (h : dst.toList.drop k = 0 :: r) :
    cText (strncpy dst src k) = src.bytes.take k ∧ Terminated (strncpy dst src k) := by
  apply cText_of_toList
  rw [strncpy_toList dst src hk, h]

/-- A copy whose byte at `m`, or the one behind it, is cleared. -/
theorem cText_strncpy_write {n : ℕ} (dst : CArray UInt8 n) (src : CString) {k m : ℕ} (hm : m ≤ k)
    (hk : k ≤ n) (hn : m < n) :
    cText ((strncpy dst src k).write m [0]) = src.bytes.take m ∧
      Terminated ((strncpy dst src k).write m [0]) := by
  have hfront : (strncpy dst src k).toList.take m
      = src.bytes.take m ++ List.replicate (m - src.bytes.length) 0 := by
    have hpad : min (m - (src.bytes.take k).length) (k - src.bytes.length)
        = m - src.bytes.length := by
      rw [List.length_take]
      omega
    rw [strncpy_toList dst src hk, List.take_append_of_le_length
      (by rw [src.length_copied]; exact hm), List.take_append, List.take_take, Nat.min_eq_left hm,
      List.take_replicate, hpad]
  apply cText_of_toList
  rw [CArray.write_toList (Nat.succ_le_of_lt hn), CArray.blit, hfront, List.append_assoc]
  rfl

/-! ## Arrays whose last byte is never written -/

/-- The last byte is zero. -/
def ZeroEnded {n : ℕ} (a : CArray UInt8 n) : Prop := a.toList.drop (n - 1) = [0]

theorem ZeroEnded.terminated {n : ℕ} {a : CArray UInt8 n} (h : ZeroEnded a) : Terminated a := by
  refine List.mem_of_mem_drop (i := n - 1) ?_
  rw [h]
  exact List.mem_singleton.2 rfl

theorem zeroEnded_fill {n : ℕ} (hn : 0 < n) : ZeroEnded (CArray.fill n 0) := by
  have hone : n - (n - 1) = 1 := by omega
  rw [ZeroEnded, CArray.fill, List.drop_replicate, hone]
  rfl

/-- `strncpy` up to the last byte leaves it alone. -/
theorem ZeroEnded.copy {n : ℕ} {dst : CArray UInt8 n} (h : ZeroEnded dst) (src : CString) :
    ZeroEnded (strncpy dst src (n - 1)) := by
  rw [ZeroEnded, strncpy_toList dst src (Nat.sub_le n 1), List.drop_left' (src.length_copied _)]
  exact h

theorem ZeroEnded.cText_copy {n : ℕ} {dst : CArray UInt8 n} (h : ZeroEnded dst)
    (src : CString) : cText (strncpy dst src (n - 1)) = src.bytes.take (n - 1) :=
  (cText_strncpy dst src (Nat.sub_le n 1) h).1

/-- `a[0] = '\0'`. -/
@[irreducible] def clearText {n : ℕ} (a : CArray UInt8 n) : CArray UInt8 n := a.write 0 [0]

theorem cText_clearText {n : ℕ} (a : CArray UInt8 n) (hn : 0 < n) : cText (clearText a) = [] := by
  rw [cText, clearText, CArray.write_toList (Nat.succ_le_of_lt hn), CArray.blit_zero]
  rfl

theorem ZeroEnded.clear {n : ℕ} {a : CArray UInt8 n} (h : ZeroEnded a) (hn : 1 < n) :
    ZeroEnded (clearText a) := by
  have hsplit : n - 1 = n - 2 + 1 := by omega
  rw [ZeroEnded, hsplit] at h ⊢
  rw [clearText, CArray.write_toList (Nat.succ_le_of_lt (Nat.zero_lt_of_lt hn)), CArray.blit_zero]
  show List.drop (n - 2 + 1) (0 :: a.toList.drop 1) = [0]
  rw [List.drop_succ_cons, List.drop_drop, Nat.add_comm 1]
  exact h

end Lucp
