import Lucp.CString
import Lucp.General.Checked
import Mathlib.Data.List.TakeWhile

/-!
# Strings in arrays, with every access checked

What `strlen`, `strcpy`, `strcat` and `strncpy` do to arrays of known size.  Reading a string that
has no zero behind it runs out of its array, and so does a copy for which there is no room.

`HoldsAt` says that a string stands somewhere in an array; with it, each operation has one lemma,
which says when it stays inside and which string stands there afterwards.
-/

set_option autoImplicit false

namespace Lucp

variable {ε : Type} {n : ℕ}

/-! ## The operations -/

/-- Read the string from `off` on. -/
def stringAt (a : CArray UInt8 n) (off : ℕ) : Checked ε CString :=
  if 0 ∈ a.toList.drop off then
    .ok ⟨(a.toList.drop off).takeWhile (· ≠ 0), fun h => by simpa using List.mem_takeWhile_imp h⟩
  else .overrun

/-- `strcpy(a, src)`. -/
def strcpyTo (a : CArray UInt8 n) (src : CString) : Checked ε (CArray UInt8 n) :=
  a.store 0 (src.bytes ++ [0])

/-- `strcat(a, src)`. -/
def strcatTo (a : CArray UInt8 n) (src : CString) : Checked ε (CArray UInt8 n) := do
  let s ← stringAt a 0
  a.store s.bytes.length (src.bytes ++ [0])

/-- `strncpy(a, src, k)`. -/
def strncpyTo (a : CArray UInt8 n) (src : CString) (k : ℕ) : Checked ε (CArray UInt8 n) :=
  a.store 0 (src.bytes.take k ++ List.replicate (k - src.bytes.length) 0)

/-! ## Strings that stand in an array -/

/-- From `off` on, the array holds the string `s`. -/
def HoldsAt (a : CArray UInt8 n) (off : ℕ) (s : Bytes) : Prop :=
  0 ∉ s ∧ s ++ [0] <+: a.toList.drop off

/-- The array holds the string `s`. -/
abbrev Holds (a : CArray UInt8 n) (s : Bytes) : Prop := HoldsAt a 0 s

/-- A string and a zero, with anything around them. -/
theorem HoldsAt.of_append {a : CArray UInt8 n} {front s rest : Bytes} (hs : 0 ∉ s)
    (h : a.toList = front ++ (s ++ 0 :: rest)) : HoldsAt a front.length s :=
  ⟨hs, rest, by rw [h, List.drop_left, List.append_assoc, List.singleton_append]⟩

theorem HoldsAt.exists_append {a : CArray UInt8 n} {off : ℕ} {s : Bytes} (h : HoldsAt a off s) :
    ∃ front rest, front.length = off ∧ a.toList = front ++ (s ++ 0 :: rest) := by
  obtain ⟨-, rest, hrest⟩ := h
  have hlen := congrArg List.length hrest
  rw [List.length_append, List.length_append, List.length_drop, List.length_singleton] at hlen
  refine ⟨a.toList.take off, rest, ?_, ?_⟩
  · rw [List.length_take]
    omega
  · rw [← List.singleton_append, ← List.append_assoc s, hrest, List.take_append_drop]

theorem Holds.of_toList {a : CArray UInt8 n} {s rest : Bytes} (hs : 0 ∉ s)
    (h : a.toList = s ++ 0 :: rest) : Holds a s :=
  HoldsAt.of_append hs (h.trans (List.nil_append _).symm)

theorem Holds.exists_toList {a : CArray UInt8 n} {s : Bytes} (h : Holds a s) :
    ∃ rest, a.toList = s ++ 0 :: rest := by
  obtain ⟨front, rest, hfront, hlist⟩ := HoldsAt.exists_append h
  obtain rfl := List.length_eq_zero_iff.1 hfront
  exact ⟨rest, hlist⟩

/-- The string and its zero are within the array. -/
theorem HoldsAt.length_lt {a : CArray UInt8 n} {off : ℕ} {s : Bytes} (h : HoldsAt a off s) :
    off + s.length < n := by
  have hlen := h.2.length_le
  rw [List.length_append, List.length_drop, a.length_eq, List.length_singleton] at hlen
  omega

theorem Holds.terminated {a : CArray UInt8 n} {s : Bytes} (h : Holds a s) :
    Terminated a ∧ cText a = s := by
  obtain ⟨rest, hrest⟩ := h.exists_toList
  refine ⟨?_, ?_⟩
  · rw [Terminated, hrest]
    exact List.mem_append_right _ List.mem_cons_self
  · rw [cText, hrest]
    exact takeWhile_ne_zero h.1

/-- **Reading a string.** -/
theorem HoldsAt.stringAt {a : CArray UInt8 n} {off : ℕ} {s : Bytes} (h : HoldsAt a off s) :
    (stringAt a off : Checked ε _) = .ok ⟨s, h.1⟩ := by
  obtain ⟨front, rest, rfl, hlist⟩ := h.exists_append
  have hrest : a.toList.drop front.length = s ++ 0 :: rest := by rw [hlist, List.drop_left]
  have hmem : 0 ∈ a.toList.drop front.length := by
    rw [hrest]
    exact List.mem_append_right _ List.mem_cons_self
  rw [Lucp.stringAt, if_pos hmem]
  refine congrArg Checked.ok (CString.ext ?_)
  show (a.toList.drop front.length).takeWhile (· ≠ 0) = s
  rw [hrest]
  exact takeWhile_ne_zero h.1

/-- Reading a character of a string. -/
theorem Holds.get {a : CArray UInt8 n} {s : Bytes} (h : Holds a s) {i : ℕ} {x : UInt8}
    (hi : s[i]? = some x) : (a.get i : Checked ε _) = .ok x := by
  obtain ⟨rest, hrest⟩ := h.exists_toList
  exact CArray.get_front hrest hi

/-- Reading the last character of a string. -/
theorem Holds.get_last {a : CArray UInt8 n} {s : Bytes} (h : Holds a s) (hs : 0 < s.length) :
    ∃ x, s.getLast? = some x ∧ (a.get (s.length - 1) : Checked ε _) = .ok x := by
  have hlast := List.getLast?_eq_some_getLast (List.length_pos_iff.1 hs)
  exact ⟨_, hlast, h.get (by rw [← List.getLast?_eq_getElem?, hlast])⟩

/-- **`strcpy`** needs room for the string and its zero. -/
theorem strcpyTo_holds (a : CArray UInt8 n) (src : CString) (h : src.bytes.length < n) :
    ∃ a', (strcpyTo a src : Checked ε _) = .ok a' ∧ Holds a' src.bytes := by
  have hfit : (src.bytes ++ [0]).length ≤ n := by
    rw [List.length_append, List.length_singleton]
    omega
  obtain ⟨a', hstore, hlist⟩ := CArray.store_zero (a := a) hfit
  rw [List.append_assoc, List.singleton_append] at hlist
  exact ⟨a', hstore, .of_toList src.noNul hlist⟩

theorem strcpyTo_refines (a : CArray UInt8 n) (src : CString) (h : src.bytes.length < n) :
    Checked.Refines Holds (strcpyTo a src) (.ok src.bytes : Except ε _) := by
  obtain ⟨a', hcopy, hholds⟩ := strcpyTo_holds a src h
  exact .of_eq_ok hcopy hholds

/-- **`strcat`** needs it behind the string that is there. -/
theorem strcatTo_holds {a : CArray UInt8 n} {s : Bytes} (hs : Holds a s) (src : CString)
    (h : s.length + src.bytes.length < n) :
    ∃ a', (strcatTo a src : Checked ε _) = .ok a' ∧ Holds a' (s ++ src.bytes) := by
  obtain ⟨rest, hrest⟩ := hs.exists_toList
  have hlen := a.length_eq
  rw [hrest, List.length_append, List.length_cons] at hlen
  have hfit : (src.bytes ++ [0]).length ≤ (0 :: rest).length := by
    rw [List.length_append, List.length_singleton, List.length_cons]
    omega
  obtain ⟨a', hstore, hlist⟩ := CArray.store_append hrest hfit
  rw [← List.append_assoc, List.append_assoc _ [0], List.singleton_append] at hlist
  refine ⟨a', ?_, .of_toList ?_ hlist⟩
  · rw [strcatTo, Checked.bind_of_eq_ok hs.stringAt]
    exact hstore
  · exact fun h0 => (List.mem_append.1 h0).elim hs.1 src.noNul

/-- **Writing a zero into a string** cuts it there. -/
theorem Holds.cut {a : CArray UInt8 n} {s : Bytes} (hs : Holds a s) {i : ℕ} (hi : i ≤ s.length) :
    ∃ a', (a.store i [0] : Checked ε _) = .ok a' ∧ Holds a' (s.take i) := by
  obtain ⟨rest, hrest⟩ := hs.exists_toList
  have hsplit : a.toList = s.take i ++ (s.drop i ++ 0 :: rest) := by
    rw [← List.append_assoc, List.take_append_drop, hrest]
  have hroom : ([0] : Bytes).length ≤ (s.drop i ++ 0 :: rest).length := by
    rw [List.length_append, List.length_cons]
    exact Nat.le_add_left_of_le (Nat.le_add_left 1 _)
  obtain ⟨a', hstore, hlist⟩ := CArray.store_append hsplit hroom
  rw [List.length_take, Nat.min_eq_left hi] at hstore
  rw [List.append_assoc, List.singleton_append] at hlist
  exact ⟨a', hstore, .of_toList (fun h0 => hs.1 (List.mem_of_mem_take h0)) hlist⟩

/-- **`strncpy`** with a zero in its last byte. -/
theorem strncpyTo_holds (a : CArray UInt8 n) (src : CString) (h : src.bytes.length < n) :
    ∃ a' a'', (strncpyTo a src n : Checked ε _) = .ok a' ∧
      (a'.store (n - 1) [0] : Checked ε _) = .ok a'' ∧ Holds a'' src.bytes := by
  obtain ⟨k, hk⟩ := Nat.exists_eq_add_of_lt h
  have hpad : n - src.bytes.length = k + 1 := by omega
  have hcopied := src.length_copied n
  obtain ⟨a', hcopy, hlist⟩ := CArray.store_zero (ε := ε) (a := a) (src.length_copied n).le
  rw [hcopied, List.drop_eq_nil_of_le a.length_eq.le, List.append_nil,
    List.take_of_length_le h.le, hpad] at hlist
  have hfront : a'.toList = (src.bytes ++ List.replicate k 0) ++ [0] := by
    rw [hlist, List.replicate_succ', List.append_assoc]
  have hone : ([0] : Bytes).length ≤ ([0] : Bytes).length := Nat.le_refl 1
  obtain ⟨a'', hstore, hlist'⟩ := CArray.store_append (ε := ε) hfront hone
  have hlast : (src.bytes ++ List.replicate k 0).length = n - 1 := by
    rw [List.length_append, List.length_replicate]
    omega
  rw [hlast] at hstore
  have hsame : a''.toList = src.bytes ++ 0 :: List.replicate k 0 := by
    rw [hlist', ← List.replicate_succ, List.replicate_succ']
    simp
  exact ⟨a', a'', hcopy, hstore, .of_toList src.noNul hsame⟩

/-- A string in front of what changes stays what it is. -/
theorem HoldsAt.of_take_eq {a b : CArray UInt8 n} {off k : ℕ} {s : Bytes} (h : HoldsAt a off s)
    (htake : a.toList.take k = b.toList.take k) (hk : off + s.length < k) : HoldsAt b off s := by
  refine ⟨h.1, ?_⟩
  have hlen : (s ++ [0]).length ≤ k - off := by
    rw [List.length_append, List.length_singleton]
    omega
  have hcut : s ++ [0] <+: (a.toList.drop off).take (k - off) := List.prefix_take_iff.2 ⟨h.2, hlen⟩
  rw [← List.drop_take, htake, List.drop_take] at hcut
  exact (List.prefix_take_iff.1 hcut).1

end Lucp
