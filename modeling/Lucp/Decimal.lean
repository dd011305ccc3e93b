import Lucp.Config

/-!
# Numbers in texts

`%d` and `%ld` write a number in decimal, and `strtol` reads it back.

`strtol_toString` is that round trip, whatever stands behind the number as long as it is no digit;
the other lemmas say what the bytes of a number are and how many there can be.
-/

set_option autoImplicit false

namespace Lucp

theorem textBytes_append (s t : String) : textBytes (s ++ t) = textBytes s ++ textBytes t := by
  rw [textBytes, String.toList_append, List.map_append]
  rfl

theorem length_textBytes (s : String) : (textBytes s).length = s.length := by
  rw [textBytes, List.length_map, String.length_toList]

/-! ## The digits of a number -/

theorem textBytes_repr (n : ℕ) :
    textBytes n.repr = (Nat.toDigits 10 n).map fun c => c.toNat.toUInt8 := by
  rw [textBytes, Nat.toList_repr]

/-- A digit, as a byte. -/
theorem toNat_digit {n : ℕ} {c : Char} (h : c ∈ Nat.toDigits 10 n) :
    48 ≤ c.toNat ∧ c.toNat ≤ 57 ∧ c.toNat.toUInt8.toNat = c.toNat := by
  have hdigit := Nat.isDigit_of_mem_toDigits (by decide) (by decide) h
  rw [Char.isDigit, Bool.and_eq_true, decide_eq_true_eq, decide_eq_true_eq, ge_iff_le,
    UInt32.le_iff_toNat_le, UInt32.le_iff_toNat_le] at hdigit
  obtain ⟨hlo, hhi⟩ : 48 ≤ c.toNat ∧ c.toNat ≤ 57 := hdigit
  refine ⟨hlo, hhi, ?_⟩
  exact Nat.mod_eq_of_lt (by omega)

theorem isdigit_of_mem_repr {n : ℕ} {b : UInt8} (h : b ∈ textBytes n.repr) : isdigit b = true := by
  rw [textBytes_repr] at h
  obtain ⟨c, hc, rfl⟩ := List.mem_map.1 h
  obtain ⟨hlo, hhi, hbyte⟩ := toNat_digit hc
  refine decide_eq_true ⟨UInt8.le_iff_toNat_le.2 ?_, UInt8.le_iff_toNat_le.2 ?_⟩
  · rw [hbyte]; exact hlo
  · rw [hbyte]; exact hhi

theorem textBytes_repr_ne_nil (n : ℕ) : textBytes n.repr ≠ [] := by
  rw [textBytes_repr, Ne, List.map_eq_nil_iff]
  exact Nat.toDigits_ne_nil

/-- The value of digits, as `strtol()` computes it. -/
def digitsValue (ds : Bytes) : ℕ :=
  ds.foldl (fun (n : ℕ) c => 10 * n + (c.toNat - 0x30)) 0

theorem digitsValue_repr (n : ℕ) : digitsValue (textBytes n.repr) = n := by
  have hfold (cs : List Char) (hcs : ∀ c ∈ cs, c ∈ Nat.toDigits 10 n) (init : ℕ) :
      (cs.map fun c => c.toNat.toUInt8).foldl (fun (n : ℕ) c => 10 * n + (c.toNat - 0x30)) init
        = Nat.ofDigitChars 10 cs init := by
    induction cs generalizing init with
    | nil => rfl
    | cons c cs ih =>
      rw [List.map_cons, List.foldl_cons, Nat.ofDigitChars_cons,
        (toNat_digit (hcs c List.mem_cons_self)).2.2]
      exact ih (fun c hc => hcs c (List.mem_cons_of_mem _ hc)) _
  rw [digitsValue, textBytes_repr, hfold _ fun _ h => h]
  exact Nat.ofDigitChars_ten_toDigits

/-! ## Reading them -/

theorem not_isspace_of_isdigit {b : UInt8} (h : isdigit b = true) : isspace b = false := by
  obtain ⟨hlo, -⟩ := of_decide_eq_true h
  have hlo' := UInt8.le_iff_toNat_le.1 hlo
  refine decide_eq_false ?_
  rintro (rfl | ⟨-, hspace⟩)
  · exact absurd hlo (by decide)
  · have hspace' := UInt8.le_iff_toNat_le.1 hspace
    have h30 : (0x30 : UInt8).toNat = 48 := rfl
    have h0D : (0x0D : UInt8).toNat = 13 := rfl
    omega

theorem takeWhile_digits {ds rest : Bytes} (hds : ∀ b ∈ ds, isdigit b = true)
    (hrest : ∀ b ∈ rest.head?, isdigit b = false) : (ds ++ rest).takeWhile isdigit = ds := by
  rw [List.takeWhile_append_of_pos hds]
  cases rest with
  | nil => simp
  | cons b rest =>
    rw [List.takeWhile_cons_of_neg (by simp [hrest b rfl]), List.append_nil]

/-- Digits without a sign. -/
theorem strtol_digits {ds rest : Bytes} (hne : ds ≠ []) (hds : ∀ b ∈ ds, isdigit b = true)
    (hrest : ∀ b ∈ rest.head?, isdigit b = false) :
    strtol (ds ++ rest) = min (digitsValue ds : ℤ) (2 ^ 63 - 1) := by
  obtain ⟨d, ds, rfl⟩ := List.exists_cons_of_ne_nil hne
  have hd : isdigit d = true := hds d List.mem_cons_self
  have hsign (sign : UInt8) (hs : isdigit sign = false) :
      (d :: ds ++ rest).head? ≠ some sign := by
    intro h
    have hhead : d = sign := Option.some.inj h
    rw [hhead, hs] at hd
    cases hd
  rw [strtol]
  rw [List.cons_append, List.dropWhile_cons_of_neg (by simp [not_isspace_of_isdigit hd]),
    ← List.cons_append, if_neg (hsign 0x2D (by decide)),
    if_neg (not_or.2 ⟨hsign 0x2D (by decide), hsign 0x2B (by decide)⟩),
    takeWhile_digits hds hrest]
  rfl

/-- Digits behind a minus. -/
theorem strtol_minus {ds rest : Bytes} (hds : ∀ b ∈ ds, isdigit b = true)
    (hrest : ∀ b ∈ rest.head?, isdigit b = false) :
    strtol (0x2D :: (ds ++ rest)) = max (-(digitsValue ds : ℤ)) (-2 ^ 63) := by
  rw [strtol]
  rw [List.dropWhile_cons_of_neg (by decide)]
  simp only [List.head?_cons, true_or, if_true, List.drop_succ_cons, List.drop_zero,
    takeWhile_digits hds hrest]
  rfl

/-- A number is a sign, if it has one, and digits. -/
theorem textBytes_toString (n : ℤ) :
    textBytes (toString n) = (if n < 0 then [0x2D] else []) ++ textBytes n.natAbs.repr := by
  cases n with
  | ofNat n => rfl
  | negSucc n =>
    rw [show toString (Int.negSucc n) = "-" ++ (n + 1).repr from rfl, textBytes_append,
      if_pos (Int.negSucc_lt_zero n)]
    rfl

/-- **What `%d` writes, `strtol` reads.** -/
theorem strtol_toString {n : ℤ} (hlo : -2 ^ 63 ≤ n) (hhi : n < 2 ^ 63) (rest : Bytes)
    (hrest : ∀ b ∈ rest.head?, isdigit b = false) :
    strtol (textBytes (toString n) ++ rest) = n := by
  have hdigits : ∀ b ∈ textBytes n.natAbs.repr, isdigit b = true := fun _ => isdigit_of_mem_repr
  rw [textBytes_toString]
  by_cases hneg : n < 0
  · rw [if_pos hneg, List.append_assoc, List.singleton_append, strtol_minus hdigits hrest,
      digitsValue_repr]
    omega
  · rw [if_neg hneg, List.nil_append, strtol_digits (textBytes_repr_ne_nil _) hdigits hrest,
      digitsValue_repr]
    omega

theorem textBytes_toString_ne_nil (n : ℤ) : textBytes (toString n) ≠ [] := by
  rw [textBytes_toString]
  exact List.append_ne_nil_of_right_ne_nil _ (textBytes_repr_ne_nil _)

/-- The bytes of a number. -/
theorem isdigit_or_minus {n : ℤ} {b : UInt8} (h : b ∈ textBytes (toString n)) :
    isdigit b = true ∨ b = 0x2D := by
  rw [textBytes_toString] at h
  rcases List.mem_append.1 h with hsign | hdigit
  · split at hsign
    · exact .inr (List.mem_singleton.1 hsign)
    · cases hsign
  · exact .inl (isdigit_of_mem_repr hdigit)

theorem length_textBytes_repr_le {n k : ℕ} (hk : 0 < k) (h : n < 10 ^ k) :
    (textBytes n.repr).length ≤ k := by
  rw [length_textBytes]
  exact (Nat.length_repr_le_iff hk).2 h

/-- How many bytes a number needs. -/
theorem length_textBytes_toString_le {n : ℤ} {k : ℕ} (hk : 0 < k) (h : n.natAbs < 10 ^ k) :
    (textBytes (toString n)).length ≤ k + 1 := by
  have hdigits := length_textBytes_repr_le hk h
  rw [textBytes_toString, List.length_append]
  split
  · rw [List.length_singleton]; omega
  · rw [List.length_nil]; omega

end Lucp
