import Lucp.General.Records
import Lucp.ByteOrder

/-!
# Integers in frames of the log protocol

The log protocol copies integers of 16, 32 and 64 bits between structures and raw bytes.  Those of
64 bits it converts itself, with `htonll()`, which swaps the two halves on a little-endian host and
has `htonl()` swap each of them; `htonl()` and `htons()` are those of the C library, which
`htonl_c()` and `htons_c()` do the same as.

## What is here

* `join64`, `be64`, `store64`, `load64` — 64 bits as two halves, and in memory.
* `htonll`, `ntohll` — the conversions.
* `ntohlC_htonlC`, `ntohsC_htonsC`, `ntohll_htonll` — converting twice changes nothing.
* `int16`, `int32`, `int64` — the integers as they are in the memory of a host.
-/

set_option autoImplicit false

namespace Lucp.MLog

open Records

/-! ## 64 bits -/

/-- The integer with these two halves. -/
def join64 (hi lo : UInt32) : UInt64 := hi.toUInt64 <<< 32 ||| lo.toUInt64

/-- The eight bytes of `x`, most significant first. -/
def be64 (x : UInt64) : Bytes := be32 (x >>> 32).toUInt32 ++ be32 x.toUInt32

/-- `memcpy(dst, &x, 8)`. -/
def store64 : ByteOrder → UInt64 → Bytes
  | .big, x => be64 x
  | .little, x => (be64 x).reverse

/-- `memcpy(&x, src, 8)` for the eight bytes at `src`. -/
def load64 (host : ByteOrder) (a b c d e f g h : UInt8) : UInt64 :=
  match host with
  | .big => join64 (ofBe32 a b c d) (ofBe32 e f g h)
  | .little => join64 (ofBe32 h g f e) (ofBe32 d c b a)

/-- `htonll()`. -/
def htonll (host : ByteOrder) (host64 : UInt64) : UInt64 :=
  if isBigEndian host then host64
  else join64 (htonlC host (host64 &&& 0xFFFFFFFF).toUInt32)
    (htonlC host (host64 >>> 32).toUInt32)

/-- `ntohll()`. -/
def ntohll (host : ByteOrder) (net64 : UInt64) : UInt64 := htonll host net64

theorem toNat_join64 (hi lo : UInt32) : (join64 hi lo).toNat = hi.toNat * 2 ^ 32 + lo.toNat := by
  have hhi := hi.toNat_lt
  have hlo := lo.toNat_lt
  have hshift : hi.toNat <<< 32 = 2 ^ 32 * hi.toNat := by
    rw [Nat.shiftLeft_eq, Nat.mul_comm]
  rw [join64, UInt64.toNat_or, UInt64.toNat_shiftLeft, UInt32.toNat_toUInt64,
    UInt32.toNat_toUInt64, show (32 : UInt64).toNat % 64 = 32 by decide, hshift,
    Nat.mod_eq_of_lt (by omega), ← Nat.two_pow_add_eq_or_of_lt hlo]
  omega

theorem join64_halves (x : UInt64) : join64 (x >>> 32).toUInt32 x.toUInt32 = x := by
  have hx := x.toNat_lt
  apply UInt64.toNat_inj.1
  rw [toNat_join64, UInt64.toNat_toUInt32, UInt64.toNat_toUInt32, UInt64.toNat_shiftRight,
    show (32 : UInt64).toNat % 64 = 32 by decide, Nat.shiftRight_eq_div_pow]
  omega

@[simp] theorem high_join64 (hi lo : UInt32) : (join64 hi lo >>> 32).toUInt32 = hi := by
  have hhi := hi.toNat_lt
  have hlo := lo.toNat_lt
  apply UInt32.toNat_inj.1
  rw [UInt64.toNat_toUInt32, UInt64.toNat_shiftRight, toNat_join64,
    show (32 : UInt64).toNat % 64 = 32 by decide, Nat.shiftRight_eq_div_pow]
  omega

@[simp] theorem low_join64 (hi lo : UInt32) : (join64 hi lo).toUInt32 = lo := by
  have hlo := lo.toNat_lt
  apply UInt32.toNat_inj.1
  rw [UInt64.toNat_toUInt32, toNat_join64]
  omega

@[simp] theorem low_masked (x : UInt64) : (x &&& 0xFFFFFFFF).toUInt32 = x.toUInt32 := by
  rw [UInt64.toUInt32_and, show (0xFFFFFFFF : UInt64).toUInt32 = -1 by decide]
  simp

/-! ## Integers in memory -/

section Memory

variable (host : ByteOrder)

theorem load16_store16 (x : UInt16) :
    ∃ a b, store16 host x = [a, b] ∧ load16 host a b = x := by
  cases host with
  | big => exact ⟨_, _, rfl, ofBe16_bytes x⟩
  | little => exact ⟨_, _, rfl, ofBe16_bytes x⟩

theorem store16_load16 (a b : UInt8) : store16 host (load16 host a b) = [a, b] := by
  cases host with
  | big => exact be16_ofBe16 a b
  | little => rw [store16, load16, be16_ofBe16]; rfl

theorem load32_store32 (x : UInt32) :
    ∃ a b c d, store32 host x = [a, b, c, d] ∧ load32 host a b c d = x := by
  cases host with
  | big => exact ⟨_, _, _, _, rfl, ofBe32_bytes x⟩
  | little => exact ⟨_, _, _, _, rfl, ofBe32_bytes x⟩

theorem store32_load32 (a b c d : UInt8) :
    store32 host (load32 host a b c d) = [a, b, c, d] := by
  cases host with
  | big => exact be32_ofBe32 a b c d
  | little => rw [store32, load32, be32_ofBe32]; rfl

theorem load64_store64 (x : UInt64) :
    ∃ a b c d e f g h, store64 host x = [a, b, c, d, e, f, g, h] ∧
      load64 host a b c d e f g h = x := by
  have hjoin : join64 (ofBe32 (((x >>> 32).toUInt32) >>> 24).toUInt8
        (((x >>> 32).toUInt32) >>> 16).toUInt8 (((x >>> 32).toUInt32) >>> 8).toUInt8
        ((x >>> 32).toUInt32).toUInt8)
      (ofBe32 (x.toUInt32 >>> 24).toUInt8 (x.toUInt32 >>> 16).toUInt8 (x.toUInt32 >>> 8).toUInt8
        x.toUInt32.toUInt8) = x := by
    rw [ofBe32_bytes, ofBe32_bytes, join64_halves]
  cases host with
  | big => exact ⟨_, _, _, _, _, _, _, _, rfl, hjoin⟩
  | little => exact ⟨_, _, _, _, _, _, _, _, rfl, hjoin⟩

theorem store64_load64 (a b c d e f g h : UInt8) :
    store64 host (load64 host a b c d e f g h) = [a, b, c, d, e, f, g, h] := by
  cases host with
  | big =>
    rw [store64, load64, be64, high_join64, low_join64, be32_ofBe32, be32_ofBe32]
    rfl
  | little =>
    rw [store64, load64, be64, high_join64, low_join64, be32_ofBe32, be32_ofBe32]
    rfl

/-! ## Converting twice -/

theorem ntohsC_htonsC (x : UInt16) : ntohsC host (htonsC host x) = x := by
  obtain ⟨a, b, hstore, hload⟩ := load16_store16 host (htonsC host x)
  rw [store16_htonsC, be16, List.cons.injEq, List.cons.injEq] at hstore
  rw [← hload, ntohsC_load16, ← hstore.1, ← hstore.2.1, ofBe16_bytes]

theorem ntohlC_htonlC (x : UInt32) : ntohlC host (htonlC host x) = x := by
  obtain ⟨a, b, c, d, hstore, hload⟩ := load32_store32 host (htonlC host x)
  simp only [store32_htonlC, be32, List.cons.injEq, and_true] at hstore
  obtain ⟨rfl, rfl, rfl, rfl⟩ := hstore
  rw [← hload, ntohlC_load32, ofBe32_bytes]

theorem ntohll_htonll (x : UInt64) : ntohll host (htonll host x) = x := by
  have hswap := ntohlC_htonlC .little
  simp only [ntohlC] at hswap
  cases host with
  | big => rfl
  | little =>
    simp only [ntohll, htonll, isBigEndian_little, Bool.false_eq_true, if_false, low_masked,
      high_join64, low_join64, hswap]
    exact join64_halves x

/-! ## Hosts of different byte order

What one host has stored the other one loads with its bytes swapped. -/

variable {host} {host' : ByteOrder}

/-- It is enough that swapping twice changes nothing, and that swapping once turns the one order into
the other. -/
theorem store_other {α : Type} {store : ByteOrder → α → Bytes} {swap : α → α}
    (htwice : ∀ x, swap (swap x) = x) (hswap : ∀ x, store .little (swap x) = store .big x)
    (hne : host' ≠ host) (x : α) : store host x = store host' (swap x) := by
  rcases host with _ | _ <;> rcases host' with _ | _
  · exact absurd rfl hne
  · rw [← hswap, htwice]
  · exact (hswap x).symm
  · exact absurd rfl hne

theorem store16_other (hne : host' ≠ host) (x : UInt16) :
    store16 host x = store16 host' (htonsC .little x) :=
  store_other (ntohsC_htonsC .little) (store16_htonsC .little) hne x

theorem store32_other (hne : host' ≠ host) (x : UInt32) :
    store32 host x = store32 host' (htonlC .little x) :=
  store_other (ntohlC_htonlC .little) (store32_htonlC .little) hne x

theorem store64_htonll (host : ByteOrder) (x : UInt64) : store64 host (htonll host x) = be64 x := by
  cases host with
  | big => rfl
  | little =>
    have hlow := store32_htonlC .little x.toUInt32
    have hhigh := store32_htonlC .little (x >>> 32).toUInt32
    rw [store32] at hlow hhigh
    simp only [store64, be64, htonll, isBigEndian_little, Bool.false_eq_true, if_false, low_masked,
      high_join64, low_join64, List.reverse_append, hlow, hhigh]

theorem store64_other (hne : host' ≠ host) (x : UInt64) :
    store64 host x = store64 host' (htonll .little x) :=
  store_other (ntohll_htonll .little) (store64_htonll .little) hne x

variable (host)

/-! ## The integers as records -/

/-- 16 bits in the memory of a host. -/
def int16 : Codec UInt8 UInt16 where
  write x := store16 host x
  read s :=
    match s with
    | a :: b :: s => some (load16 host a b, s)
    | _ => none
  read_write x s := by
    obtain ⟨a, b, hstore, hload⟩ := load16_store16 host x
    rw [hstore, ← hload]
    rfl
  of_read {s x t} h := by
    split at h
    · cases h
      rw [store16_load16]
      rfl
    · cases h
  write_ne_nil x h := by
    obtain ⟨a, b, hstore, -⟩ := load16_store16 host x
    rw [hstore] at h
    cases h

/-- 32 bits in the memory of a host. -/
def int32 : Codec UInt8 UInt32 where
  write x := store32 host x
  read s :=
    match s with
    | a :: b :: c :: d :: s => some (load32 host a b c d, s)
    | _ => none
  read_write x s := by
    obtain ⟨a, b, c, d, hstore, hload⟩ := load32_store32 host x
    rw [hstore, ← hload]
    rfl
  of_read {s x t} h := by
    split at h
    · cases h
      rw [store32_load32]
      rfl
    · cases h
  write_ne_nil x h := by
    obtain ⟨a, b, c, d, hstore, -⟩ := load32_store32 host x
    rw [hstore] at h
    cases h

/-- 64 bits in the memory of a host. -/
def int64 : Codec UInt8 UInt64 where
  write x := store64 host x
  read s :=
    match s with
    | a :: b :: c :: d :: e :: f :: g :: h :: s => some (load64 host a b c d e f g h, s)
    | _ => none
  read_write x s := by
    obtain ⟨a, b, c, d, e, f, g, h, hstore, hload⟩ := load64_store64 host x
    rw [hstore, ← hload]
    rfl
  of_read {s x t} h := by
    split at h
    · cases h
      rw [store64_load64]
      rfl
    · cases h
  write_ne_nil x h := by
    obtain ⟨a, b, c, d, e, f, g, i, hstore, -⟩ := load64_store64 host x
    rw [hstore] at h
    cases h

end Memory

end Lucp.MLog
