import Mathlib.Tactic.IntervalCases

/-!
# Host and network byte order

`lucp.c` finds out the byte order of its host by looking at the first byte of a four-byte integer
in memory, and swaps with shifts and masks if it is little-endian.  A frame crosses from one host
to another, so the byte order is a parameter here: `ByteOrder` says how a host lays an integer out
in memory, `store32`/`load32` and `store16`/`load16` are the `memcpy`s between an integer and raw
bytes on that host, and `htonlC`, `htonsC` are the two functions of the source.

The file ends in the four facts everything else uses: on either host, converting and storing gives
the big-endian bytes (`store32_htonlC`, `store16_htonsC`), and loading and converting reads them
back (`ntohlC_load32`, `ntohsC_load16`).
-/

set_option autoImplicit false

namespace Lucp

/-- A C string or memory area, as the list of its bytes. -/
abbrev Bytes := List UInt8

/-- The characters of a text. -/
def textBytes (s : String) : Bytes := s.toList.map fun c => c.toNat.toUInt8

/-- How a host lays out the bytes of an integer in memory. -/
inductive ByteOrder
  | little
  | big
  deriving DecidableEq, Repr

/-! ## Integers in memory -/

/-- The four bytes of `x`, most significant first. -/
def be32 (x : UInt32) : Bytes :=
  [(x >>> 24).toUInt8, (x >>> 16).toUInt8, (x >>> 8).toUInt8, x.toUInt8]

/-- The two bytes of `x`, most significant first. -/
def be16 (x : UInt16) : Bytes := [(x >>> 8).toUInt8, x.toUInt8]

/-- The integer whose bytes, most significant first, are the four given ones. -/
def ofBe32 (a b c d : UInt8) : UInt32 :=
  a.toUInt32 <<< 24 ||| b.toUInt32 <<< 16 ||| c.toUInt32 <<< 8 ||| d.toUInt32

/-- The integer whose bytes, most significant first, are the two given ones. -/
def ofBe16 (a b : UInt8) : UInt16 := a.toUInt16 <<< 8 ||| b.toUInt16

/-- `memcpy(dst, &x, 4)`. -/
def store32 : ByteOrder → UInt32 → Bytes
  | .big, x => be32 x
  | .little, x => (be32 x).reverse

/-- `memcpy(dst, &x, 2)`. -/
def store16 : ByteOrder → UInt16 → Bytes
  | .big, x => be16 x
  | .little, x => (be16 x).reverse

/-- `memcpy(&x, src, 4)` for the bytes `a b c d` at `src`. -/
def load32 : ByteOrder → UInt8 → UInt8 → UInt8 → UInt8 → UInt32
  | .big, a, b, c, d => ofBe32 a b c d
  | .little, a, b, c, d => ofBe32 d c b a

/-- `memcpy(&x, src, 2)` for the bytes `a b` at `src`. -/
def load16 : ByteOrder → UInt8 → UInt8 → UInt16
  | .big, a, b => ofBe16 a b
  | .little, a, b => ofBe16 b a

/-! ## Big-endian bytes determine the integer, and the other way round -/

theorem ofBe32_bytes (x : UInt32) :
    ofBe32 (x >>> 24).toUInt8 (x >>> 16).toUInt8 (x >>> 8).toUInt8 x.toUInt8 = x := by
  apply UInt32.toBitVec_inj.1
  ext i hi
  simp [ofBe32, -UInt32.toUInt32_toUInt8]
  interval_cases i <;> simp

theorem ofBe16_bytes (y : UInt16) : ofBe16 (y >>> 8).toUInt8 y.toUInt8 = y := by
  apply UInt16.toBitVec_inj.1
  ext i hi
  simp [ofBe16, -UInt16.toUInt16_toUInt8]
  interval_cases i <;> simp

theorem be32_ofBe32 (a b c d : UInt8) : be32 (ofBe32 a b c d) = [a, b, c, d] := by
  simp only [be32, List.cons.injEq, and_true]
  refine ⟨?_, ?_, ?_, ?_⟩ <;> (apply UInt8.toBitVec_inj.1; ext i hi; simp [ofBe32]) <;>
    interval_cases i <;> simp

theorem be16_ofBe16 (a b : UInt8) : be16 (ofBe16 a b) = [a, b] := by
  simp only [be16, List.cons.injEq, and_true]
  constructor <;> (apply UInt8.toBitVec_inj.1; ext i hi; simp [ofBe16])
  interval_cases i <;> simp

/-! ## The conversions of the source -/

/-- `is_big_endian`: the first byte in memory of the union's `0x01020304`. -/
def isBigEndian (host : ByteOrder) : Bool := (store32 host 0x01020304).head? == some 0x01

/-- `htonl_c`. -/
def htonlC (host : ByteOrder) (host32 : UInt32) : UInt32 :=
  if isBigEndian host then host32
  else
    ((host32 &&& 0xFF000000) >>> 24) ||| ((host32 &&& 0x00FF0000) >>> 8) |||
      ((host32 &&& 0x0000FF00) <<< 8) ||| ((host32 &&& 0x000000FF) <<< 24)

/-- `ntohl_c`. -/
def ntohlC (host : ByteOrder) (net32 : UInt32) : UInt32 := htonlC host net32

/-- `htons_c`.  The shifts happen on an `int`, so the high byte survives `host16 << 8` until the
cast back to 16 bits drops it. -/
def htonsC (host : ByteOrder) (host16 : UInt16) : UInt16 :=
  if isBigEndian host then host16
  else ((host16.toUInt32 >>> 8) ||| (host16.toUInt32 <<< 8)).toUInt16

/-- `ntohs_c`. -/
def ntohsC (host : ByteOrder) (net16 : UInt16) : UInt16 := htonsC host net16

@[simp] theorem isBigEndian_big : isBigEndian .big = true := by decide

@[simp] theorem isBigEndian_little : isBigEndian .little = false := by decide

/-! ## On the wire the host does not show -/

section Swap

variable (x : UInt32) (y : UInt16)

/-- The swap of `htonl_c` moves byte 3 to byte 0, and so on. -/
private theorem swap32_byte0 : (htonlC .little x).toUInt8 = (x >>> 24).toUInt8 := by
  apply UInt8.toBitVec_inj.1
  ext i hi
  simp [htonlC]
  interval_cases i <;> simp

private theorem swap32_byte1 : (htonlC .little x >>> 8).toUInt8 = (x >>> 16).toUInt8 := by
  apply UInt8.toBitVec_inj.1
  ext i hi
  simp [htonlC]
  interval_cases i <;> simp

private theorem swap32_byte2 : (htonlC .little x >>> 16).toUInt8 = (x >>> 8).toUInt8 := by
  apply UInt8.toBitVec_inj.1
  ext i hi
  simp [htonlC]
  interval_cases i <;> simp

private theorem swap32_byte3 : (htonlC .little x >>> 24).toUInt8 = x.toUInt8 := by
  apply UInt8.toBitVec_inj.1
  ext i hi
  simp [htonlC]
  interval_cases i <;> simp

private theorem swap16_byte0 : (htonsC .little y).toUInt8 = (y >>> 8).toUInt8 := by
  apply UInt8.toBitVec_inj.1
  ext i hi
  simp [htonsC]
  interval_cases i <;> simp

private theorem swap16_byte1 : (htonsC .little y >>> 8).toUInt8 = y.toUInt8 := by
  apply UInt8.toBitVec_inj.1
  ext i hi
  simp [htonsC]
  interval_cases i <;> simp

end Swap

/-- **Converting and storing gives the big-endian bytes**, on either host. -/
theorem store32_htonlC (host : ByteOrder) (x : UInt32) : store32 host (htonlC host x) = be32 x := by
  cases host with
  | big => simp [store32, htonlC]
  | little =>
    simp only [store32, be32, List.reverse_cons, List.reverse_nil, List.nil_append,
      List.cons_append, swap32_byte0, swap32_byte1, swap32_byte2, swap32_byte3]

theorem store16_htonsC (host : ByteOrder) (y : UInt16) : store16 host (htonsC host y) = be16 y := by
  cases host with
  | big => simp [store16, htonsC]
  | little =>
    simp only [store16, be16, List.reverse_cons, List.reverse_nil, List.nil_append,
      List.cons_append, swap16_byte0, swap16_byte1]

private theorem swap32_ofBe32 (a b c d : UInt8) :
    htonlC .little (ofBe32 d c b a) = ofBe32 a b c d := by
  have h := be32_ofBe32 d c b a
  simp only [be32, List.cons.injEq, and_true] at h
  rw [← ofBe32_bytes (htonlC .little _), swap32_byte0, swap32_byte1, swap32_byte2, swap32_byte3,
    h.1, h.2.1, h.2.2.1, h.2.2.2]

private theorem swap16_ofBe16 (a b : UInt8) : htonsC .little (ofBe16 b a) = ofBe16 a b := by
  have h := be16_ofBe16 b a
  simp only [be16, List.cons.injEq, and_true] at h
  rw [← ofBe16_bytes (htonsC .little _), swap16_byte0, swap16_byte1, h.1, h.2]

/-- **Loading and converting reads big-endian bytes**, on either host. -/
theorem ntohlC_load32 (host : ByteOrder) (a b c d : UInt8) :
    ntohlC host (load32 host a b c d) = ofBe32 a b c d := by
  cases host with
  | big => simp [ntohlC, load32, htonlC]
  | little => exact swap32_ofBe32 a b c d

theorem ntohsC_load16 (host : ByteOrder) (a b : UInt8) :
    ntohsC host (load16 host a b) = ofBe16 a b := by
  cases host with
  | big => simp [ntohsC, load16, htonsC]
  | little => exact swap16_ofBe16 a b

end Lucp
