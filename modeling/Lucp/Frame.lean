import Lucp.ByteOrder
import Lucp.General.CArray

/-!
# LUCP frames: `lucp_frame_t`, pack, unpack and make

The frame object of `lucp.h` and the three functions of `lucp.c` that work on it, field by field and
in the order of the source.  Every copy is a `CArray.blit` at the offset the source uses; the
`int` results are `Int`s.  Pointer arguments are the objects they point to, so the `NULL` branches,
which touch nothing and return `-1`, have no counterpart; the one pointer the source allows to be
`NULL`, the text of `lucp_frame_make`, is an `Option`.  Log lines are left out.

A frame object that a receiver reuses keeps old text behind its current length, so two objects that
carry the same message need not be equal.  `LucpFrame.Valid` is what a sender has to respect.
-/

set_option autoImplicit false

namespace Lucp

open CArray

/-! ## The constants of the protocol -/

/-- `LUCP_MAGIC`, the four characters `LUCP`. -/
def lucpMagic : UInt32 := 0x4C554350

/-- `LUCP_VER_MAJOR`. -/
def lucpVerMajor : UInt8 := 1

/-- `LUCP_VER_MINOR`. -/
def lucpVerMinor : UInt8 := 0

/-- `LUCP_MAX_TEXTINFO_LEN`. -/
def lucpMaxTextinfoLen : ℕ := 1010

/-- The message types the code below uses. -/
def lucpMtypUploadRequest : UInt8 := 0x01
def lucpMtypAckStart : UInt8 := 0x02
def lucpMtypNotifyDone : UInt8 := 0x03
def lucpMtypFtpLoginResult : UInt8 := 0x04
def lucpMtypFtpDownloadResult : UInt8 := 0x05

/-- The status codes the code below uses. -/
def lucpStatFailed : UInt8 := 0x00
def lucpStatSuccess : UInt8 := 0x01
def lucpStatArchiveFailed : UInt8 := 0x10
def lucpStatFtpUploadFailed : UInt8 := 0x11

/-! ## The frame object -/

/-- `lucp_frame_t`. -/
structure LucpFrame where
  magic : UInt32
  versionMajor : UInt8
  versionMinor : UInt8
  seqNum : UInt32
  msgType : UInt8
  status : UInt8
  textInfoLen : UInt16
  textInfo : CArray UInt8 lucpMaxTextinfoLen
  deriving DecidableEq

/-- The text the frame carries: the first `textInfo_len` bytes of the array. -/
def LucpFrame.text (f : LucpFrame) : Bytes := f.textInfo.toList.take f.textInfoLen.toNat

theorem LucpFrame.length_text {f : LucpFrame} (h : f.textInfoLen.toNat ≤ lucpMaxTextinfoLen) :
    f.text.length = f.textInfoLen.toNat := by
  rw [text, List.length_take, f.textInfo.length_eq, Nat.min_eq_left h]

/-- What a frame must satisfy to be sent as it is. -/
structure LucpFrame.Valid (f : LucpFrame) : Prop where
  magic : f.magic = lucpMagic
  len : f.textInfoLen.toNat ≤ lucpMaxTextinfoLen

/-- A frame object as `memset` leaves it. -/
def LucpFrame.zero : LucpFrame := ⟨0, 0, 0, 0, 0, 0, 0, CArray.fill _ 0⟩

/-! ## The three functions -/

/-- `lucp_frame_pack(frame, buf, buflen)`: the result and what the buffer then holds.  The length
test on the buffer comes before the one on the text. -/
def lucpFramePack (host : ByteOrder) (frame : LucpFrame) (buf : Bytes) : Int × Bytes :=
  if buf.length < 14 + frame.textInfoLen.toNat then (-1, buf)
  else if frame.textInfoLen.toNat > lucpMaxTextinfoLen then (-1, buf)
  else
    let magic := htonlC host frame.magic
    let seq := htonlC host frame.seqNum
    let plen := htonsC host frame.textInfoLen
    let buf := blit buf 0 (store32 host magic)
    let buf := blit buf 4 [frame.versionMajor]
    let buf := blit buf 5 [frame.versionMinor]
    let buf := blit buf 6 (store32 host seq)
    let buf := blit buf 10 [frame.msgType]
    let buf := blit buf 11 [frame.status]
    let buf := blit buf 12 (store16 host plen)
    if frame.textInfoLen.toNat > 0 then
      (14 + frame.textInfoLen.toNat,
        blit buf 14 (frame.textInfo.toList.take frame.textInfoLen.toNat))
    else (14, buf)

/-- `buf[i]`. -/
def byteAt (buf : Bytes) (i : ℕ) : UInt8 := buf.getD i 0

/-- `lucp_frame_unpack(frame, buf, buflen)`: the result and what the frame object then holds.  The
header fields are stored before the length is known to be acceptable or the text complete. -/
def lucpFrameUnpack (host : ByteOrder) (frame : LucpFrame) (buf : Bytes) : Int × LucpFrame :=
  if buf.length < 14 then (0, frame)
  else
    let magic := ntohlC host (load32 host (byteAt buf 0) (byteAt buf 1) (byteAt buf 2)
      (byteAt buf 3))
    if magic ≠ lucpMagic then (-1, frame)
    else
      let frame := { frame with
        magic := magic, versionMajor := byteAt buf 4, versionMinor := byteAt buf 5 }
      let seq := load32 host (byteAt buf 6) (byteAt buf 7) (byteAt buf 8) (byteAt buf 9)
      let frame := { frame with
        seqNum := ntohlC host seq, msgType := byteAt buf 10, status := byteAt buf 11 }
      let plen := load16 host (byteAt buf 12) (byteAt buf 13)
      let frame := { frame with textInfoLen := ntohsC host plen }
      if frame.textInfoLen.toNat > lucpMaxTextinfoLen then (-1, frame)
      else if buf.length < 14 + frame.textInfoLen.toNat then (0, frame)
      else
        let frame :=
          if 0 < frame.textInfoLen.toNat ∧ frame.textInfoLen.toNat ≤ lucpMaxTextinfoLen then
            { frame with
              textInfo := frame.textInfo.write 0 ((buf.drop 14).take frame.textInfoLen.toNat) }
          else frame
        (14 + frame.textInfoLen.toNat, frame)

/-- `lucp_frame_make(frame, seq, msgType, status, textInfo, textInfo_len)`, where `textInfo` are the
bytes readable at the pointer. -/
def lucpFrameMake (frame : LucpFrame) (seq : UInt32) (msgType status : UInt8)
    (textInfo : Option Bytes) (textInfoLen : UInt16) : LucpFrame :=
  let textInfoLen :=
    if textInfoLen.toNat > lucpMaxTextinfoLen then UInt16.ofNat lucpMaxTextinfoLen else textInfoLen
  let frame := { frame with
    magic := lucpMagic, versionMajor := lucpVerMajor, versionMinor := lucpVerMinor, seqNum := seq,
    msgType := msgType, status := status, textInfoLen := textInfoLen }
  match textInfo with
  | some text =>
    if textInfoLen.toNat > 0 then
      { frame with textInfo := frame.textInfo.write 0 (text.take textInfoLen.toNat) }
    else frame
  | none => frame

/-! ## What pack writes -/

/-- The bytes `lucp_frame_pack` writes for a frame. -/
def LucpFrame.encode (f : LucpFrame) : Bytes :=
  be32 f.magic ++ [f.versionMajor] ++ [f.versionMinor] ++ be32 f.seqNum ++ [f.msgType] ++
    [f.status] ++ be16 f.textInfoLen ++ f.text

theorem LucpFrame.length_encode {f : LucpFrame} (h : f.textInfoLen.toNat ≤ lucpMaxTextinfoLen) :
    f.encode.length = 14 + f.textInfoLen.toNat := by
  simp [encode, be32, be16, length_text h]
  omega

/-- **Pack writes the encoding to the front of the buffer and nothing else**, and returns its
length, whatever the byte order of the host. -/
theorem lucpFramePack_ok (host : ByteOrder) {f : LucpFrame} {buf : Bytes}
    (hlen : f.textInfoLen.toNat ≤ lucpMaxTextinfoLen)
    (hbuf : 14 + f.textInfoLen.toNat ≤ buf.length) :
    lucpFramePack host f buf
      = (14 + (f.textInfoLen.toNat : ℤ), f.encode ++ buf.drop (14 + f.textInfoLen.toNat)) := by
  have hfit : ∀ k, k ≤ 14 → k ≤ buf.length := fun k hk => by omega
  -- each field goes right behind the ones before it, so the copies are one copy
  have h1 := blit_blit buf 0 (be32 f.magic) [f.versionMajor] (by simp [be32]; omega)
  have h2 := blit_blit buf 0 (be32 f.magic ++ [f.versionMajor]) [f.versionMinor]
    (by simp [be32]; omega)
  have h3 := blit_blit buf 0 (be32 f.magic ++ [f.versionMajor] ++ [f.versionMinor])
    (be32 f.seqNum) (by simp [be32]; omega)
  have h4 := blit_blit buf 0
    (be32 f.magic ++ [f.versionMajor] ++ [f.versionMinor] ++ be32 f.seqNum) [f.msgType]
    (by simp [be32]; omega)
  have h5 := blit_blit buf 0
    (be32 f.magic ++ [f.versionMajor] ++ [f.versionMinor] ++ be32 f.seqNum ++ [f.msgType])
    [f.status] (by simp [be32]; omega)
  have h6 := blit_blit buf 0
    (be32 f.magic ++ [f.versionMajor] ++ [f.versionMinor] ++ be32 f.seqNum ++ [f.msgType] ++
      [f.status]) (be16 f.textInfoLen) (by simp [be32]; omega)
  have h7 := blit_blit buf 0
    (be32 f.magic ++ [f.versionMajor] ++ [f.versionMinor] ++ be32 f.seqNum ++ [f.msgType] ++
      [f.status] ++ be16 f.textInfoLen) f.text (by simp [be32, be16]; omega)
  simp only [be32, be16, List.length_append, List.length_cons, List.length_nil, Nat.zero_add,
    Nat.reduceAdd] at h1 h2 h3 h4 h5 h6 h7
  rw [lucpFramePack, if_neg (by omega), if_neg (by omega)]
  simp only [store32_htonlC, store16_htonsC, be32, be16, h1, h2, h3, h4, h5, h6]
  have henc := LucpFrame.length_encode hlen
  split
  · next hpos =>
    rw [← LucpFrame.text, h7, ← be32, ← be32, ← be16, ← LucpFrame.encode, blit_zero, henc]
  · next hpos =>
    have hz : f.textInfoLen.toNat = 0 := by omega
    have ht : f.text = [] := by rw [LucpFrame.text, hz, List.take_zero]
    rw [blit_zero, LucpFrame.encode, ht, List.append_nil, hz]
    rfl

end Lucp
