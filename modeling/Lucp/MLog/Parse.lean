import Lucp.MLog.Serialize

/-!
# Frames as they are received

`log_frame_parse()` copies the header out of the received bytes, converts its fields, checks them,
and then takes the records one after the other and puts each one it knows into the new frame with
`log_frame_add_tlv()`.  Two things follow from what it does *not* do: the sender has not converted
`payload_len` and the message type, although the receiver converts the first and reads the second
as its own; and `payload_len` is not set back to zero before the records are counted into it again.

## What is here

* `logFrameParse` — the function.
* `foldlM_takeTlv` — what the loop over the records does, as long as 16 bits count the frame.
* `parse_eq_some_iff` — **what is accepted**: the header and the records, written one behind the
  other, if there is room for the header, for all records, and for those of known types once more.
* `transport_eq` — **what becomes of a frame that calls have built**, serialised on one host and
  parsed on another.
* `reserialize_parsed` — what becomes of a received frame that is serialised again.
-/

set_option autoImplicit false

namespace Lucp.MLog

open Records

/-! ## The function -/

/-- The conversions of `log_frame_parse()`. -/
def convertHeader (host : ByteOrder) (h : FrameHeader) : FrameHeader :=
  { h with
    magic := ntohlC host h.magic
    sequence := ntohsC host h.sequence
    timestampSec := ntohll host h.timestampSec
    timestampMs := ntohsC host h.timestampMs
    payloadLen := ntohsC host h.payloadLen }

/-- `log_protocol_check_version()`; another minor version it only mentions. -/
def logProtocolCheckVersion (header : FrameHeader) : LogProtocolError :=
  if header.majorVersion ≠ majorVersion then .versionMismatch else .success

theorem logProtocolCheckVersion_iff {header : FrameHeader} :
    logProtocolCheckVersion header = .success ↔ header.majorVersion = majorVersion := by
  rw [logProtocolCheckVersion]
  split_ifs with h
  · exact ⟨fun heq => heq.elim, fun heq => absurd heq h⟩
  · exact ⟨fun _ => not_not.1 h, fun _ => rfl⟩

/-- A record as the frame keeps it, if its type is known. -/
def RawTlv.known? (r : RawTlv) : Option Tlv :=
  (TlvType.ofCode r.code).map fun type => ⟨type, r.value, r.fits⟩

/-- One round of the loop: a record of unknown type is skipped, another one is added. -/
def takeTlv (frame : LogFrame) (r : RawTlv) : Option LogFrame :=
  match TlvType.ofCode r.code with
  | none => some frame
  | some type =>
    if (logFrameAddTlv frame type r.value).1 = .success then
      some (logFrameAddTlv frame type r.value).2
    else none

/-- `log_frame_parse()`.  The header cannot be read off fewer than its 25 bytes. -/
def logFrameParse (host : ByteOrder) (config : LogProtocolConfig) (data : Bytes) :
    Option LogFrame :=
  if config.maxFrameSize < data.length then none
  else
    ((headerCodec host).read data).bind fun p =>
      let header := convertHeader host p.1
      if header.magic ≠ magic then none
      else if logProtocolCheckVersion header ≠ .success then none
      else if data.length ≠ headerSize + header.payloadLen.toNat then none
      else
        ((tlvCodec host).feed takeTlv data.length ⟨header, [], [], config.maxFrameSize⟩ p.2).bind
          fun frame =>
            if logFrameValidateTlvs frame = .success then some { frame with rawData := data }
            else none

/-! ## The loop -/

/-- The records whose types are known. -/
def knownTlvs (rs : List RawTlv) : List Tlv := rs.filterMap RawTlv.known?

/-- The frame with more records. -/
def LogFrame.pushAll (frame : LogFrame) (ts : List Tlv) : LogFrame :=
  { frame with
    header :=
      { frame.header with
        payloadLen := UInt16.ofNat (frame.header.payloadLen.toNat + payloadSize ts) }
    tlvs := frame.tlvs ++ ts }

@[simp] theorem pushAll_nil (frame : LogFrame) : frame.pushAll [] = frame := by
  simp [LogFrame.pushAll]

theorem takeTlv_unknown {frame : LogFrame} {r : RawTlv} (h : r.known? = none) :
    takeTlv frame r = some frame := by
  rw [takeTlv, Option.map_eq_none_iff.1 h]

theorem takeTlv_known {frame : LogFrame} {r : RawTlv} {t : Tlv} (h : r.known? = some t) :
    takeTlv frame r = if frame.HasRoom t.size then some (frame.push t) else none := by
  obtain ⟨type, htype, rfl⟩ := Option.map_eq_some_iff.1 h
  rw [takeTlv, htype]
  dsimp only
  split_ifs with hok hroom hroom
  · rw [logFrameAddTlv_of_room (t := ⟨type, r.value, r.fits⟩) hroom]
  · rw [logFrameAddTlv_of_no_room (t := ⟨type, r.value, r.fits⟩) hroom] at hok
    cases hok
  · rw [logFrameAddTlv_of_room (t := ⟨type, r.value, r.fits⟩) hroom] at hok
    exact absurd rfl hok
  · rfl

/-- Where there is room, 16 bits count it. -/
theorem toNat_push {frame : LogFrame} {t : Tlv} (hmax : frame.maxFrameSize ≤ 65560)
    (hroom : frame.HasRoom t.size) :
    (frame.push t).header.payloadLen.toNat = frame.header.payloadLen.toNat + t.size := by
  have hle : headerSize + (frame.header.payloadLen.toNat + t.size) ≤ frame.maxFrameSize := hroom
  have hcount : (frame.push t).header.payloadLen.toNat
      = (frame.header.payloadLen.toNat + t.size) % 65536 := UInt16.toNat_ofNat'
  rw [headerSize] at hle
  omega

/-- Room behind a record is room for both. -/
theorem hasRoom_push {frame : LogFrame} {t : Tlv} (hmax : frame.maxFrameSize ≤ 65560)
    (hroom : frame.HasRoom t.size) (size : ℕ) :
    (frame.push t).HasRoom size ↔ frame.HasRoom (t.size + size) := by
  rw [LogFrame.HasRoom, LogFrame.HasRoom, toNat_push hmax hroom, Nat.add_assoc _ t.size]
  rfl

theorem push_pushAll {frame : LogFrame} {t : Tlv} (hmax : frame.maxFrameSize ≤ 65560)
    (hroom : frame.HasRoom t.size) (ts : List Tlv) :
    (frame.push t).pushAll ts = frame.pushAll (t :: ts) := by
  rw [LogFrame.pushAll, toNat_push hmax hroom, LogFrame.pushAll, payloadSize_cons, ← Nat.add_assoc]
  simp [LogFrame.push]

/-- **The loop**: there is room for all known records, or it fails. -/
theorem foldlM_takeTlv {frame : LogFrame} (hmax : frame.maxFrameSize ≤ 65560)
    (hzero : frame.HasRoom 0) (rs : List RawTlv) :
    rs.foldlM takeTlv frame
      = if frame.HasRoom (payloadSize (knownTlvs rs)) then some (frame.pushAll (knownTlvs rs))
        else none := by
  induction rs generalizing frame with
  | nil =>
    show some frame = if frame.HasRoom 0 then some (frame.pushAll []) else none
    rw [if_pos hzero, pushAll_nil]
  | cons r rs ih =>
    rw [List.foldlM_cons]
    cases hr : r.known? with
    | none =>
      have hknown : knownTlvs (r :: rs) = knownTlvs rs := List.filterMap_cons_none hr
      rw [takeTlv_unknown hr, hknown]
      exact ih hmax hzero
    | some t =>
      have hknown : knownTlvs (r :: rs) = t :: knownTlvs rs := List.filterMap_cons_some hr
      rw [takeTlv_known hr, hknown, payloadSize_cons]
      by_cases hroom : frame.HasRoom t.size
      · have hzero' : (frame.push t).HasRoom 0 := (hasRoom_push hmax hroom 0).2 hroom
        rw [if_pos hroom, Option.bind_eq_bind, Option.bind_some, @ih (frame.push t) hmax hzero',
          push_pushAll hmax hroom]
        simp only [hasRoom_push hmax hroom]
      · have hnot : ¬ frame.HasRoom (t.size + payloadSize (knownTlvs rs)) := by
          rw [LogFrame.HasRoom] at hroom ⊢
          omega
        rw [if_neg hroom, if_neg hnot]
        rfl

/-- The loop leaves the message type alone. -/
theorem mtyp_foldlM {frame f : LogFrame} {rs : List RawTlv}
    (h : rs.foldlM takeTlv frame = some f) : f.header.mtyp = frame.header.mtyp := by
  induction rs generalizing frame with
  | nil => rw [← Option.some.inj h]
  | cons r rs ih =>
    rw [List.foldlM_cons] at h
    obtain ⟨g, hg, hrest⟩ := Option.bind_eq_some_iff.1 h
    refine (ih hrest).trans ?_
    cases hr : r.known? with
    | none => rw [← Option.some.inj ((takeTlv_unknown hr).symm.trans hg)]
    | some t =>
      rw [takeTlv_known hr] at hg
      split_ifs at hg
      rw [← Option.some.inj hg]
      rfl

/-! ## What is accepted -/

/-- What is parsed is records behind a header that passes the checks. -/
theorem logFrameParse_eq_some_iff {host : ByteOrder} {config : LogProtocolConfig} {data : Bytes}
    {frame : LogFrame} :
    logFrameParse host config data = some frame ↔
      ∃ h rs f, data = (headerCodec host).write h ++ (tlvCodec host).writeAll rs ∧
        data.length ≤ config.maxFrameSize ∧ (convertHeader host h).magic = magic ∧
        h.majorVersion = majorVersion ∧
        (convertHeader host h).payloadLen.toNat = ((tlvCodec host).writeAll rs).length ∧
        rs.foldlM takeTlv ⟨convertHeader host h, [], [], config.maxFrameSize⟩ = some f ∧
        logFrameValidateTlvs f = .success ∧ frame = { f with rawData := data } := by
  constructor
  · intro h
    rw [logFrameParse] at h
    split_ifs at h with hlong
    obtain ⟨⟨hd, payload⟩, hread, h⟩ := Option.bind_eq_some_iff.1 h
    dsimp only at h
    split_ifs at h with hmagic hversion hlen
    obtain ⟨f, hfeed, hlast⟩ := Option.bind_eq_some_iff.1 h
    split_ifs at hlast with hvalid
    have hdata := (headerCodec host).of_read hread
    have hpayload : payload.length ≤ data.length := by
      rw [hdata, List.length_append]
      exact Nat.le_add_left _ _
    obtain ⟨rs, rfl, hfold⟩ := (Codec.feed_eq_some_iff hpayload).1 hfeed
    refine ⟨hd, rs, f, hdata, Nat.not_lt.1 hlong, not_not.1 hmagic,
      logProtocolCheckVersion_iff.1 (not_not.1 hversion), ?_, hfold, hvalid,
      (Option.some.inj hlast).symm⟩
    rw [not_not, hdata, List.length_append, length_header] at hlen
    omega
  · rintro ⟨h, rs, f, rfl, hlong, hmagic, hversion, hlen, hfold, hvalid, rfl⟩
    have hcheck : logProtocolCheckVersion (convertHeader host h) = .success :=
      logProtocolCheckVersion_iff.2 hversion
    have hfeed : (tlvCodec host).feed takeTlv
        ((headerCodec host).write h ++ (tlvCodec host).writeAll rs).length
        ⟨convertHeader host h, [], [], config.maxFrameSize⟩ ((tlvCodec host).writeAll rs)
          = some f := by
      rw [Codec.feed_writeAll (by rw [List.length_append]; exact Nat.le_add_left _ _), hfold]
    have htotal : ((headerCodec host).write h ++ (tlvCodec host).writeAll rs).length
        = headerSize + (convertHeader host h).payloadLen.toNat := by
      rw [List.length_append, length_header, hlen]
    rw [logFrameParse, if_neg (Nat.not_lt.2 hlong), (headerCodec host).read_write, Option.bind_some]
    dsimp only
    rw [if_neg (not_not.2 hmagic), if_neg (not_not.2 hcheck), if_neg (not_not.2 htotal), hfeed,
      Option.bind_some, if_pos hvalid]

/-- What the bytes of a header and records are received as. -/
def receivedFrame (host : ByteOrder) (config : LogProtocolConfig) (h : FrameHeader)
    (rs : List RawTlv) : LogFrame where
  header :=
    { convertHeader host h with
      payloadLen := UInt16.ofNat
        (((tlvCodec host).writeAll rs).length + payloadSize (knownTlvs rs)) }
  tlvs := knownTlvs rs
  rawData := (headerCodec host).write h ++ (tlvCodec host).writeAll rs
  maxFrameSize := config.maxFrameSize

/-- What received bytes must be: a header of this protocol that gives their length, and records, of
which those of known types make up a valid frame and leave room for being counted twice. -/
structure Accepts (host : ByteOrder) (config : LogProtocolConfig) (data : Bytes) (h : FrameHeader)
    (rs : List RawTlv) : Prop where
  split : data = (headerCodec host).write h ++ (tlvCodec host).writeAll rs
  marked : (convertHeader host h).magic = magic
  version : h.majorVersion = majorVersion
  measured : (convertHeader host h).payloadLen.toNat = ((tlvCodec host).writeAll rs).length
  room : data.length + payloadSize (knownTlvs rs) ≤ config.maxFrameSize
  valid : logFrameValidateTlvs (receivedFrame host config h rs) = .success

/-- **What is accepted, and as what**, for limits that 16 bits can count up to. -/
theorem parse_eq_some_iff {host : ByteOrder} {config : LogProtocolConfig}
    (hmax : config.maxFrameSize ≤ 65560) {data : Bytes} {frame : LogFrame} :
    logFrameParse host config data = some frame ↔
      ∃ h rs, Accepts host config data h rs ∧ frame = receivedFrame host config h rs := by
  have hgets : ∀ {h rs}, data = (headerCodec host).write h ++ (tlvCodec host).writeAll rs →
      (convertHeader host h).payloadLen.toNat = ((tlvCodec host).writeAll rs).length →
      data.length = headerSize + (convertHeader host h).payloadLen.toNat := by
    intro h rs hdata hlen
    rw [hdata, List.length_append, length_header, hlen]
  rw [logFrameParse_eq_some_iff]
  constructor
  · rintro ⟨h, rs, f, hdata, hlong, hmagic, hversion, hlen, hfold, hvalid, rfl⟩
    have htotal := hgets hdata hlen
    have hzero : LogFrame.HasRoom ⟨convertHeader host h, [], [], config.maxFrameSize⟩ 0 := by
      rw [htotal] at hlong
      exact hlong
    rw [foldlM_takeTlv hmax hzero] at hfold
    split_ifs at hfold with hroom
    have hframe : { f with rawData := data } = receivedFrame host config h rs := by
      rw [← Option.some.inj hfold, LogFrame.pushAll, hlen, hdata]
      rfl
    refine ⟨h, rs, ⟨hdata, hmagic, hversion, hlen, ?_, ?_⟩, hframe⟩
    · rw [htotal, Nat.add_assoc]
      exact hroom
    · rw [← hframe]
      exact hvalid
  · rintro ⟨h, rs, hacc, rfl⟩
    have htotal := hgets hacc.split hacc.measured
    have hroom := hacc.room
    have hlong : data.length ≤ config.maxFrameSize := (Nat.le_add_right _ _).trans hroom
    have hzero : LogFrame.HasRoom ⟨convertHeader host h, [], [], config.maxFrameSize⟩ 0 := by
      rw [htotal] at hlong
      exact hlong
    rw [htotal, Nat.add_assoc] at hroom
    have hroom' : LogFrame.HasRoom ⟨convertHeader host h, [], [], config.maxFrameSize⟩
        (payloadSize (knownTlvs rs)) := hroom
    have hframe : { (LogFrame.pushAll ⟨convertHeader host h, [], [], config.maxFrameSize⟩
        (knownTlvs rs)) with rawData := data } = receivedFrame host config h rs := by
      rw [LogFrame.pushAll, hacc.measured, hacc.split]
      rfl
    refine ⟨h, rs, _, hacc.split, hlong, hacc.marked, hacc.version, hacc.measured,
      (foldlM_takeTlv hmax hzero rs).trans (if_pos hroom'), ?_, hframe.symm⟩
    have hvalid := hacc.valid
    rw [← hframe] at hvalid
    exact hvalid

/-- The request of an application `a` on a big-endian host. -/
def requestBytes : Bytes :=
  [0xDE, 0xAD, 0xBE, 0xEF, 0x01, 0x00, 0x00, 0x01, 0x00, 0x00, 0x00, 0x00, 0x00, 0x00, 0x00, 0x00,
    0x00, 0x00, 0x00, 0x00, 0x00, 0x01, 0x00, 0x00, 0x05, 0x01, 0x00, 0x02, 0x61, 0x00]

/-- The header as a host of the other byte order has it in memory. -/
def FrameHeader.swapped (h : FrameHeader) : FrameHeader :=
  { h with
    magic := htonlC .little h.magic
    sequence := htonsC .little h.sequence
    timestampSec := htonll .little h.timestampSec
    timestampMs := htonsC .little h.timestampMs
    mtyp := htonlC .little h.mtyp
    payloadLen := htonsC .little h.payloadLen }

theorem write_header_other {host host' : ByteOrder} (hne : host' ≠ host) (h : FrameHeader) :
    (headerCodec host).write h = (headerCodec host').write h.swapped := by
  show store32 host h.magic ++ ([h.majorVersion] ++ ([h.minorVersion] ++ (store16 host h.sequence
      ++ (store64 host h.timestampSec ++ (store16 host h.timestampMs ++ (store32 host h.mtyp
      ++ ([h.statusCode] ++ store16 host h.payloadLen))))))) = _
  rw [store32_other hne h.magic, store16_other hne h.sequence, store64_other hne,
    store16_other hne h.timestampMs, store32_other hne h.mtyp, store16_other hne h.payloadLen]
  rfl

/-- A message type that the sender stores in the other byte order is none, or the undefined one. -/
theorem ofCode_swapped (m : MessageType) :
    MessageType.ofCode (htonlC .little m.code) = none ∨
      MessageType.ofCode (htonlC .little m.code) = some .undefined := by
  cases m <;> decide

theorem toNat_ofBe16 (a b : UInt8) : (ofBe16 a b).toNat = a.toNat * 256 + b.toNat := by
  have ha := a.toNat_lt
  have hb := b.toNat_lt
  have hshift : a.toNat <<< 8 = 2 ^ 8 * a.toNat := by rw [Nat.shiftLeft_eq, Nat.mul_comm]
  rw [ofBe16, UInt16.toNat_or, UInt16.toNat_shiftLeft, UInt8.toNat_toUInt16, UInt8.toNat_toUInt16,
    show (8 : UInt16).toNat % 16 = 8 by decide, hshift, Nat.mod_eq_of_lt (by omega),
    ← Nat.two_pow_add_eq_or_of_lt hb]
  omega

/-- Converting an integer on a little-endian host swaps its bytes. -/
theorem ntohsC_little_eq_iff (x : UInt16) : ntohsC .little x = x ↔ 257 ∣ x.toNat := by
  have hx : x = ofBe16 (x >>> 8).toUInt8 x.toUInt8 := (ofBe16_bytes x).symm
  generalize (x >>> 8).toUInt8 = a at hx
  generalize x.toUInt8 = b at hx
  have hswap : ntohsC .little (ofBe16 a b) = ofBe16 b a := ntohsC_load16 .little b a
  have ha := a.toNat_lt
  have hb := b.toNat_lt
  rw [hx, hswap, ← UInt16.toNat_inj, toNat_ofBe16, toNat_ofBe16]
  omega

/-- Whether a host reads the length of a frame that it has sent itself. -/
theorem ntohsC_eq_iff (host : ByteOrder) (x : UInt16) :
    ntohsC host x = x ↔ host = .big ∨ 257 ∣ x.toNat := by
  cases host with
  | big => exact ⟨fun _ => .inl rfl, fun _ => rfl⟩
  | little =>
    rw [ntohsC_little_eq_iff]
    exact ⟨.inr, fun h => h.elim (fun h => ByteOrder.noConfusion h) id⟩

theorem knownTlvs_raw (ts : List Tlv) : knownTlvs (ts.map Tlv.raw) = ts := by
  have hknown : ∀ t : Tlv, t.raw.known? = some t := fun t => by
    rw [RawTlv.known?, Tlv.raw, TlvType.ofCode_code]
    rfl
  induction ts with
  | nil => rfl
  | cons t ts ih =>
    rw [List.map_cons, knownTlvs, List.filterMap_cons_some (hknown t)]
    exact congrArg (t :: ·) ih

theorem writeAll_raw (host : ByteOrder) (ts : List Tlv) :
    (tlvCodec host).writeAll (ts.map Tlv.raw) = ts.flatMap (tlvBytes host) :=
  List.flatMap_map ..

/-- Whether a frame is valid depends on its type and its records. -/
theorem validate_congr {f g : LogFrame} (hmtyp : f.header.mtyp = g.header.mtyp)
    (htlvs : f.tlvs = g.tlvs) : logFrameValidateTlvs f = logFrameValidateTlvs g := by
  have hfind : ∀ type, logFrameFindTlv f type = logFrameFindTlv g type := fun type => by
    rw [logFrameFindTlv, logFrameFindTlv, htlvs]
  rw [logFrameValidateTlvs, logFrameValidateTlvs, hmtyp]
  congr 1
  funext m
  simp only [validateTlvs, htlvs, hfind]

/-- Calls change nothing of the header but the length. -/
theorem header_callAll (host : ByteOrder) (block : (n : ℕ) → CArray UInt8 n) (frame : LogFrame)
    (calls : List FrameCall) :
    (callAll host block frame calls).header
      = { frame.header with
          payloadLen := (callAll host block frame calls).header.payloadLen } :=
  callAll_keeps
    (P := fun f => f.header = { frame.header with payloadLen := f.header.payloadLen })
    (fun f t hf _ => by rw [LogFrame.push, hf]) (fun f raw hf => hf) rfl calls

/-- What a valid frame says its type is. -/
theorem ofCode_of_valid {frame : LogFrame} (h : logFrameValidateTlvs frame = .success) :
    ∃ m, MessageType.ofCode frame.header.mtyp = some m ∧ m ≠ .undefined := by
  rw [logFrameValidateTlvs] at h
  cases hm : MessageType.ofCode frame.header.mtyp with
  | none =>
    rw [hm] at h
    cases h
  | some m =>
    refine ⟨m, rfl, ?_⟩
    rintro rfl
    rw [hm] at h
    cases h

/-- The conversions undo those of `log_frame_create()`. -/
theorem convertHeader_newHeader (host : ByteOrder) (mtyp : MessageType) (sequence : UInt16)
    (statusCode : UInt8) (now : LogTimestamp) (len : UInt16) :
    convertHeader host { newHeader host mtyp sequence statusCode now with payloadLen := len }
      = ⟨magic, majorVersion, minorVersion, sequence, now.seconds, now.milliseconds, mtyp.code,
          statusCode, ntohsC host len⟩ := by
  simp only [convertHeader, newHeader, ntohlC_htonlC, ntohsC_htonsC, ntohll_htonll]

/-- What a frame is read as where it comes from is what it was written as. -/
theorem read_wire {host : ByteOrder} {frame : LogFrame} {h : FrameHeader} {rs : List RawTlv}
    (heq : frame.wire host = (headerCodec host).write h ++ (tlvCodec host).writeAll rs) :
    h = frame.header ∧ rs = frame.tlvs.map Tlv.raw := by
  have hread := (headerCodec host).read_write h ((tlvCodec host).writeAll rs)
  rw [← heq, LogFrame.wire, (headerCodec host).read_write, Option.some.injEq, Prod.mk.injEq,
    ← writeAll_raw] at hread
  exact ⟨hread.1.symm, ((tlvCodec host).writeAll_injective hread.2).symm⟩

/-- A frame that is parsed where it was serialised. -/
theorem parse_own {host : ByteOrder} {config : LogProtocolConfig}
    (hmax : config.maxFrameSize ≤ 65560) {frame : LogFrame}
    (hvalid : logFrameValidateTlvs frame = .success)
    (hlen : frame.header.payloadLen.toNat = payloadSize frame.tlvs)
    (hmagic : (convertHeader host frame.header).magic = magic)
    (hmajor : frame.header.majorVersion = majorVersion) :
    logFrameParse host config (frame.wire host)
      = if (host = .big ∨ 257 ∣ payloadSize frame.tlvs) ∧
            headerSize + 2 * payloadSize frame.tlvs ≤ config.maxFrameSize then
          some
            { header :=
                { convertHeader host frame.header with
                  payloadLen := UInt16.ofNat (2 * payloadSize frame.tlvs) }
              tlvs := frame.tlvs
              rawData := frame.wire host
              maxFrameSize := config.maxFrameSize }
        else none := by
  have hwords : ((tlvCodec host).writeAll (frame.tlvs.map Tlv.raw)).length
      = payloadSize frame.tlvs := by
    rw [writeAll_raw, length_flatMap_tlvBytes]
  have hreads : (convertHeader host frame.header).payloadLen.toNat = payloadSize frame.tlvs
      ↔ host = .big ∨ 257 ∣ payloadSize frame.tlvs := by
    rw [← hlen, UInt16.toNat_inj]
    exact ntohsC_eq_iff host _
  have hroom : (frame.wire host).length + payloadSize frame.tlvs
      = headerSize + 2 * payloadSize frame.tlvs := by
    rw [length_wire]
    omega
  have hreceived : receivedFrame host config frame.header (frame.tlvs.map Tlv.raw)
      = { header :=
            { convertHeader host frame.header with
              payloadLen := UInt16.ofNat (2 * payloadSize frame.tlvs) }
          tlvs := frame.tlvs
          rawData := frame.wire host
          maxFrameSize := config.maxFrameSize } := by
    rw [receivedFrame, hwords, knownTlvs_raw, writeAll_raw, ← Nat.two_mul]
    rfl
  split_ifs with hcond
  · refine (parse_eq_some_iff hmax).2 ⟨frame.header, frame.tlvs.map Tlv.raw, ?_, hreceived.symm⟩
    exact
      { split := by
          rw [writeAll_raw]
          rfl
        marked := hmagic
        version := hmajor
        measured := by
          rw [hwords]
          exact hreads.2 hcond.1
        room := by
          rw [knownTlvs_raw, hroom]
          exact hcond.2
        valid := by
          rw [hreceived, ← hvalid]
          exact validate_congr rfl rfl }
  · rw [Option.eq_none_iff_forall_ne_some]
    intro g hg
    obtain ⟨h, rs, hacc, -⟩ := (parse_eq_some_iff hmax).1 hg
    obtain ⟨rfl, rfl⟩ := read_wire hacc.split
    have hread := hacc.measured
    have hlong := hacc.room
    rw [hwords] at hread
    rw [knownTlvs_raw, hroom] at hlong
    exact hcond ⟨hreads.1 hread, hlong⟩

/-- A frame that is parsed on a host of the other byte order. -/
theorem parse_foreign {host host' : ByteOrder} (hne : host' ≠ host) (config : LogProtocolConfig)
    {frame : LogFrame} {mtyp : MessageType} (hmtyp : frame.header.mtyp = mtyp.code) :
    logFrameParse host' config (frame.wire host) = none := by
  rw [Option.eq_none_iff_forall_ne_some]
  intro g hg
  obtain ⟨h, rs, f, hdata, -, -, -, -, hfold, hvalid, -⟩ := logFrameParse_eq_some_iff.1 hg
  have hh : h = frame.header.swapped := by
    have hread := (headerCodec host').read_write h ((tlvCodec host').writeAll rs)
    rw [← hdata, LogFrame.wire, write_header_other hne, (headerCodec host').read_write,
      Option.some.injEq, Prod.mk.injEq] at hread
    exact hread.1.symm
  have hkeep : f.header.mtyp = h.mtyp := mtyp_foldlM hfold
  obtain ⟨m, hm, hdefined⟩ := ofCode_of_valid hvalid
  rw [hkeep, hh, FrameHeader.swapped, hmtyp] at hm
  rcases ofCode_swapped mtyp with hnone | hundefined
  · rw [hnone] at hm
    cases hm
  · rw [hundefined] at hm
    exact hdefined (Option.some.inj hm).symm

/-- **A frame from one host to another**: it arrives exactly if the byte orders are the same, the
length reads the same in both byte orders or needs no conversion, and the limit leaves room for
the records twice.  Then all is as it was sent, but the length has doubled. -/
theorem transport_eq (host host' : ByteOrder) (block : (n : ℕ) → CArray UInt8 n)
    (config : LogProtocolConfig) {config' : LogProtocolConfig}
    (hmax : config'.maxFrameSize ≤ 65560) (mtyp : MessageType) (sequence : UInt16)
    (statusCode : UInt8) (now : LogTimestamp) (calls : List FrameCall) :
    let frame := callAll host block (logFrameCreate host config mtyp sequence statusCode now) calls
    let sent := logFrameSerialize host block frame
    sent.1 = .success →
      logFrameParse host' config' sent.2.rawData
        = if host' = host ∧ (host = .big ∨ 257 ∣ payloadSize frame.tlvs) ∧
              headerSize + 2 * payloadSize frame.tlvs ≤ config'.maxFrameSize then
            some
              { header := ⟨magic, majorVersion, minorVersion, sequence, now.seconds,
                  now.milliseconds, mtyp.code, statusCode,
                  UInt16.ofNat (2 * payloadSize frame.tlvs)⟩
                tlvs := frame.tlvs
                rawData := sent.2.rawData
                maxFrameSize := config'.maxFrameSize }
          else none := by
  intro frame sent hok
  have hcounted : frame.Counted := counted_callAll (counted_create _ _ _ _ _ _) calls
  obtain ⟨hvalid, hlt⟩ := (serialize_fst_iff hcounted).1 hok
  have hraw : sent.2.rawData = frame.wire host := by
    show (logFrameSerialize host block frame).2.rawData = _
    rw [serialize_of_lt hcounted hvalid hlt]
  have hheader : frame.header = { newHeader host mtyp sequence statusCode now with
      payloadLen := frame.header.payloadLen } := header_callAll host block _ calls
  have hconvert := convertHeader_newHeader host mtyp sequence statusCode now
    frame.header.payloadLen
  rw [← hheader] at hconvert
  rw [hraw]
  by_cases hhost : host' = host
  · subst hhost
    have hmagic : (convertHeader host' frame.header).magic = magic := by rw [hconvert]
    have hmajor : frame.header.majorVersion = majorVersion := by rw [hheader]; rfl
    rw [parse_own hmax hvalid (hcounted.counts.trans (Nat.mod_eq_of_lt hlt)) hmagic hmajor,
      hconvert]
    simp only [true_and]
  · rw [if_neg fun h => hhost h.1]
    exact parse_foreign hhost config' (show frame.header.mtyp = mtyp.code by rw [hheader]; rfl)

/-- The same request, built and sent to a host whose limit has been set to 35 bytes: there is room
for the five bytes of its record twice. -/
theorem transport_request :
    let config := logProtocolConfigInit ⟨textBytes "a", by decide⟩ .info
    let frame := callAll .big (fun n => .fill n 0)
      (logFrameCreate .big config .requestConfig 1 0 ⟨0, 0⟩)
      [.addStringTlv .appId ⟨textBytes "a", by decide⟩]
    (logFrameParse .big (logProtocolUpdateConfig config .info 35)
      (logFrameSerialize .big (fun n => .fill n 0) frame).2.rawData).isSome = true := by
  intro config frame
  have hmax : config.maxFrameSize ≤ 65560 := by decide
  rw [transport_eq .big .big (fun n => .fill n 0) config
    (maxFrameSize_updateConfig_le hmax (by decide) .info) .requestConfig 1 0 ⟨0, 0⟩
    [.addStringTlv .appId ⟨textBytes "a", by decide⟩] (by decide +kernel)]
  decide +kernel

/-! ## A received frame, serialised again -/

theorem payloadSize_pos {ts : List Tlv} (h : ts ≠ []) : 0 < payloadSize ts := by
  obtain ⟨t, us, rfl⟩ := List.exists_cons_of_ne_nil h
  rw [payloadSize_cons, Tlv.size]
  omega

/-- **Serialising a received frame**: it succeeds, but the length has been counted twice by then.
As many bytes as the frame was received with behind its header stay as `realloc()` left them, and
are sent. -/
theorem reserialize_parsed (host : ByteOrder) (block : (n : ℕ) → CArray UInt8 n)
    {config : LogProtocolConfig} (hmax : config.maxFrameSize ≤ 65560) {data : Bytes}
    {frame : LogFrame} (h : logFrameParse host config data = some frame) :
    let left := (block (data.length + payloadSize frame.tlvs)).toList.drop
      (headerSize + payloadSize frame.tlvs)
    logFrameSerialize host block frame
        = (.success, { frame with rawData := frame.wire host ++ left }) ∧
      left.length = data.length - headerSize := by
  intro left
  obtain ⟨hd, rs, hacc, rfl⟩ := (parse_eq_some_iff hmax).1 h
  have hpos := payloadSize_pos (tlvs_ne_nil_of_valid hacc.valid)
  have hroom := hacc.room
  have hlen : data.length = headerSize + ((tlvCodec host).writeAll rs).length := by
    rw [hacc.split, List.length_append, length_header]
  have hcount : (receivedFrame host config hd rs).header.payloadLen.toNat
      = ((tlvCodec host).writeAll rs).length + payloadSize (knownTlvs rs) := by
    have hcut : (receivedFrame host config hd rs).header.payloadLen.toNat
        = (((tlvCodec host).writeAll rs).length + payloadSize (knownTlvs rs)) % 65536 :=
      UInt16.toNat_ofNat'
    rw [hlen, headerSize] at hroom
    omega
  have hsize : headerSize + (receivedFrame host config hd rs).header.payloadLen.toNat
      = data.length + payloadSize (knownTlvs rs) := by
    rw [hcount, hlen, Nat.add_assoc]
  have hwithin : ¬ (receivedFrame host config hd rs).maxFrameSize
      < data.length + payloadSize (knownTlvs rs) := Nat.not_lt.2 hroom
  have hwritten : writeTlvs host (data.length + payloadSize (knownTlvs rs))
      (receivedFrame host config hd rs).tlvs
      ((headerCodec host).write (receivedFrame host config hd rs).header)
        = (true, (receivedFrame host config hd rs).wire host) :=
    writeTlvs_of_le (by
      show _ + payloadSize (knownTlvs rs) ≤ _
      rw [length_header]
      omega)
  have hother : (receivedFrame host config hd rs).rawData.length
      ≠ data.length + payloadSize (knownTlvs rs) := by
    have hraw : (receivedFrame host config hd rs).rawData.length = data.length :=
      congrArg List.length hacc.split.symm
    have hknown : 0 < payloadSize (knownTlvs rs) := hpos
    omega
  constructor
  · rw [logFrameSerialize, if_neg (not_not.2 hacc.valid)]
    dsimp only
    rw [hsize, if_neg hwithin, if_neg hother, hwritten, length_wire]
    rfl
  · rw [List.length_drop, (block _).length_eq]
    omega

theorem reserialize_request :
    ∃ frame, logFrameParse .big (logProtocolConfigInit ⟨[], by decide⟩ .verbose) requestBytes
        = some frame ∧
      (logFrameSerialize .big (fun n => .fill n 0xAA) frame).1 = .success := by
  obtain ⟨frame, h⟩ := Option.isSome_iff_exists.1 (show (logFrameParse .big
    (logProtocolConfigInit ⟨[], by decide⟩ .verbose) requestBytes).isSome = true by decide +kernel)
  exact ⟨frame, h, congrArg Prod.fst (reserialize_parsed .big _ (by decide) h).1⟩

end Lucp.MLog
