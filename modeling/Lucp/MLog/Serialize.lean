import Lucp.MLog.Protocol

/-!
# Frames as they are sent

`log_frame_serialize()` copies the header as it is in memory and writes the records behind it, in a
buffer whose size it takes from `payload_len`.  What `realloc()` leaves in that buffer is a
parameter here, since the function does not see to it that all of it is overwritten.

## What is here

* `headerCodec`, `tlvCodec` — the header in memory, and a record, which `log_frame_serialize()`
  writes and `log_frame_parse()` reads.
* `writeTlvs`, `logFrameSerialize` — the function.
* `logProtocolAddBatchLog`, `FrameCall` — the calls by which a frame is built; `Counted` is what
  all of them keep.
* `serialize_iff` — **how every frame that was built by such calls is serialised**: with success
  exactly if it is valid and its length fits into 16 bits, and then to all of its bytes and no
  others.
-/

set_option autoImplicit false

namespace Lucp.MLog

open Records

/-! ## The bytes -/

/-- `FrameHeader` in the memory of a host, field by field. -/
def headerCodec (host : ByteOrder) : Codec UInt8 FrameHeader :=
  ((int32 host).prod <| Codec.symbol.prod <| Codec.symbol.prod <| (int16 host).prod <|
    (int64 host).prod <| (int16 host).prod <| (int32 host).prod <| Codec.symbol.prod <|
    int16 host).map
  { toFun := fun ⟨magic, majorVersion, minorVersion, sequence, timestampSec, timestampMs, mtyp,
        statusCode, payloadLen⟩ =>
      ⟨magic, majorVersion, minorVersion, sequence, timestampSec, timestampMs, mtyp, statusCode,
        payloadLen⟩
    invFun := fun h =>
      ⟨h.magic, h.majorVersion, h.minorVersion, h.sequence, h.timestampSec, h.timestampMs, h.mtyp,
        h.statusCode, h.payloadLen⟩
    left_inv := fun _ => rfl
    right_inv := fun _ => rfl }

/-- A record on the wire, of a type that need not be known. -/
structure RawTlv where
  code : UInt8
  value : Bytes
  fits : value.length ≤ maxTlvSize

/-- A record as it is on the wire. -/
def Tlv.raw (t : Tlv) : RawTlv := ⟨t.type.code, t.value, t.fits⟩

/-- The type, the length in network order and the value; whoever reads checks the length against
what is left of the frame, and against the limit. -/
def tlvCodec (host : ByteOrder) : Codec UInt8 RawTlv where
  write r := r.code :: (store16 host (htonsC host (UInt16.ofNat r.value.length)) ++ r.value)
  read s :=
    match s with
    | code :: a :: b :: rest =>
      let tlvLength := (ntohsC host (load16 host a b)).toNat
      if h : tlvLength ≤ rest.length ∧ tlvLength ≤ maxTlvSize then
        some (⟨code, rest.take tlvLength, (List.length_take_le _ _).trans h.2⟩,
          rest.drop tlvLength)
      else none
    | _ => none
  read_write r s := by
    obtain ⟨a, b, hstore, hload⟩ := load16_store16 host (htonsC host (UInt16.ofNat r.value.length))
    have hfits := r.fits
    have hlen : (ntohsC host (load16 host a b)).toNat = r.value.length := by
      rw [hload, ntohsC_htonsC, UInt16.toNat_ofNat']
      exact Nat.mod_eq_of_lt (hfits.trans_lt (by decide))
    rw [hstore]
    simp only [List.cons_append, List.nil_append, hlen, List.length_append, List.take_left,
      List.drop_left]
    rw [dif_pos ⟨Nat.le_add_right _ _, hfits⟩]
  of_read {s r t} h := by
    split at h
    · rename_i code a b rest
      dsimp only at h
      split_ifs at h with hlen
      cases h
      have htake : (rest.take (ntohsC host (load16 host a b)).toNat).length
          = (ntohsC host (load16 host a b)).toNat := by
        rw [List.length_take]
        exact Nat.min_eq_left hlen.1
      have htwice : htonsC host (ntohsC host (load16 host a b)) = load16 host a b :=
        ntohsC_htonsC host _
      show code :: a :: b :: rest = code :: (store16 host (htonsC host (UInt16.ofNat
        (rest.take (ntohsC host (load16 host a b)).toNat).length)) ++ rest.take _) ++ rest.drop _
      rw [htake, UInt16.ofNat_toNat, htwice, store16_load16, List.cons_append, List.append_assoc,
        List.take_append_drop]
      rfl
    · cases h
  write_ne_nil _ := List.cons_ne_nil _ _

/-- The bytes of a record. -/
def tlvBytes (host : ByteOrder) (t : Tlv) : Bytes := (tlvCodec host).write t.raw

theorem length_store16 (host : ByteOrder) (x : UInt16) : (store16 host x).length = 2 := by
  cases host <;> rfl

theorem length_tlvBytes (host : ByteOrder) (t : Tlv) : (tlvBytes host t).length = t.size := by
  show (t.type.code :: (store16 host _ ++ t.value)).length = t.size
  rw [List.length_cons, List.length_append, length_store16, Tlv.size]
  omega

theorem length_flatMap_tlvBytes (host : ByteOrder) (ts : List Tlv) :
    (ts.flatMap (tlvBytes host)).length = payloadSize ts := by
  rw [List.length_flatMap, payloadSize]
  exact congrArg List.sum (List.map_congr_left fun t _ => length_tlvBytes host t)

theorem length_header (host : ByteOrder) (h : FrameHeader) :
    ((headerCodec host).write h).length = headerSize := by
  cases host <;> rfl

/-- All bytes of a frame. -/
def LogFrame.wire (host : ByteOrder) (frame : LogFrame) : Bytes :=
  (headerCodec host).write frame.header ++ frame.tlvs.flatMap (tlvBytes host)

theorem length_wire (host : ByteOrder) (frame : LogFrame) :
    (frame.wire host).length = headerSize + payloadSize frame.tlvs := by
  rw [LogFrame.wire, List.length_append, length_header, length_flatMap_tlvBytes]

/-! ## The function -/

/-- The loop over the records: whether there was room for all of them, and what has been written. -/
def writeTlvs (host : ByteOrder) (totalSize : ℕ) : List Tlv → Bytes → Bool × Bytes
  | [], out => (true, out)
  | t :: ts, out =>
    if totalSize < out.length + 1 + 2 + t.value.length then (false, out)
    else writeTlvs host totalSize ts (out ++ tlvBytes host t)

/-- `log_frame_serialize()`.  The buffer is the one the frame has, if it is of the right size, or
what `realloc()` returns, of which `block` says what it holds; behind what the function writes it
stays as it is. -/
def logFrameSerialize (host : ByteOrder) (block : (n : ℕ) → CArray UInt8 n) (frame : LogFrame) :
    LogProtocolError × LogFrame :=
  if logFrameValidateTlvs frame ≠ .success then (logFrameValidateTlvs frame, frame)
  else
    let totalSize := headerSize + frame.header.payloadLen.toNat
    if frame.maxFrameSize < totalSize then (.frameTooLarge, frame)
    else
      let buffer :=
        if frame.rawData.length = totalSize then frame.rawData else (block totalSize).toList
      let written := writeTlvs host totalSize frame.tlvs ((headerCodec host).write frame.header)
      (if written.1 then .success else .serializeError,
        { frame with rawData := written.2 ++ buffer.drop written.2.length })

theorem writeTlvs_of_le {host : ByteOrder} {totalSize : ℕ} {ts : List Tlv} {out : Bytes}
    (h : out.length + payloadSize ts ≤ totalSize) :
    writeTlvs host totalSize ts out = (true, out ++ ts.flatMap (tlvBytes host)) := by
  induction ts generalizing out with
  | nil => rw [writeTlvs, List.flatMap_nil, List.append_nil]
  | cons t ts ih =>
    rw [payloadSize_cons, Tlv.size] at h
    rw [writeTlvs, if_neg (by omega), ih, List.flatMap_cons, List.append_assoc]
    rw [List.length_append, length_tlvBytes, Tlv.size]
    omega

theorem writeTlvs_of_lt {host : ByteOrder} {totalSize : ℕ} {ts : List Tlv} {out : Bytes}
    (hout : out.length ≤ totalSize) (h : totalSize < out.length + payloadSize ts) :
    (writeTlvs host totalSize ts out).1 = false := by
  induction ts generalizing out with
  | nil => exact absurd h (by rw [payloadSize_nil]; omega)
  | cons t ts ih =>
    rw [payloadSize_cons, Tlv.size] at h
    rw [writeTlvs]
    split_ifs with hfull
    · rfl
    · have hlen : (out ++ tlvBytes host t).length = out.length + (3 + t.value.length) := by
        rw [List.length_append, length_tlvBytes, Tlv.size]
      exact ih (by omega) (by omega)

/-! ## Building a frame -/

/-- `log_protocol_add_batch_log()`. -/
def logProtocolAddBatchLog (host : ByteOrder) (batchFrame : LogFrame) (level : DltLevel)
    (message : CString) (timestamp : LogTimestamp) : LogProtocolError × LogFrame :=
  if batchFrame.header.mtyp ≠ MessageType.multipleLogs.code then (.invalidParam, batchFrame)
  else
    andThen (logFrameAddLevelTlv batchFrame .entryLevel level) fun frame =>
      andThen (logFrameAddTimestampTlv host frame timestamp) fun frame =>
        logFrameAddStringTlv frame .logMessage message

/-- A call of a function that works on a frame. -/
inductive FrameCall
  | addTlv (type : TlvType) (value : Bytes)
  | addStringTlv (type : TlvType) (str : CString)
  | addUint8Tlv (type : TlvType) (value : UInt8)
  | addLevelTlv (type : TlvType) (level : DltLevel)
  | addTimestampTlv (timestamp : LogTimestamp)
  | addBatchLog (level : DltLevel) (message : CString) (timestamp : LogTimestamp)
  | serialize

/-- What a call returns, and the frame behind it. -/
def FrameCall.exec (host : ByteOrder) (block : (n : ℕ) → CArray UInt8 n) (frame : LogFrame) :
    FrameCall → LogProtocolError × LogFrame
  | .addTlv type value => logFrameAddTlv frame type value
  | .addStringTlv type str => logFrameAddStringTlv frame type str
  | .addUint8Tlv type value => logFrameAddUint8Tlv frame type value
  | .addLevelTlv type level => logFrameAddLevelTlv frame type level
  | .addTimestampTlv timestamp => logFrameAddTimestampTlv host frame timestamp
  | .addBatchLog level message timestamp =>
    logProtocolAddBatchLog host frame level message timestamp
  | .serialize => logFrameSerialize host block frame

/-- The frame behind a number of calls, whose results nobody looks at. -/
def callAll (host : ByteOrder) (block : (n : ℕ) → CArray UInt8 n) (frame : LogFrame)
    (calls : List FrameCall) : LogFrame :=
  calls.foldl (fun frame call => (call.exec host block frame).2) frame

section Rule

variable {P : LogFrame → Prop} (hpush : ∀ f t, P f → f.HasRoom t.size → P (f.push t))
include hpush

/-- What records with room keep, all functions that add records keep, whether they succeed or
not. -/
theorem addTlv_keeps {frame : LogFrame} (h : P frame) (type : TlvType) (value : Bytes) :
    P (logFrameAddTlv frame type value).2 := by
  obtain ⟨t, -, -, hroom, heq⟩ | ⟨-, heq⟩ := logFrameAddTlv_cases frame type value
  · rw [heq]
    exact hpush frame t h hroom
  · rw [heq]
    exact h

theorem addStringTlv_keeps {frame : LogFrame} (h : P frame) (type : TlvType) (str : CString) :
    P (logFrameAddStringTlv frame type str).2 := by
  rw [logFrameAddStringTlv]
  split_ifs
  · exact h
  · exact addTlv_keeps hpush h _ _

theorem addLevelTlv_keeps {frame : LogFrame} (h : P frame) (type : TlvType) (level : DltLevel) :
    P (logFrameAddLevelTlv frame type level).2 := by
  rw [logFrameAddLevelTlv]
  split_ifs
  · exact h
  · exact addTlv_keeps hpush h _ _

omit hpush in
theorem andThen_keeps {r : LogProtocolError × LogFrame}
    {next : LogFrame → LogProtocolError × LogFrame} (h : P r.2) (hnext : ∀ f, P f → P (next f).2) :
    P (andThen r next).2 := by
  rw [andThen]
  split_ifs
  · exact hnext _ h
  · exact h

theorem addBatchLog_keeps {host : ByteOrder} {frame : LogFrame} (h : P frame) (level : DltLevel)
    (message : CString) (timestamp : LogTimestamp) :
    P (logProtocolAddBatchLog host frame level message timestamp).2 := by
  rw [logProtocolAddBatchLog]
  split_ifs
  · exact h
  · exact andThen_keeps (addLevelTlv_keeps hpush h _ _) fun f hf =>
      andThen_keeps (addTlv_keeps hpush hf _ _) fun g hg => addStringTlv_keeps hpush hg _ _

variable (hraw : ∀ f raw, P f → P { f with rawData := raw })
include hraw

omit hpush in
theorem serialize_keeps {host : ByteOrder} {block : (n : ℕ) → CArray UInt8 n} {frame : LogFrame}
    (h : P frame) : P (logFrameSerialize host block frame).2 := by
  rw [logFrameSerialize]
  by_cases hvalid : logFrameValidateTlvs frame ≠ .success
  · rw [if_pos hvalid]
    exact h
  rw [if_neg hvalid]
  dsimp only
  by_cases hlong : frame.maxFrameSize < headerSize + frame.header.payloadLen.toNat
  · rw [if_pos hlong]
    exact h
  · rw [if_neg hlong]
    exact hraw _ _ h

theorem exec_keeps {host : ByteOrder} {block : (n : ℕ) → CArray UInt8 n} {frame : LogFrame}
    (h : P frame) (call : FrameCall) : P (call.exec host block frame).2 := by
  cases call with
  | addTlv type value => exact addTlv_keeps hpush h type value
  | addStringTlv type str => exact addStringTlv_keeps hpush h type str
  | addUint8Tlv type value => exact addTlv_keeps hpush h type [value]
  | addLevelTlv type level => exact addLevelTlv_keeps hpush h type level
  | addTimestampTlv timestamp => exact addTlv_keeps hpush h _ _
  | addBatchLog level message timestamp => exact addBatchLog_keeps hpush h level message timestamp
  | serialize => exact serialize_keeps hraw h

/-- **What holds of every frame that calls have built.** -/
theorem callAll_keeps {host : ByteOrder} {block : (n : ℕ) → CArray UInt8 n} {frame : LogFrame}
    (h : P frame) (calls : List FrameCall) : P (callAll host block frame calls) := by
  induction calls generalizing frame with
  | nil => exact h
  | cons call calls ih => exact ih (exec_keeps hpush hraw h call)

end Rule

/-- `payload_len` counts the bytes of the records, in 16 bits, and the last record has checked the
limit. -/
structure LogFrame.Counted (frame : LogFrame) : Prop where
  counts : frame.header.payloadLen.toNat = payloadSize frame.tlvs % 65536
  within : frame.tlvs ≠ [] → headerSize + frame.header.payloadLen.toNat ≤ frame.maxFrameSize

theorem LogFrame.Counted.push {frame : LogFrame} (h : frame.Counted) {t : Tlv}
    (hroom : frame.HasRoom t.size) : (frame.push t).Counted := by
  have hlen : (frame.push t).header.payloadLen.toNat
      = (frame.header.payloadLen.toNat + t.size) % 65536 := UInt16.toNat_ofNat'
  refine ⟨?_, fun _ => ?_⟩
  · have hsum : payloadSize (frame.push t).tlvs = payloadSize frame.tlvs + t.size := by
      show payloadSize (frame.tlvs ++ [t]) = _
      simp
    rw [hlen, hsum, h.counts]
    omega
  · have hroom' : headerSize + (frame.header.payloadLen.toNat + t.size) ≤ frame.maxFrameSize :=
      hroom
    rw [hlen]
    show _ ≤ frame.maxFrameSize
    omega

theorem counted_create (host : ByteOrder) (config : LogProtocolConfig) (mtyp : MessageType)
    (sequence : UInt16) (statusCode : UInt8) (now : LogTimestamp) :
    (logFrameCreate host config mtyp sequence statusCode now).Counted :=
  ⟨rfl, fun h => absurd rfl h⟩

theorem counted_callAll {host : ByteOrder} {block : (n : ℕ) → CArray UInt8 n} {frame : LogFrame}
    (h : frame.Counted) (calls : List FrameCall) : (callAll host block frame calls).Counted :=
  callAll_keeps (fun _ _ hf hroom => hf.push hroom) (fun _ _ hf => ⟨hf.counts, hf.within⟩) h calls

/-- A valid frame has records. -/
theorem tlvs_ne_nil_of_valid {frame : LogFrame} (h : logFrameValidateTlvs frame = .success) :
    frame.tlvs ≠ [] := by
  intro hnil
  rw [logFrameValidateTlvs] at h
  cases hm : MessageType.ofCode frame.header.mtyp with
  | none =>
    rw [hm] at h
    cases h
  | some m =>
    rw [hm] at h
    have hbad : validateTlvs frame m ≠ .success := by
      cases m <;> simp [validateTlvs, hnil, batchOfLogs, requiredTlvs, logFrameFindTlv]
    exact hbad h

/-- What becomes of a frame whose length is right. -/
theorem serialize_of_lt {host : ByteOrder} {block : (n : ℕ) → CArray UInt8 n} {frame : LogFrame}
    (hcounted : frame.Counted) (hvalid : logFrameValidateTlvs frame = .success)
    (hlt : payloadSize frame.tlvs < 65536) :
    logFrameSerialize host block frame = (.success, { frame with rawData := frame.wire host }) := by
  have hlen : frame.header.payloadLen.toNat = payloadSize frame.tlvs :=
    hcounted.counts.trans (Nat.mod_eq_of_lt hlt)
  have hwithin := hcounted.within (tlvs_ne_nil_of_valid hvalid)
  have hwritten : writeTlvs host (headerSize + frame.header.payloadLen.toNat) frame.tlvs
      ((headerCodec host).write frame.header) = (true, frame.wire host) :=
    writeTlvs_of_le (by rw [length_header, hlen])
  have hdrop : ∀ l : Bytes, l.length = headerSize + frame.header.payloadLen.toNat →
      l.drop (frame.wire host).length = [] := by
    intro l hl
    rw [List.drop_eq_nil_iff, hl, hlen, length_wire]
  rw [logFrameSerialize, if_neg (not_not.2 hvalid)]
  dsimp only
  rw [if_neg (Nat.not_lt.2 hwithin), hwritten]
  simp only [if_true]
  split_ifs with hsize
  · rw [hdrop _ hsize, List.append_nil]
  · rw [hdrop _ (block _).length_eq, List.append_nil]

/-- Whether a frame is serialised. -/
theorem serialize_fst_iff {host : ByteOrder} {block : (n : ℕ) → CArray UInt8 n} {frame : LogFrame}
    (hcounted : frame.Counted) :
    (logFrameSerialize host block frame).1 = .success ↔
      logFrameValidateTlvs frame = .success ∧ payloadSize frame.tlvs < 65536 := by
  constructor
  · intro hok
    by_cases hvalid : logFrameValidateTlvs frame = .success
    · refine ⟨hvalid, ?_⟩
      by_contra hlong
      have hwithin := hcounted.within (tlvs_ne_nil_of_valid hvalid)
      have hcut := hcounted.counts
      have hfalse : (writeTlvs host (headerSize + frame.header.payloadLen.toNat) frame.tlvs
          ((headerCodec host).write frame.header)).1 = false :=
        writeTlvs_of_lt (by rw [length_header]; omega) (by rw [length_header]; omega)
      rw [logFrameSerialize, if_neg (not_not.2 hvalid)] at hok
      dsimp only at hok
      rw [if_neg (Nat.not_lt.2 hwithin)] at hok
      dsimp only at hok
      rw [hfalse] at hok
      cases hok
    · rw [logFrameSerialize, if_pos hvalid] at hok
      exact absurd hok hvalid
  · rintro ⟨hvalid, hlt⟩
    rw [serialize_of_lt hcounted hvalid hlt]

/-- **Serialising a frame that calls have built**, with all of them or only some of them
successful. -/
theorem serialize_iff (host : ByteOrder) (block : (n : ℕ) → CArray UInt8 n)
    (config : LogProtocolConfig) (mtyp : MessageType) (sequence : UInt16) (statusCode : UInt8)
    (now : LogTimestamp) (calls : List FrameCall) :
    let frame := callAll host block (logFrameCreate host config mtyp sequence statusCode now) calls
    let result := logFrameSerialize host block frame
    (result.1 = .success ↔
        logFrameValidateTlvs frame = .success ∧ payloadSize frame.tlvs < 65536) ∧
      (result.1 = .success →
        result.2.rawData = frame.wire host ∧ result.2.rawData.length ≤ frame.maxFrameSize) := by
  intro frame result
  have hcounted : frame.Counted := counted_callAll (counted_create _ _ _ _ _ _) calls
  refine ⟨serialize_fst_iff hcounted, fun hok => ?_⟩
  obtain ⟨hvalid, hlt⟩ := (serialize_fst_iff hcounted).1 hok
  have hraw : result.2.rawData = frame.wire host := by
    show (logFrameSerialize host block frame).2.rawData = _
    rw [serialize_of_lt hcounted hvalid hlt]
  have hwithin := hcounted.within (tlvs_ne_nil_of_valid hvalid)
  rw [hcounted.counts, Nat.mod_eq_of_lt hlt, ← length_wire host] at hwithin
  exact ⟨hraw, hraw ▸ hwithin⟩

end Lucp.MLog
