import Lucp.MLog.Server

/-!
# Frames of one log

`log_protocol_create_single_log()` and `dlt_log_common()` put four records into a frame and
serialise it, and give up at the first call that fails.

## What is here

* `tryAll` — calls of which the first failure is the last.
* `tryAll_adds` — **what such calls leave**: all of their records, if there is room for them
  together.
* `singleLogCalls`, `logProtocolCreateSingleLog` — the functions.
* `single_log_iff` — **which logs get a frame**, and that everything is read back from it.
-/

set_option autoImplicit false

namespace Lucp.MLog

variable (host : ByteOrder) (block : (n : ℕ) → CArray UInt8 n)

/-! ## Calls up to the first failure -/

/-- The calls, up to the first that fails. -/
def tryAll : LogFrame → List FrameCall → LogProtocolError × LogFrame
  | frame, [] => (.success, frame)
  | frame, call :: calls => andThen (call.exec host block frame) fun frame => tryAll frame calls

/-- The record that a call adds, unless it refuses it for itself. -/
def FrameCall.pair? : FrameCall → Option (TlvType × Bytes)
  | .addTlv type value => if value.length ≤ maxTlvSize then some (type, value) else none
  | .addStringTlv type str =>
    if str.bytes.length < maxTlvSize then some (type, str.bytes ++ [0]) else none
  | .addUint8Tlv type value => some (type, [value])
  | .addLevelTlv type level => if level = .disabled then none else some (type, [level.code])
  | .addTimestampTlv timestamp => some (.timestamp, timestampBytes host timestamp)
  | .addBatchLog _ _ _ | .serialize => none

/-- The calls that add one record. -/
def FrameCall.AddsOne : FrameCall → Prop
  | .addTlv _ _ | .addStringTlv _ _ | .addUint8Tlv _ _ | .addLevelTlv _ _ | .addTimestampTlv _ =>
    True
  | .addBatchLog _ _ _ | .serialize => False

variable {host}

/-- A call with a record is a call of `log_frame_add_tlv()`. -/
theorem exec_of_pair {call : FrameCall} {p : TlvType × Bytes} (h : call.pair? host = some p)
    (frame : LogFrame) :
    p.2.length ≤ maxTlvSize ∧ call.exec host block frame = logFrameAddTlv frame p.1 p.2 := by
  rcases call with ⟨type, value⟩ | ⟨type, str⟩ | ⟨type, value⟩ | ⟨type, level⟩ | timestamp | _ | _
  · obtain ⟨hfits, heq⟩ := Option.ite_none_right_eq_some.1 h
    obtain rfl := Option.some.inj heq
    exact ⟨hfits, rfl⟩
  · obtain ⟨hfits, heq⟩ := Option.ite_none_right_eq_some.1 h
    obtain rfl := Option.some.inj heq
    refine ⟨?_, if_neg (Nat.not_le.2 hfits)⟩
    rw [List.length_append]
    exact hfits
  · obtain rfl := Option.some.inj h
    exact ⟨show 1 ≤ maxTlvSize by decide, rfl⟩
  · obtain ⟨hlevel, heq⟩ := Option.ite_none_left_eq_some.1 h
    obtain rfl := Option.some.inj heq
    exact ⟨show 1 ≤ maxTlvSize by decide, if_neg hlevel⟩
  · obtain rfl := Option.some.inj h
    refine ⟨?_, rfl⟩
    show (timestampBytes host timestamp).length ≤ maxTlvSize
    rw [length_timestampBytes]
    decide
  · cases h
  · cases h

/-- A call that refuses its record fails. -/
theorem exec_of_no_pair {call : FrameCall} (hadds : call.AddsOne) (h : call.pair? host = none)
    (frame : LogFrame) : (call.exec host block frame).1 ≠ .success := by
  rcases call with ⟨type, value⟩ | ⟨type, str⟩ | ⟨type, value⟩ | ⟨type, level⟩ | timestamp | _ | _
  · have hlong : ¬ value.length ≤ maxTlvSize := fun hfits => by
      rw [FrameCall.pair?, if_pos hfits] at h
      cases h
    show (logFrameAddTlv frame type value).1 ≠ _
    rw [logFrameAddTlv, dif_neg hlong]
    exact LogProtocolError.noConfusion
  · have hlong : ¬ str.bytes.length < maxTlvSize := fun hfits => by
      rw [FrameCall.pair?, if_pos hfits] at h
      cases h
    show (logFrameAddStringTlv frame type str).1 ≠ _
    rw [logFrameAddStringTlv, if_pos (Nat.not_lt.1 hlong)]
    exact LogProtocolError.noConfusion
  · cases h
  · have hlevel : level = .disabled := by
      by_contra hne
      rw [FrameCall.pair?, if_neg hne] at h
      cases h
    show (logFrameAddLevelTlv frame type level).1 ≠ _
    rw [logFrameAddLevelTlv, if_pos hlevel]
    exact LogProtocolError.noConfusion
  · cases h
  · exact hadds.elim
  · exact hadds.elim

variable (host) in
/-- The records of all calls. -/
def callPairs : List FrameCall → Option (List (TlvType × Bytes))
  | [] => some []
  | call :: calls => (call.pair? host).bind fun p => (callPairs calls).map (p :: ·)

/-- **Calls up to the first failure** all succeed exactly if each one has a record and there is room
for the records together. -/
theorem tryAll_adds {frame : LogFrame} (hmax : frame.maxFrameSize ≤ 65560)
    {calls : List FrameCall} (hadds : ∀ call ∈ calls, call.AddsOne) :
    (∃ ts : List Tlv, callPairs host calls = some (ts.map Tlv.pair) ∧
        (ts = [] ∨ frame.HasRoom (payloadSize ts)) ∧
        tryAll host block frame calls = (.success, frame.pushAll ts)) ∨
      ((tryAll host block frame calls).1 ≠ .success ∧
        ∀ pairs, callPairs host calls = some pairs →
          pairs ≠ [] ∧ ¬ frame.HasRoom (pairsSize pairs)) := by
  induction calls generalizing frame with
  | nil => exact .inl ⟨[], rfl, .inl rfl, by rw [pushAll_nil]; rfl⟩
  | cons call calls ih =>
    rw [callPairs, tryAll]
    rcases hpair : call.pair? host with _ | p
    · have hfails := exec_of_no_pair block (hadds call List.mem_cons_self) hpair frame
      rw [andThen_error hfails]
      exact .inr ⟨hfails, fun pairs h => by cases h⟩
    obtain ⟨hfits, hexec⟩ := exec_of_pair block hpair frame
    let t : Tlv := ⟨p.1, p.2, hfits⟩
    have hsize : ∀ rest, pairsSize (p :: rest) = t.size + pairsSize rest :=
      fun rest => List.sum_cons
    rw [hexec, Option.bind_some]
    by_cases hroom : frame.HasRoom t.size
    swap
    · rw [show logFrameAddTlv frame p.1 p.2 = (.frameTooLarge, frame) from
        logFrameAddTlv_of_no_room hroom, andThen_error LogProtocolError.noConfusion]
      refine .inr ⟨LogProtocolError.noConfusion, fun pairs h => ?_⟩
      obtain ⟨rest, -, rfl⟩ := Option.map_eq_some_iff.1 h
      refine ⟨List.cons_ne_nil _ _, fun hall => hroom ?_⟩
      rw [LogFrame.HasRoom, hsize] at hall
      rw [LogFrame.HasRoom]
      omega
    rw [show logFrameAddTlv frame p.1 p.2 = (.success, frame.push t) from
      logFrameAddTlv_of_room hroom, andThen_success]
    rcases @ih (frame.push t) hmax (fun c hc => hadds c (List.mem_cons_of_mem _ hc)) with
      ⟨ts, hts, hfree, htry⟩ | ⟨hfails, hfull⟩
    · refine .inl ⟨t :: ts, by rw [hts]; rfl, .inr ?_, by rw [htry, push_pushAll hmax hroom]⟩
      rcases hfree with rfl | hfree
      · exact hroom
      · rw [payloadSize_cons, ← hasRoom_push hmax hroom]
        exact hfree
    · refine .inr ⟨hfails, fun pairs h => ?_⟩
      obtain ⟨rest, hrest, rfl⟩ := Option.map_eq_some_iff.1 h
      refine ⟨List.cons_ne_nil _ _, ?_⟩
      rw [hsize, ← hasRoom_push hmax hroom]
      exact (hfull rest hrest).2

/-! ## The functions -/

variable (host)

/-- The calls of `log_protocol_create_single_log()`, and of `dlt_log_common()`. -/
def singleLogCalls (appId : CString) (log : Log) : List FrameCall :=
  [.addStringTlv .appId appId, .addLevelTlv .entryLevel log.level, .addTimestampTlv log.timestamp,
    .addStringTlv .logMessage log.message]

/-- `log_protocol_create_single_log()`, with the time at which it makes the frame. -/
def logProtocolCreateSingleLog (config : LogProtocolConfig) (sequence : UInt16) (log : Log)
    (now : LogTimestamp) : Option LogFrame :=
  if config.thresholdLevel.code < log.level.code then none
  else
    let r := tryAll host block (logFrameCreate host config .singleLog sequence 0 now)
      (singleLogCalls config.appId log ++ [.serialize])
    if r.1 = .success then some r.2 else none

/-! ## Reading a record back -/

variable {host}

theorem tlvGetString_of_value {t : Tlv} {str : CString} (h : t.value = str.bytes ++ [0]) :
    tlvGetString t = some str := by
  have hlast : t.value.getLast? = some 0 := by rw [h, List.getLast?_concat]
  have hall : ∀ b ∈ str.bytes, decide (b ≠ 0) = true := fun b hb =>
    decide_eq_true fun hzero => str.noNul (hzero ▸ hb)
  rw [tlvGetString, if_pos hlast]
  refine congrArg some (CString.ext ?_)
  show t.value.takeWhile (· ≠ 0) = str.bytes
  rw [h, List.takeWhile_append_of_pos hall]
  exact List.append_nil _

theorem tlvGetLevel_of_value {t : Tlv} {level : DltLevel} (h : t.value = [level.code]) :
    tlvGetLevel t = (.success, level) := by
  have hbyte : tlvGetUint8 t = (.success, level.code) := by
    rw [tlvGetUint8, h]
    rfl
  rw [tlvGetLevel, hbyte, DltLevel.ofCode_code]
  rfl

theorem tlvGetTimestamp_of_value {t : Tlv} {timestamp : LogTimestamp}
    (h : t.value = timestampBytes host timestamp) : tlvGetTimestamp host t = some timestamp := by
  obtain ⟨a, b, c, d, e, f, g, i, hstore, hload⟩ :=
    load64_store64 host (htonll host timestamp.seconds)
  obtain ⟨j, k, hstore', hload'⟩ := load16_store16 host (htonsC host timestamp.milliseconds)
  rw [timestampBytes, hstore, hstore'] at h
  rw [tlvGetTimestamp, h]
  show some (⟨ntohll host (load64 host a b c d e f g i), ntohsC host (load16 host j k)⟩ :
    LogTimestamp) = _
  rw [hload, hload', ntohll_htonll, ntohsC_htonsC]

/-! ## One log -/

theorem tryAll_append (frame : LogFrame) (calls rest : List FrameCall) :
    tryAll host block frame (calls ++ rest)
      = andThen (tryAll host block frame calls) fun frame => tryAll host block frame rest := by
  induction calls generalizing frame with
  | nil => rfl
  | cons call calls ih =>
    rw [List.cons_append, tryAll, tryAll]
    by_cases hok : (call.exec host block frame).1 = .success
    · simp only [andThen, if_pos hok]
      exact ih _
    · rw [andThen_error hok, andThen_error hok, andThen_error hok]

/-- The last of the calls. -/
theorem tryAll_serialize (frame : LogFrame) :
    tryAll host block frame [.serialize] = logFrameSerialize host block frame := by
  rw [tryAll]
  show andThen (logFrameSerialize host block frame) _ = _
  by_cases hok : (logFrameSerialize host block frame).1 = .success
  · rw [andThen, if_pos hok, tryAll, ← hok]
  · exact andThen_error hok _

/-- The records of a log are there, unless one of them cannot be. -/
theorem callPairs_single (appId : CString) (log : Log) :
    callPairs host (singleLogCalls appId log)
      = if appId.bytes.length < maxTlvSize ∧ log.level ≠ .disabled ∧
            log.message.bytes.length < maxTlvSize then
          some ((.appId, appId.bytes ++ [0]) :: logPairs host log)
        else none := by
  by_cases hid : appId.bytes.length < maxTlvSize
  · by_cases hlevel : log.level = .disabled
    · simp [singleLogCalls, callPairs, FrameCall.pair?, hid, hlevel]
    · by_cases hmessage : log.message.bytes.length < maxTlvSize
      · simp [singleLogCalls, callPairs, FrameCall.pair?, hid, hlevel, hmessage, logPairs]
      · simp [singleLogCalls, callPairs, FrameCall.pair?, hid, hlevel, hmessage]
  · simp [singleLogCalls, callPairs, FrameCall.pair?, hid]

/-- The bytes that they take. -/
theorem pairsSize_single (host : ByteOrder) (appId : CString) (log : Log) :
    pairsSize ((.appId, appId.bytes ++ [0]) :: logPairs host log)
      = 25 + appId.bytes.length + log.message.bytes.length := by
  simp only [pairsSize, logPairs, List.map_cons, List.map_nil, List.sum_cons, List.sum_nil,
    List.length_append, List.length_singleton, length_timestampBytes]
  omega

/-- What a frame needs for a log of this application. -/
structure Loggable (limit : ℕ) (appId : CString) (log : Log) : Prop where
  named : appId.bytes.length < maxTlvSize
  level : log.level ≠ .disabled
  short : log.message.bytes.length < maxTlvSize
  room : 50 + appId.bytes.length + log.message.bytes.length ≤ limit

/-- A frame with the records of a log is valid. -/
theorem valid_single {frame : LogFrame} (hmtyp : frame.header.mtyp = MessageType.singleLog.code)
    {appId : CString} {log : Log}
    (h : frame.tlvs.map Tlv.pair = (.appId, appId.bytes ++ [0]) :: logPairs host log) :
    logFrameValidateTlvs frame = .success := by
  obtain ⟨a, rest, htlvs, ha, hrest⟩ := List.map_eq_cons_iff.1 h
  obtain ⟨b, rest, rfl, hb, hrest⟩ := List.map_eq_cons_iff.1 hrest
  obtain ⟨c, rest, rfl, hc, hrest⟩ := List.map_eq_cons_iff.1 hrest
  obtain ⟨d, rest, rfl, hd, hnil⟩ := List.map_eq_cons_iff.1 hrest
  obtain rfl := List.map_eq_nil_iff.1 hnil
  obtain ⟨hatype, -⟩ := Prod.mk.inj ha
  obtain ⟨hbtype, hbvalue⟩ := Prod.mk.inj hb
  obtain ⟨hctype, hcvalue⟩ := Prod.mk.inj hc
  obtain ⟨hdtype, -⟩ := Prod.mk.inj hd
  have hclen : c.value.length = 10 := by rw [hcvalue, length_timestampBytes]
  have hblen : b.value.length = 1 := by rw [hbvalue]; rfl
  rw [logFrameValidateTlvs, hmtyp, MessageType.ofCode_code]
  show validateTlvs frame .singleLog = .success
  simp [validateTlvs, requiredTlvs, logFrameFindTlv, htlvs, hatype, hbtype, hctype, hdtype,
    Tlv.WellSized, TlvType.fixedLength, hclen, hblen]

/-- **The calls for a log**, on a frame with nothing in it. -/
theorem tryAll_single {frame : LogFrame} (hmax : frame.maxFrameSize ≤ 65560)
    (hnew : frame.header.payloadLen = 0 ∧ frame.tlvs = [])
    (hmtyp : frame.header.mtyp = MessageType.singleLog.code) (appId : CString) (log : Log) :
    let r := tryAll host block frame (singleLogCalls appId log ++ [.serialize])
    (r.1 = .success ↔ Loggable frame.maxFrameSize appId log) ∧
      (r.1 = .success → r.2.rawData = r.2.wire host ∧
        r.2.tlvs.map Tlv.pair = (.appId, appId.bytes ++ [0]) :: logPairs host log) := by
  intro r
  have hroom : ∀ size, frame.HasRoom size ↔ 25 + size ≤ frame.maxFrameSize := fun size => by
    rw [LogFrame.HasRoom, hnew.1, headerSize]
    show 25 + (0 + size) ≤ _ ↔ _
    rw [Nat.zero_add]
  have hadds : ∀ call ∈ singleLogCalls appId log, call.AddsOne := by
    simp [singleLogCalls, FrameCall.AddsOne]
  have hsplit : r = andThen (tryAll host block frame (singleLogCalls appId log))
      (logFrameSerialize host block) := by
    show tryAll host block frame _ = _
    rw [tryAll_append]
    exact congrArg _ (funext fun f => tryAll_serialize block f)
  rcases tryAll_adds block hmax hadds with ⟨ts, hts, hfree, htry⟩ | ⟨hfails, hfull⟩
  · rw [callPairs_single] at hts
    split_ifs at hts with hfits
    have hpairs : (.appId, appId.bytes ++ [0]) :: logPairs host log = ts.map Tlv.pair :=
      Option.some.inj hts
    have hsize : payloadSize ts = 25 + appId.bytes.length + log.message.bytes.length := by
      rw [payloadSize_eq, ← hpairs, pairsSize_single]
    have hspace : frame.HasRoom (payloadSize ts) := by
      rcases hfree with rfl | hspace
      · cases hpairs
      · exact hspace
    have htlvs : (frame.pushAll ts).tlvs = ts := by
      rw [LogFrame.pushAll, hnew.2, List.nil_append]
    obtain ⟨hcounted, hlt⟩ := counted_pushAll hmax hnew hspace
    have hfound : (frame.pushAll ts).tlvs.map Tlv.pair
        = (.appId, appId.bytes ++ [0]) :: logPairs host log := by
      rw [htlvs, hpairs]
    have hvalid := valid_single (show (frame.pushAll ts).header.mtyp = _ from hmtyp) hfound
    have hdone : r = (.success,
        { (frame.pushAll ts) with rawData := (frame.pushAll ts).wire host }) := by
      rw [hsplit, htry, andThen_success, serialize_of_lt hcounted hvalid hlt]
    rw [hroom, hsize] at hspace
    refine ⟨iff_of_true (by rw [hdone]) ⟨hfits.1, hfits.2.1, hfits.2.2, by omega⟩, fun _ => ?_⟩
    rw [hdone]
    exact ⟨rfl, hfound⟩
  · have hr : r.1 ≠ .success := by
      rw [hsplit, andThen_error hfails]
      exact hfails
    refine ⟨iff_of_false hr fun hlog => ?_, fun hok => absurd hok hr⟩
    obtain ⟨-, hnoroom⟩ := hfull _ ((callPairs_single appId log).trans
      (if_pos ⟨hlog.named, hlog.level, hlog.short⟩))
    have hlimit := hlog.room
    rw [hroom, pairsSize_single] at hnoroom
    omega

/-- What is found in a frame with the records of a log. -/
theorem found_single {frame : LogFrame} {appId : CString} {log : Log}
    (h : frame.tlvs.map Tlv.pair = (.appId, appId.bytes ++ [0]) :: logPairs host log) :
    (logFrameFindTlv frame .appId).bind tlvGetString = some appId ∧
      (logFrameFindTlv frame .entryLevel).map tlvGetLevel = some (.success, log.level) ∧
      (logFrameFindTlv frame .timestamp).bind (tlvGetTimestamp host) = some log.timestamp ∧
      (logFrameFindTlv frame .logMessage).bind tlvGetString = some log.message := by
  obtain ⟨a, rest, htlvs, ha, hrest⟩ := List.map_eq_cons_iff.1 h
  obtain ⟨b, rest, rfl, hb, hrest⟩ := List.map_eq_cons_iff.1 hrest
  obtain ⟨c, rest, rfl, hc, hrest⟩ := List.map_eq_cons_iff.1 hrest
  obtain ⟨d, rest, rfl, hd, hnil⟩ := List.map_eq_cons_iff.1 hrest
  obtain rfl := List.map_eq_nil_iff.1 hnil
  obtain ⟨hatype, havalue⟩ := Prod.mk.inj ha
  obtain ⟨hbtype, hbvalue⟩ := Prod.mk.inj hb
  obtain ⟨hctype, hcvalue⟩ := Prod.mk.inj hc
  obtain ⟨hdtype, hdvalue⟩ := Prod.mk.inj hd
  have hfind : ∀ type, logFrameFindTlv frame type = [a, b, c, d].find? (·.type = type) := by
    intro type
    rw [logFrameFindTlv, htlvs]
  refine ⟨?_, ?_, ?_, ?_⟩
  · rw [hfind, show [a, b, c, d].find? (·.type = .appId) = some a by simp [hatype]]
    exact tlvGetString_of_value havalue
  · rw [hfind, show [a, b, c, d].find? (·.type = .entryLevel) = some b by simp [hatype, hbtype]]
    exact congrArg some (tlvGetLevel_of_value hbvalue)
  · rw [hfind, show [a, b, c, d].find? (·.type = .timestamp) = some c by
      simp [hatype, hbtype, hctype]]
    exact tlvGetTimestamp_of_value hcvalue
  · rw [hfind, show [a, b, c, d].find? (·.type = .logMessage) = some d by
      simp [hatype, hbtype, hctype, hdtype]]
    exact tlvGetString_of_value hdvalue

/-- **Which logs get a frame**: those of a level up to the threshold, with room for the name and the
message.  The frame is serialised, and the application, the level, the time and the message are read
back from it as they were. -/
theorem single_log_iff (host : ByteOrder) (block : (n : ℕ) → CArray UInt8 n)
    {config : LogProtocolConfig} (hmax : config.maxFrameSize ≤ 65560) (sequence : UInt16) (log : Log)
    (now : LogTimestamp) :
    let made := logProtocolCreateSingleLog host block config sequence log now
    (made.isSome = true ↔ log.level.code ≤ config.thresholdLevel.code ∧ log.level ≠ .disabled ∧
        config.appId.bytes.length < 32768 ∧ log.message.bytes.length < 32768 ∧
        50 + config.appId.bytes.length + log.message.bytes.length ≤ config.maxFrameSize) ∧
      ∀ frame, made = some frame → frame.rawData = frame.wire host ∧
        (logFrameFindTlv frame .appId).bind tlvGetString = some config.appId ∧
        (logFrameFindTlv frame .entryLevel).map tlvGetLevel = some (.success, log.level) ∧
        (logFrameFindTlv frame .timestamp).bind (tlvGetTimestamp host) = some log.timestamp ∧
        (logFrameFindTlv frame .logMessage).bind tlvGetString = some log.message := by
  intro made
  let new := logFrameCreate host config .singleLog sequence 0 now
  obtain ⟨hiff, hframe⟩ := @tryAll_single host block new hmax ⟨rfl, rfl⟩ rfl config.appId log
  let r := tryAll host block new (singleLogCalls config.appId log ++ [.serialize])
  have hmade : made = if config.thresholdLevel.code < log.level.code then none
      else if r.1 = .success then some r.2 else none := rfl
  by_cases hlevel : config.thresholdLevel.code < log.level.code
  · rw [if_pos hlevel] at hmade
    rw [hmade]
    exact ⟨iff_of_false Bool.false_ne_true fun h => absurd h.1 (UInt8.not_le.2 hlevel),
      fun frame h => by cases h⟩
  rw [if_neg hlevel] at hmade
  by_cases hok : r.1 = .success
  · rw [if_pos hok] at hmade
    have hlog := hiff.1 hok
    obtain ⟨hraw, hpairs⟩ := hframe hok
    rw [hmade]
    refine ⟨iff_of_true rfl
      ⟨UInt8.not_lt.1 hlevel, hlog.level, hlog.named, hlog.short, hlog.room⟩, ?_⟩
    rintro frame h
    obtain rfl := Option.some.inj h
    exact ⟨hraw, found_single hpairs⟩
  · rw [if_neg hok] at hmade
    rw [hmade]
    refine ⟨iff_of_false Bool.false_ne_true fun h => hok (hiff.2 ?_), fun frame h => by cases h⟩
    exact ⟨h.2.2.1, h.2.1, h.2.2.2.1, h.2.2.2.2⟩

theorem single_log_demo :
    (logProtocolCreateSingleLog .little (fun n => CArray.fill n 0)
      (logProtocolConfigInit unregisteredText .info) 1 ⟨.warn, unregisteredText, ⟨0, 0⟩⟩
      ⟨0, 0⟩).isSome = true :=
  (single_log_iff .little (fun n => CArray.fill n 0) (show 65536 ≤ 65560 by decide) 1
    ⟨.warn, unregisteredText, ⟨0, 0⟩⟩ ⟨0, 0⟩).1.2 (by decide +kernel)

end Lucp.MLog
