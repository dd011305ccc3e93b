import Lucp.MLog.Config
import Lucp.MLog.Batch

/-!
# What `logd` answers

A client registers with a frame of type `MTYP_REQUEST_CONFIG`.  `handle_init_request()` answers it
with the configuration of the application, or, if the application is not in the table, with a pure
status.  Both answers are built, serialised and sent without a look at what any of the functions
returns.  The answer with the configuration lacks the status message that its type needs, so it is
never serialised, and nothing is sent in its place.

## What is here

* `createConfigResponseFrame`, `createUnregisteredResponseFrame`, `sendFrame`, `recvFrame`,
  `serverReply` — the functions.
* `callAll_adds` — calls whose records all have room.
* `config_response_modes` — **which modes of a file the answer has**: for each level that of the
  next one.
* `serverReply_iff` — **what is answered**: to the requests of applications that are not registered
  that they are not, and to everything else nothing.
-/

set_option autoImplicit false

namespace Lucp.MLog

open Lucp.Lucfg

/-! ## The functions -/

/-- Whether a mode is sent as 1. -/
def modeFlag (mode : UInt8) : UInt8 := if mode ≠ modeNone then 1 else 0

/-- The mode of a level, in an entry of the table. -/
def DltAppCfg.modeAt (appCfg : DltAppCfg) (level : DltLevel) : UInt8 :=
  appCfg.modes.toList.getD level.code.toNat modeNone

/-- `create_config_response_frame()`. -/
def createConfigResponseFrame (host : ByteOrder) (block : (n : ℕ) → CArray UInt8 n)
    (appCfg : DltAppCfg) (sequence : UInt16) (now : LogTimestamp) : LogFrame :=
  callAll host block
    (logFrameCreate host (logProtocolConfigInit appCfg.appId appCfg.tresholdLevel) .configStatus
      sequence 0 now)
    [.addStringTlv .appId appCfg.appId,
      .addLevelTlv .thresholdLevel appCfg.tresholdLevel,
      .addUint8Tlv .fatalMode (modeFlag (appCfg.modeAt .fatal)),
      .addUint8Tlv .errorMode (modeFlag (appCfg.modeAt .error)),
      .addUint8Tlv .warningMode (modeFlag (appCfg.modeAt .warn)),
      .addUint8Tlv .infoMode (modeFlag (appCfg.modeAt .info)),
      .addUint8Tlv .debugMode (modeFlag (appCfg.modeAt .debug)),
      .addUint8Tlv .verboseMode (modeFlag (appCfg.modeAt .verbose)),
      .serialize]

/-- What an application that is not registered is told. -/
def unregisteredText : CString := ⟨textBytes "Application not registered", by decide⟩

/-- `create_unregistered_response_frame()`. -/
def createUnregisteredResponseFrame (host : ByteOrder) (block : (n : ℕ) → CArray UInt8 n)
    (appId : CString) (sequence : UInt16) (now : LogTimestamp) : LogFrame :=
  callAll host block
    (logFrameCreate host (logProtocolConfigInit appId .fatal) .pureStatus sequence 0 now)
    [.addStringTlv .appId appId, .addStringTlv .statusMessage unregisteredText, .serialize]

/-- `log_protocol_send_frame()`: what it sends if the connection takes it, the size and the bytes;
a frame that was never serialised has none. -/
def sendFrame (host : ByteOrder) (frame : LogFrame) : Bytes :=
  if frame.rawData = [] then []
  else store32 host (htonlC host (UInt32.ofNat frame.rawData.length)) ++ frame.rawData

/-- `log_protocol_recv_frame()`, with what its two calls of `recv()` get. -/
def recvFrame (host : ByteOrder) (config : LogProtocolConfig) (first second : Bytes) :
    Option LogFrame :=
  match first with
  | [a, b, c, d] =>
    let frameSize := (ntohlC host (load32 host a b c d)).toNat
    if frameSize = 0 ∨ config.maxFrameSize < frameSize then none
    else if second.length ≠ frameSize then none
    else logFrameParse host config second
  | _ => none

/-- The name of the application that a frame is about. -/
def appIdOf (frame : LogFrame) : Option CString := (logFrameFindTlv frame .appId).bind tlvGetString

/-- The answer of `handle_init_request()`. -/
def initResponse (host : ByteOrder) (block : (n : ℕ) → CArray UInt8 n) (apps : List DltAppCfg)
    (frame : LogFrame) (now : LogTimestamp) : Option LogFrame :=
  (appIdOf frame).map fun appId =>
    (dltGetAppcfg apps appId).elim
      (createUnregisteredResponseFrame host block appId frame.header.sequence now)
      fun appCfg => createConfigResponseFrame host block appCfg frame.header.sequence now

/-- What `client_handler()` reads its frames with. -/
def handlerConfig : LogProtocolConfig := logProtocolConfigInit (strdup []) .verbose

/-- One round of `client_handler()`: what it sends.  Logs it throws away. -/
def serverReply (host : ByteOrder) (block : (n : ℕ) → CArray UInt8 n) (apps : List DltAppCfg)
    (now : LogTimestamp) (first second : Bytes) : Bytes :=
  (recvFrame host handlerConfig first second).elim [] fun frame =>
    if frame.header.mtyp = MessageType.requestConfig.code then
      (initResponse host block apps frame now).elim [] (sendFrame host)
    else []

/-! ## Calls whose records have room -/

/-- The bytes that records with these values take. -/
def pairsSize (adds : List (TlvType × Bytes)) : ℕ := (adds.map fun p => 3 + p.2.length).sum

/-- **Calls whose records all have room** put all of them into the frame. -/
theorem callAll_adds (host : ByteOrder) (block : (n : ℕ) → CArray UInt8 n) {frame : LogFrame}
    (hmax : frame.maxFrameSize ≤ 65560) {adds : List (TlvType × Bytes)}
    (hfits : ∀ p ∈ adds, p.2.length ≤ maxTlvSize) (hroom : frame.HasRoom (pairsSize adds)) :
    ∃ ts : List Tlv, ts.map Tlv.pair = adds ∧
      callAll host block frame (adds.map fun p => .addTlv p.1 p.2) = frame.pushAll ts := by
  induction adds generalizing frame with
  | nil => exact ⟨[], rfl, (pushAll_nil frame).symm⟩
  | cons p adds ih =>
    let t : Tlv := ⟨p.1, p.2, hfits p List.mem_cons_self⟩
    have hsum : pairsSize (p :: adds) = t.size + pairsSize adds := List.sum_cons
    have hfirst : frame.HasRoom t.size := by
      rw [hsum] at hroom
      rw [LogFrame.HasRoom] at hroom ⊢
      omega
    have hrest : (frame.push t).HasRoom (pairsSize adds) := by
      rw [hasRoom_push hmax hfirst, ← hsum]
      exact hroom
    obtain ⟨ts, hts, hall⟩ := @ih (frame.push t) hmax
      (fun q hq => hfits q (List.mem_cons_of_mem _ hq)) hrest
    refine ⟨t :: ts, by rw [List.map_cons, hts]; rfl, ?_⟩
    have hstep : ((FrameCall.addTlv p.1 p.2).exec host block frame).2 = frame.push t :=
      congrArg Prod.snd (logFrameAddTlv_of_room hfirst)
    rw [← push_pushAll hmax hfirst, ← hall, List.map_cons, callAll, List.foldl_cons, hstep]
    rfl

theorem payloadSize_eq (ts : List Tlv) : payloadSize ts = pairsSize (ts.map Tlv.pair) := by
  rw [payloadSize, pairsSize, List.map_map]
  rfl

/-- Records that have room are counted. -/
theorem counted_pushAll {frame : LogFrame} (hmax : frame.maxFrameSize ≤ 65560)
    (hnew : frame.header.payloadLen = 0 ∧ frame.tlvs = []) {ts : List Tlv}
    (hroom : frame.HasRoom (payloadSize ts)) :
    (frame.pushAll ts).Counted ∧ payloadSize (frame.pushAll ts).tlvs < 65536 := by
  have htlvs : (frame.pushAll ts).tlvs = ts := by
    rw [LogFrame.pushAll, hnew.2, List.nil_append]
  have hlen : (frame.pushAll ts).header.payloadLen.toNat
      = (frame.header.payloadLen.toNat + payloadSize ts) % 65536 := UInt16.toNat_ofNat'
  have hzero : frame.header.payloadLen.toNat = 0 := by rw [hnew.1]; rfl
  rw [LogFrame.HasRoom, hzero, headerSize] at hroom
  rw [hzero, Nat.zero_add] at hlen
  refine ⟨⟨by rw [htlvs, hlen], fun _ => ?_⟩, by rw [htlvs]; omega⟩
  show headerSize + _ ≤ frame.maxFrameSize
  rw [hlen, headerSize]
  omega

theorem exec_addStringTlv (host : ByteOrder) (block : (n : ℕ) → CArray UInt8 n) (frame : LogFrame)
    (type : TlvType) {str : CString} (h : str.bytes.length < maxTlvSize) :
    (FrameCall.addStringTlv type str).exec host block frame
      = (FrameCall.addTlv type (str.bytes ++ [0])).exec host block frame :=
  if_neg (Nat.not_le.2 h)

theorem exec_addLevelTlv (host : ByteOrder) (block : (n : ℕ) → CArray UInt8 n) (frame : LogFrame)
    (type : TlvType) {level : DltLevel} (h : level ≠ .disabled) :
    (FrameCall.addLevelTlv type level).exec host block frame
      = (FrameCall.addTlv type [level.code]).exec host block frame :=
  if_neg h

/-! ## The answer with the configuration -/

/-- The records of the answer with the configuration. -/
def configPairs (appCfg : DltAppCfg) : List (TlvType × Bytes) :=
  (.appId, appCfg.appId.bytes ++ [0])
    :: (if appCfg.tresholdLevel = .disabled then []
        else [(.thresholdLevel, [appCfg.tresholdLevel.code])])
    ++ [(.fatalMode, [modeFlag (appCfg.modeAt .fatal)]),
      (.errorMode, [modeFlag (appCfg.modeAt .error)]),
      (.warningMode, [modeFlag (appCfg.modeAt .warn)]),
      (.infoMode, [modeFlag (appCfg.modeAt .info)]),
      (.debugMode, [modeFlag (appCfg.modeAt .debug)]),
      (.verboseMode, [modeFlag (appCfg.modeAt .verbose)])]

theorem configPairs_fit (appCfg : DltAppCfg) :
    (∀ p ∈ configPairs appCfg, p.1 ≠ .statusMessage ∧ p.2.length ≤ maxTlvSize) ∧
      pairsSize (configPairs appCfg) ≤ 63 := by
  have hfits := appCfg.fits
  have hmax : maxTlvSize = 32768 := rfl
  rw [configPairs]
  split_ifs
  · constructor
    · simp
      omega
    · simp [pairsSize]
      omega
  · constructor
    · simp
      omega
    · simp [pairsSize]
      omega

/-- **The answer with the configuration**: its records, and that it is not serialised. -/
theorem createConfigResponseFrame_eq (host : ByteOrder) (block : (n : ℕ) → CArray UInt8 n)
    (appCfg : DltAppCfg) (sequence : UInt16) (now : LogTimestamp) :
    (createConfigResponseFrame host block appCfg sequence now).tlvs.map Tlv.pair
        = configPairs appCfg ∧
      (createConfigResponseFrame host block appCfg sequence now).rawData = [] := by
  obtain ⟨hpairs, hsize⟩ := configPairs_fit appCfg
  have hshort : appCfg.appId.bytes.length < maxTlvSize := by
    have hfits := appCfg.fits
    rw [maxTlvSize]
    omega
  let frame := logFrameCreate host (logProtocolConfigInit appCfg.appId appCfg.tresholdLevel)
    .configStatus sequence 0 now
  have hroom : frame.HasRoom (pairsSize (configPairs appCfg)) := by
    show 25 + (0 + _) ≤ 65536
    omega
  obtain ⟨ts, hts, hall⟩ := callAll_adds host block
    (show frame.maxFrameSize ≤ 65560 from (by decide : 65536 ≤ 65560)) (fun p hp => (hpairs p hp).2)
    hroom
  have hcalls : createConfigResponseFrame host block appCfg sequence now
      = (logFrameSerialize host block (frame.pushAll ts)).2 := by
    rw [← hall]
    by_cases hlevel : appCfg.tresholdLevel = .disabled
    · have hskip : ∀ f, ((FrameCall.addLevelTlv .thresholdLevel appCfg.tresholdLevel).exec host
          block f).2 = f := fun f => by
        show (logFrameAddLevelTlv f _ _).2 = f
        rw [logFrameAddLevelTlv, if_pos hlevel]
      simp only [createConfigResponseFrame, configPairs, callAll, if_pos hlevel, List.foldl_cons,
        List.foldl_nil, hskip, exec_addStringTlv host block _ _ hshort]
      rfl
    · simp only [createConfigResponseFrame, configPairs, callAll, if_neg hlevel, List.foldl_cons,
        List.foldl_nil, exec_addStringTlv host block _ _ hshort,
        exec_addLevelTlv host block _ _ hlevel]
      rfl
  have htlvs : (frame.pushAll ts).tlvs = ts := List.nil_append ts
  have hmissing : logFrameFindTlv (frame.pushAll ts) .statusMessage = none := by
    rw [logFrameFindTlv, htlvs, List.find?_eq_none]
    intro t ht htype
    have hmem : t.pair ∈ configPairs appCfg := hts ▸ List.mem_map_of_mem ht
    exact (hpairs _ hmem).1 (of_decide_eq_true htype)
  have hinvalid : logFrameValidateTlvs (frame.pushAll ts) = .tlvNotFound := by
    show validateTlvs (frame.pushAll ts) .configStatus = _
    rw [validateTlvs, if_neg (by decide), if_neg (fun h => by cases h.1),
      if_pos ⟨_, List.mem_cons_self, hmissing⟩]
  have hsame : (logFrameSerialize host block (frame.pushAll ts)).2 = frame.pushAll ts := by
    rw [logFrameSerialize, if_pos (by rw [hinvalid]; decide)]
  rw [hcalls, hsame, htlvs]
  exact ⟨hts, rfl⟩

/-- Which mode stands at the place of a level. -/
theorem modeAt_appCfg {D : Type} (t : Table D) (general : DltGeneralCfg) (sec : CString)
    (level : DltLevel) :
    (appCfg t general sec).modeAt level
      = (levelKeys.map (keyMode t sec.bytes) ++ [modeNone]).getD level.code.toNat modeNone := by
  rw [DltAppCfg.modeAt]
  show (loadModes t sec.bytes (CArray.fill 7 modeNone)).toList.getD _ _ = _
  rw [modes_loadModes]

/-- **The modes in the answer to an application** are those of its section, each one at the level in
front of its own: the mode of `fatal.mode` is lost, and that of the last level is always 0. -/
theorem config_response_modes (host : ByteOrder) (block : (n : ℕ) → CArray UInt8 n) {D : Type}
    [Doubles D] (t : Table D) (general : DltGeneralCfg) {appId : CString} {app : DltAppCfg}
    (h : dltGetAppcfg (((appSections t).take 20).map (appCfg t general)) appId = some app)
    (sequence : UInt16) (now : LogTimestamp) :
    ∃ sec ∈ appSections t, cutTo 32 sec = appId ∧
      let mode key := modeFlag (keyMode t sec.bytes (textBytes key))
      (createConfigResponseFrame host block app sequence now).tlvs.map Tlv.pair
        = (.appId, appId.bytes ++ [0])
          :: (if app.tresholdLevel = .disabled then []
              else [(.thresholdLevel, [app.tresholdLevel.code])])
          ++ [(.fatalMode, [mode "error.mode"]), (.errorMode, [mode "warning.mode"]),
            (.warningMode, [mode "info.mode"]), (.infoMode, [mode "debug.mode"]),
            (.debugMode, [mode "verbose.mode"]), (.verboseMode, [0])] := by
  obtain ⟨sec, hsec, rfl, hcut⟩ := appcfg_sound h
  refine ⟨sec, hsec, hcut, ?_⟩
  rw [(createConfigResponseFrame_eq host block _ sequence now).1, configPairs]
  simp only [modeAt_appCfg]
  rw [← hcut]
  rfl

theorem config_response_demo : ∃ (t : Table Exact) (app : DltAppCfg),
    loadFile .zeros appsFile = .ok t ∧ ∃ sec ∈ appSections t,
      cutTo 32 sec = strdup (textBytes "demo") ∧
        let mode key := modeFlag (keyMode t sec.bytes (textBytes key))
        (createConfigResponseFrame .little (fun n => CArray.fill n 0) app 1 ⟨0, 0⟩).tlvs.map Tlv.pair
          = (.appId, (strdup (textBytes "demo")).bytes ++ [0])
            :: (if app.tresholdLevel = .disabled then []
                else [(.thresholdLevel, [app.tresholdLevel.code])])
            ++ [(.fatalMode, [mode "error.mode"]), (.errorMode, [mode "warning.mode"]),
              (.warningMode, [mode "info.mode"]), (.infoMode, [mode "debug.mode"]),
              (.debugMode, [mode "verbose.mode"]), (.verboseMode, [0])] := by
  let t : Table Exact :=
    Chained.pushAll Entry.bucket Chained.empty (entriesOf Memory.zeros.freed appsFile)
  have hload : loadFile .zeros appsFile = .ok t :=
    (loadFile_eq (by decide +kernel) .zeros).trans (if_pos (by decide +kernel))
  have hfound : (dltGetAppcfg (((appSections t).take 20).map (appCfg t defaultGeneralCfg))
      (strdup (textBytes "demo"))).isSome = true := by
    decide +kernel
  obtain ⟨app, happ⟩ := Option.isSome_iff_exists.1 hfound
  exact ⟨t, app, hload, config_response_modes .little _ t defaultGeneralCfg happ 1 ⟨0, 0⟩⟩

/-! ## The answer to an application that is not registered -/

/-- **The answer to an application that is not registered** has all its records, and is serialised.
-/
theorem createUnregisteredResponseFrame_eq (host : ByteOrder) (block : (n : ℕ) → CArray UInt8 n)
    {appId : CString} (hshort : appId.bytes.length < maxTlvSize) (sequence : UInt16)
    (now : LogTimestamp) :
    let response := createUnregisteredResponseFrame host block appId sequence now
    response.tlvs.map Tlv.pair
        = [(.appId, appId.bytes ++ [0]), (.statusMessage, unregisteredText.bytes ++ [0])] ∧
      response.header.mtyp = MessageType.pureStatus.code ∧
      response.rawData = response.wire host ∧ response.rawData.length ≤ defaultMaxFrameSize := by
  intro response
  let frame := logFrameCreate host (logProtocolConfigInit appId .fatal) .pureStatus sequence 0 now
  let adds : List (TlvType × Bytes) :=
    [(.appId, appId.bytes ++ [0]), (.statusMessage, unregisteredText.bytes ++ [0])]
  have htext : unregisteredText.bytes.length = 26 := by decide
  have hmax : maxTlvSize = 32768 := rfl
  have hsize : pairsSize adds = appId.bytes.length + 34 := by
    simp [adds, pairsSize, htext]
    omega
  have hfits : ∀ p ∈ adds, p.2.length ≤ maxTlvSize := by
    simp [adds, htext]
    omega
  have hroom : frame.HasRoom (pairsSize adds) := by
    show 25 + (0 + _) ≤ 65536
    omega
  obtain ⟨ts, hts, hall⟩ := callAll_adds host block
    (show frame.maxFrameSize ≤ 65560 from (by decide : 65536 ≤ 65560)) hfits hroom
  have hcalls : response = (logFrameSerialize host block (frame.pushAll ts)).2 := by
    rw [← hall]
    simp only [response, createUnregisteredResponseFrame, adds, callAll, List.map_cons,
      List.map_nil, List.foldl_cons, List.foldl_nil, exec_addStringTlv host block _ _ hshort,
      exec_addStringTlv host block _ _ (show unregisteredText.bytes.length < maxTlvSize by decide)]
    rfl
  have htlvs : (frame.pushAll ts).tlvs = ts := List.nil_append ts
  rw [← hts, ← payloadSize_eq] at hroom
  obtain ⟨hcounted, hlt⟩ := counted_pushAll
    (show frame.maxFrameSize ≤ 65560 from (by decide : 65536 ≤ 65560)) ⟨rfl, rfl⟩ hroom
  have hvalid : logFrameValidateTlvs (frame.pushAll ts) = .success := by
    obtain ⟨a, rest, rfl, ha, hrest⟩ := List.map_eq_cons_iff.1 hts
    obtain ⟨b, rest, rfl, hb, hnil⟩ := List.map_eq_cons_iff.1 hrest
    obtain rfl := List.map_eq_nil_iff.1 hnil
    have hatype : a.type = .appId := congrArg Prod.fst ha
    have hbtype : b.type = .statusMessage := congrArg Prod.fst hb
    show validateTlvs (frame.pushAll [a, b]) .pureStatus = _
    simp [validateTlvs, requiredTlvs, logFrameFindTlv, htlvs, hatype, hbtype, Tlv.WellSized,
      TlvType.fixedLength]
  rw [hcalls, serialize_of_lt hcounted hvalid hlt]
  refine ⟨by rw [htlvs]; exact hts, rfl, rfl, ?_⟩
  show ((frame.pushAll ts).wire host).length ≤ defaultMaxFrameSize
  have hle : 25 + (0 + payloadSize ts) ≤ 65536 := hroom
  rw [length_wire, htlvs, headerSize, defaultMaxFrameSize]
  omega

/-! ## What is answered -/

/-- A string out of a record is short enough for a record. -/
theorem length_tlvGetString {t : Tlv} {str : CString} (h : tlvGetString t = some str) :
    str.bytes.length < maxTlvSize := by
  rw [tlvGetString] at h
  split_ifs at h with hlast
  rw [← Option.some.inj h]
  refine lt_of_lt_of_le ?_ t.fits
  show (t.value.takeWhile (· ≠ 0)).length < t.value.length
  refine lt_of_le_of_ne (List.takeWhile_prefix _).length_le fun heq => ?_
  have hall := List.takeWhile_eq_self_iff.1 ((List.takeWhile_prefix _).eq_of_length heq)
  exact absurd rfl (of_decide_eq_true (hall 0 (List.mem_of_getLast? hlast)))

/-- What is received is the request of an application that is not in the table. -/
structure Unregistered (host : ByteOrder) (apps : List DltAppCfg) (first second : Bytes)
    (frame : LogFrame) (appId : CString) : Prop where
  received : recvFrame host handlerConfig first second = some frame
  request : frame.header.mtyp = MessageType.requestConfig.code
  named : appIdOf frame = some appId
  missing : dltGetAppcfg apps appId = none

theorem sendFrame_unregistered (host : ByteOrder) (block : (n : ℕ) → CArray UInt8 n)
    {appId : CString} (hshort : appId.bytes.length < maxTlvSize) (sequence : UInt16)
    (now : LogTimestamp) :
    let response := createUnregisteredResponseFrame host block appId sequence now
    sendFrame host response
      = be32 (UInt32.ofNat (response.wire host).length) ++ response.wire host := by
  intro response
  obtain ⟨-, -, hraw, -⟩ := createUnregisteredResponseFrame_eq host block hshort sequence now
  have hne : response.wire host ≠ [] := by
    intro hnil
    have hlen := length_wire host response
    rw [hnil, headerSize, List.length_nil] at hlen
    omega
  rw [sendFrame, hraw, if_neg hne, store32_htonlC]

/-- What is sent back, if anything. -/
theorem serverReply_cases (host : ByteOrder) (block : (n : ℕ) → CArray UInt8 n)
    (apps : List DltAppCfg) (now : LogTimestamp) (first second : Bytes) :
    (∃ frame appId, Unregistered host apps first second frame appId ∧
        serverReply host block apps now first second = sendFrame host
          (createUnregisteredResponseFrame host block appId frame.header.sequence now)) ∨
      (¬ ∃ frame appId, Unregistered host apps first second frame appId) ∧
        serverReply host block apps now first second = [] := by
  rw [serverReply]
  cases hrecv : recvFrame host handlerConfig first second with
  | none =>
    refine .inr ⟨?_, rfl⟩
    rintro ⟨frame, appId, h⟩
    cases hrecv.symm.trans h.received
  | some frame =>
    have hsame : ∀ {f appId}, Unregistered host apps first second f appId → f = frame :=
      fun h => Option.some.inj (h.received.symm.trans hrecv)
    rw [Option.elim_some]
    by_cases hmtyp : frame.header.mtyp = MessageType.requestConfig.code
    swap
    · refine .inr ⟨?_, if_neg hmtyp⟩
      rintro ⟨f, appId, h⟩
      exact hmtyp (hsame h ▸ h.request)
    rw [if_pos hmtyp, initResponse]
    cases hid : appIdOf frame with
    | none =>
      refine .inr ⟨?_, rfl⟩
      rintro ⟨f, appId, h⟩
      have hnamed := h.named
      rw [hsame h, hid] at hnamed
      cases hnamed
    | some appId =>
      rw [Option.map_some, Option.elim_some]
      cases hget : dltGetAppcfg apps appId with
      | none => exact .inl ⟨frame, appId, ⟨hrecv, hmtyp, hid, hget⟩, rfl⟩
      | some appCfg =>
        refine .inr ⟨?_, ?_⟩
        · rintro ⟨f, id, h⟩
          have hnamed := h.named
          rw [hsame h, hid] at hnamed
          have hmissing := h.missing
          rw [← Option.some.inj hnamed, hget] at hmissing
          cases hmissing
        · rw [Option.elim_some, sendFrame, if_pos (createConfigResponseFrame_eq host block appCfg _
            now).2]

/-- **What `logd` answers**: to the requests of applications that are not registered that they are
not, and nothing to whatever else it receives, the requests of registered applications included. -/
theorem serverReply_iff (host : ByteOrder) (block : (n : ℕ) → CArray UInt8 n)
    (apps : List DltAppCfg) (now : LogTimestamp) (first second : Bytes) :
    let reply := serverReply host block apps now first second
    (reply ≠ [] ↔ ∃ frame appId, Unregistered host apps first second frame appId) ∧
      ∀ frame appId, Unregistered host apps first second frame appId →
        ∃ response : LogFrame,
          reply = be32 (UInt32.ofNat (response.wire host).length) ++ response.wire host ∧
            response.header.mtyp = MessageType.pureStatus.code ∧
            response.tlvs.map Tlv.pair = [(.appId, appId.bytes ++ [0]),
              (.statusMessage, unregisteredText.bytes ++ [0])] := by
  intro reply
  rcases serverReply_cases host block apps now first second with
    ⟨frame, appId, hun, hreply⟩ | ⟨hnone, hreply⟩
  · have hshort : appId.bytes.length < maxTlvSize := by
      obtain ⟨t, -, ht⟩ := Option.bind_eq_some_iff.1 hun.named
      exact length_tlvGetString ht
    obtain ⟨hpairs, hmtyp, -⟩ :=
      createUnregisteredResponseFrame_eq host block hshort frame.header.sequence now
    have hsent := sendFrame_unregistered host block hshort frame.header.sequence now
    have hne : reply ≠ [] := by
      show serverReply host block apps now first second ≠ []
      rw [hreply, hsent]
      exact List.cons_ne_nil _ _
    refine ⟨iff_of_true hne ⟨frame, appId, hun⟩, fun f id h => ?_⟩
    obtain rfl : f = frame := Option.some.inj (h.received.symm.trans hun.received)
    obtain rfl : id = appId := Option.some.inj (h.named.symm.trans hun.named)
    exact ⟨_, hreply.trans hsent, hmtyp, hpairs⟩
  · exact ⟨iff_of_false (fun h => h hreply) hnone, fun f id h => absurd ⟨f, id, h⟩ hnone⟩

/-- A request of an application `a` is answered as long as `a` is not in the table. -/
theorem serverReply_iff_request :
    let size := be32 (UInt32.ofNat requestBytes.length)
    let a : CString := strdup (textBytes "a")
    let app : DltAppCfg := ⟨a, by decide, .info, CArray.fill 7 modeNone⟩
    (∃ response : LogFrame,
      serverReply .big (fun n => .fill n 0) [] ⟨0, 0⟩ size requestBytes
          = be32 (UInt32.ofNat (response.wire .big).length) ++ response.wire .big ∧
        response.tlvs.map Tlv.pair
          = [(.appId, a.bytes ++ [0]), (.statusMessage, unregisteredText.bytes ++ [0])]) ∧
      serverReply .big (fun n => .fill n 0) [app] ⟨0, 0⟩ size requestBytes = [] := by
  intro size a app
  obtain ⟨frame, hframe⟩ := Option.isSome_iff_exists.1
    (show (recvFrame .big handlerConfig size requestBytes).isSome = true by decide +kernel)
  have hread : (recvFrame .big handlerConfig size requestBytes).all (fun f =>
      f.header.mtyp = MessageType.requestConfig.code ∧ appIdOf f = some a) = true := by
    decide +kernel
  rw [hframe] at hread
  obtain ⟨hrequest, hnamed⟩ := of_decide_eq_true hread
  constructor
  · obtain ⟨response, hreply, -, hpairs⟩ := (serverReply_iff .big (fun n => .fill n 0) [] ⟨0, 0⟩
      size requestBytes).2 frame a ⟨hframe, hrequest, hnamed, rfl⟩
    exact ⟨response, hreply, hpairs⟩
  · by_contra hne
    obtain ⟨f, id, hun⟩ := (serverReply_iff .big (fun n => .fill n 0) [app] ⟨0, 0⟩ size
      requestBytes).1.1 hne
    obtain rfl := Option.some.inj (hframe.symm.trans hun.received)
    obtain rfl := Option.some.inj (hnamed.symm.trans hun.named)
    have hfound : (dltGetAppcfg [app] a).isSome = true := by decide +kernel
    rw [hun.missing] at hfound
    cases hfound

end Lucp.MLog
