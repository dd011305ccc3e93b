import Lucp.MLog.Parse

/-!
# Frames of many logs

A frame of type `MTYP_MULTIPLE_LOGS` holds the application and then three records for each log, and
nothing but their order says which belong together.  `log_protocol_add_batch_log()` adds the three
one after the other and returns when one does not fit, without taking those in front of it out
again; `log_flush_thread()` goes on with the next log then, whose message may be shorter, and
serialises the frame in the end.

## What is here

* `logProtocolCreateBatchLogFrame`, `Log`, `addLog`, `batch` — the frame behind any number of logs.
* `Cut` — the log has room for its level, but not for all of it.
* `addLog_spec` — how many of the three records a call adds.
* `not_groups_of_broken` — behind the remains of a cut log nothing is in its place again.
* `batch_sent_iff` — **the frame can be sent exactly if no log was cut**, and then it holds exactly
  the logs whose calls succeeded; otherwise all of them are lost.
-/

set_option autoImplicit false

namespace Lucp.MLog

/-! ## The functions -/

/-- `log_protocol_create_batch_log_frame()`. -/
def logProtocolCreateBatchLogFrame (host : ByteOrder) (config : LogProtocolConfig)
    (sequence : UInt16) (now : LogTimestamp) : Option LogFrame :=
  let added := logFrameAddStringTlv (logFrameCreate host config .multipleLogs sequence 0 now)
    .appId config.appId
  if added.1 = .success then some added.2 else none

/-- What is logged. -/
structure Log where
  level : DltLevel
  message : CString
  timestamp : LogTimestamp

/-- One more log. -/
def addLog (host : ByteOrder) (frame : LogFrame) (log : Log) : LogProtocolError × LogFrame :=
  logProtocolAddBatchLog host frame log.level log.message log.timestamp

/-- The frame behind a number of logs, whatever the calls return. -/
def batch (host : ByteOrder) (frame : LogFrame) (logs : List Log) : LogFrame :=
  logs.foldl (fun frame log => (addLog host frame log).2) frame

/-- The logs whose calls succeed. -/
def acceptedLogs (host : ByteOrder) : LogFrame → List Log → List Log
  | _, [] => []
  | frame, log :: logs =>
    if (addLog host frame log).1 = .success then
      log :: acceptedLogs host (addLog host frame log).2 logs
    else acceptedLogs host (addLog host frame log).2 logs

/-- The type of a record and its value. -/
def Tlv.pair (t : Tlv) : TlvType × Bytes := (t.type, t.value)

/-- The three records of a log. -/
def logPairs (host : ByteOrder) (log : Log) : List (TlvType × Bytes) :=
  [(.entryLevel, [log.level.code]), (.timestamp, timestampBytes host log.timestamp),
    (.logMessage, log.message.bytes ++ [0])]

/-- There is room for the whole log. -/
def FitsWhole (frame : LogFrame) (log : Log) : Prop :=
  log.message.bytes.length < maxTlvSize ∧
    frame.HasRoom (4 + 13 + (4 + log.message.bytes.length))

/-- There is room for the level of a log, but not for all of it. -/
def Cut (frame : LogFrame) (log : Log) : Prop :=
  log.level ≠ .disabled ∧ frame.HasRoom 4 ∧ ¬ FitsWhole frame log

instance (frame : LogFrame) (log : Log) : Decidable (FitsWhole frame log) :=
  inferInstanceAs (Decidable (_ ∧ _))

instance (frame : LogFrame) (log : Log) : Decidable (Cut frame log) :=
  inferInstanceAs (Decidable (_ ∧ _ ∧ _))

/-- No log is cut, as they come. -/
def Uncut (host : ByteOrder) : LogFrame → List Log → Prop
  | _, [] => True
  | frame, log :: logs => ¬ Cut frame log ∧ Uncut host (addLog host frame log).2 logs

/-! ## Frames that 16 bits count -/

/-- `payload_len` is the number of bytes of the records, and they have room. -/
structure LogFrame.Exact (frame : LogFrame) : Prop where
  limit : frame.maxFrameSize ≤ 65560
  counts : frame.header.payloadLen.toNat = payloadSize frame.tlvs
  within : frame.tlvs ≠ [] → headerSize + frame.header.payloadLen.toNat ≤ frame.maxFrameSize

theorem LogFrame.Exact.push {frame : LogFrame} (h : frame.Exact) {t : Tlv}
    (hroom : frame.HasRoom t.size) : (frame.push t).Exact := by
  have hcount := toNat_push h.limit hroom
  refine ⟨h.limit, ?_, fun _ => ?_⟩
  · rw [hcount, h.counts]
    show _ = payloadSize (frame.tlvs ++ [t])
    simp
  · rw [hcount]
    exact hroom

theorem LogFrame.Exact.lt {frame : LogFrame} (h : frame.Exact) :
    payloadSize frame.tlvs < 65536 := by
  rcases eq_or_ne frame.tlvs [] with hnil | hne
  · rw [hnil]
    decide
  · have hwithin := h.within hne
    have hlimit := h.limit
    rw [h.counts, headerSize] at hwithin
    omega

theorem LogFrame.Exact.counted {frame : LogFrame} (h : frame.Exact) : frame.Counted :=
  ⟨by rw [h.counts, Nat.mod_eq_of_lt h.lt], h.within⟩

/-! ## One log -/

theorem length_timestampBytes (host : ByteOrder) (timestamp : LogTimestamp) :
    (timestampBytes host timestamp).length = 10 := by
  obtain ⟨a, b, c, d, e, f, g, h, heq, -⟩ :=
    load64_store64 host (htonll host timestamp.seconds)
  rw [timestampBytes, List.length_append, heq, length_store16]
  rfl

theorem andThen_success (frame : LogFrame) (next : LogFrame → LogProtocolError × LogFrame) :
    andThen (.success, frame) next = next frame :=
  if_pos rfl

theorem andThen_error {r : LogProtocolError × LogFrame} (h : r.1 ≠ .success)
    (next : LogFrame → LogProtocolError × LogFrame) : andThen r next = r :=
  if_neg h

/-- The record with the level. -/
def levelTlv (level : DltLevel) : Tlv := ⟨.entryLevel, [level.code], show 1 ≤ maxTlvSize by decide⟩

/-- The record with the time stamp. -/
def timestampTlv (host : ByteOrder) (timestamp : LogTimestamp) : Tlv :=
  ⟨.timestamp, timestampBytes host timestamp, by rw [length_timestampBytes]; decide⟩

/-- The record with the message. -/
def messageTlv (message : CString) (h : message.bytes.length < maxTlvSize) : Tlv :=
  ⟨.logMessage, message.bytes ++ [0], by rwa [List.length_append, List.length_singleton]⟩

theorem size_timestampTlv (host : ByteOrder) (timestamp : LogTimestamp) :
    (timestampTlv host timestamp).size = 13 :=
  congrArg (3 + ·) (length_timestampBytes host timestamp)

theorem size_messageTlv (message : CString) (h : message.bytes.length < maxTlvSize) :
    (messageTlv message h).size = 4 + message.bytes.length := by
  show 3 + (message.bytes ++ [0]).length = _
  rw [List.length_append, List.length_singleton]
  omega

theorem wellSized_levelTlv (level : DltLevel) : (levelTlv level).WellSized :=
  fun _ hn => Option.some.inj hn

theorem wellSized_timestampTlv (host : ByteOrder) (timestamp : LogTimestamp) :
    (timestampTlv host timestamp).WellSized :=
  fun _ hn => (length_timestampBytes host timestamp).trans (Option.some.inj hn)

theorem addLevelTlv_eq (frame : LogFrame) {level : DltLevel} (h : level ≠ .disabled) :
    logFrameAddLevelTlv frame .entryLevel level
      = logFrameAddTlv frame (levelTlv level).type (levelTlv level).value :=
  if_neg h

theorem addTimestampTlv_eq (host : ByteOrder) (frame : LogFrame) (timestamp : LogTimestamp) :
    logFrameAddTimestampTlv host frame timestamp
      = logFrameAddTlv frame (timestampTlv host timestamp).type
        (timestampTlv host timestamp).value :=
  rfl

theorem addMessageTlv_eq (frame : LogFrame) {message : CString}
    (h : message.bytes.length < maxTlvSize) :
    logFrameAddStringTlv frame .logMessage message
      = logFrameAddTlv frame (messageTlv message h).type (messageTlv message h).value :=
  if_neg (Nat.not_le.2 h)

/-- What a call comes to that adds these records of a log. -/
structure Added (host : ByteOrder) (frame : LogFrame) (log : Log)
    (r : LogProtocolError × LogFrame) (ts : List Tlv) : Prop where
  tlvs : r.2.tlvs = frame.tlvs ++ ts
  pairs : ts.map Tlv.pair = (logPairs host log).take ts.length
  sized : ∀ t ∈ ts, t.WellSized
  done : r.1 = .success ↔ ts.length = 3
  cut : Cut frame log ↔ ts.length = 1 ∨ ts.length = 2

/-- Nothing is added. -/
theorem added_nothing (host : ByteOrder) {frame : LogFrame} {log : Log}
    {r : LogProtocolError × LogFrame} (hfails : r.1 ≠ .success) (hframe : r.2 = frame)
    (hcut : ¬ Cut frame log) : Added host frame log r [] where
  tlvs := by rw [hframe, List.append_nil]
  pairs := rfl
  sized _ ht := absurd ht List.not_mem_nil
  done := by simp [hfails]
  cut := by simp [hcut]

/-- The level is added, and nothing behind it. -/
theorem added_level (host : ByteOrder) {frame : LogFrame} {log : Log}
    {r : LogProtocolError × LogFrame} (hfails : r.1 ≠ .success)
    (hframe : r.2 = frame.push (levelTlv log.level)) (hcut : Cut frame log) :
    Added host frame log r [levelTlv log.level] where
  tlvs := by rw [hframe]; rfl
  pairs := rfl
  sized _ ht := List.mem_singleton.1 ht ▸ wellSized_levelTlv log.level
  done := by simp [hfails]
  cut := by simp [hcut]

/-- The level and the time stamp are added, and not the message. -/
theorem added_timestamp {host : ByteOrder} {frame : LogFrame} {log : Log}
    {r : LogProtocolError × LogFrame} (hfails : r.1 ≠ .success)
    (hframe : r.2 = (frame.push (levelTlv log.level)).push (timestampTlv host log.timestamp))
    (hcut : Cut frame log) :
    Added host frame log r [levelTlv log.level, timestampTlv host log.timestamp] where
  tlvs := by
    rw [hframe]
    show (frame.tlvs ++ [_]) ++ [_] = _
    rw [List.append_assoc]
    rfl
  pairs := rfl
  sized := by simpa using ⟨wellSized_levelTlv log.level, wellSized_timestampTlv host log.timestamp⟩
  done := by simp [hfails]
  cut := by simp [hcut]

/-- All of the log is added. -/
theorem added_log {host : ByteOrder} {frame : LogFrame} {log : Log}
    (hshort : log.message.bytes.length < maxTlvSize) (hcut : ¬ Cut frame log) :
    Added host frame log
      (.success, ((frame.push (levelTlv log.level)).push (timestampTlv host log.timestamp)).push
        (messageTlv log.message hshort))
      [levelTlv log.level, timestampTlv host log.timestamp, messageTlv log.message hshort] where
  tlvs := by
    show ((frame.tlvs ++ [_]) ++ [_]) ++ [_] = _
    rw [List.append_assoc, List.append_assoc]
    rfl
  pairs := rfl
  sized := by
    have hmessage : (messageTlv log.message hshort).WellSized := fun _ hn => by cases hn
    simpa using ⟨wellSized_levelTlv log.level, wellSized_timestampTlv host log.timestamp, hmessage⟩
  done := by simp
  cut := by simp [hcut]

/-- Room for the time stamp. -/
theorem hasRoom_timestamp (host : ByteOrder) {frame : LogFrame} (hexact : frame.Exact) (log : Log)
    (hroom : frame.HasRoom 4) :
    (frame.push (levelTlv log.level)).HasRoom (timestampTlv host log.timestamp).size
      ↔ frame.HasRoom (4 + 13) := by
  have hlevel : frame.HasRoom (levelTlv log.level).size := hroom
  rw [hasRoom_push hexact.limit hlevel, size_timestampTlv]
  rfl

/-- Room for the message. -/
theorem hasRoom_message (host : ByteOrder) {frame : LogFrame} (hexact : frame.Exact) {log : Log}
    (hroom : frame.HasRoom (4 + 13)) (hshort : log.message.bytes.length < maxTlvSize) :
    ((frame.push (levelTlv log.level)).push (timestampTlv host log.timestamp)).HasRoom
      (messageTlv log.message hshort).size ↔ FitsWhole frame log := by
  have hlevel : frame.HasRoom (levelTlv log.level).size := by
    show frame.HasRoom 4
    rw [LogFrame.HasRoom] at hroom ⊢
    omega
  have hstamp := (hasRoom_timestamp host hexact log hlevel).2 hroom
  have hsum : (levelTlv log.level).size + (13 + (4 + log.message.bytes.length))
      = 4 + 13 + (4 + log.message.bytes.length) := by
    show 4 + (13 + (4 + log.message.bytes.length)) = _
    omega
  rw [hasRoom_push (hexact.push hlevel).limit hstamp, hasRoom_push hexact.limit hlevel,
    size_timestampTlv, size_messageTlv, hsum]
  exact ⟨fun h => ⟨hshort, h⟩, fun h => h.2⟩

/-- The last of the three calls. -/
theorem addMessage_spec (host : ByteOrder) {frame : LogFrame} (hexact : frame.Exact) {log : Log}
    (hlevel : log.level ≠ .disabled) (hroom : frame.HasRoom (4 + 13)) :
    ∃ ts, Added host frame log (logFrameAddStringTlv
      ((frame.push (levelTlv log.level)).push (timestampTlv host log.timestamp)) .logMessage
      log.message) ts := by
  have hfirst : frame.HasRoom 4 := by
    rw [LogFrame.HasRoom] at hroom ⊢
    omega
  by_cases hlong : maxTlvSize ≤ log.message.bytes.length
  · rw [logFrameAddStringTlv, if_pos hlong]
    exact ⟨_, added_timestamp (fun h => LogProtocolError.noConfusion h) rfl
      ⟨hlevel, hfirst, fun hfits => absurd hfits.1 (Nat.not_lt.2 hlong)⟩⟩
  · have hshort := Nat.lt_of_not_le hlong
    have hlast := hasRoom_message host hexact hroom hshort
    rw [addMessageTlv_eq _ hshort]
    by_cases hfits : FitsWhole frame log
    · rw [logFrameAddTlv_of_room (hlast.2 hfits)]
      exact ⟨_, added_log hshort fun hcut => hcut.2.2 hfits⟩
    · rw [logFrameAddTlv_of_no_room (mt hlast.1 hfits)]
      exact ⟨_, added_timestamp (fun h => LogProtocolError.noConfusion h) rfl
        ⟨hlevel, hfirst, hfits⟩⟩

/-- The last two calls. -/
theorem addTimestamp_spec (host : ByteOrder) {frame : LogFrame} (hexact : frame.Exact) {log : Log}
    (hlevel : log.level ≠ .disabled) (hroom : frame.HasRoom 4) :
    ∃ ts, Added host frame log (andThen
      (logFrameAddTimestampTlv host (frame.push (levelTlv log.level)) log.timestamp) fun frame =>
        logFrameAddStringTlv frame .logMessage log.message) ts := by
  have hnext := hasRoom_timestamp host hexact log hroom
  rw [addTimestampTlv_eq]
  by_cases hstamp : frame.HasRoom (4 + 13)
  · rw [logFrameAddTlv_of_room (hnext.2 hstamp), andThen_success]
    exact addMessage_spec host hexact hlevel hstamp
  · have hnot : ¬ FitsWhole frame log := by
      rintro ⟨-, hfits⟩
      rw [LogFrame.HasRoom] at hstamp hfits
      omega
    rw [logFrameAddTlv_of_no_room (mt hnext.1 hstamp),
      andThen_error (fun h => LogProtocolError.noConfusion h)]
    exact ⟨_, added_level host (fun h => LogProtocolError.noConfusion h) rfl
      ⟨hlevel, hroom, hnot⟩⟩

/-- **What a call adds**: the first records of the log, as many as there is room for. -/
theorem addLog_spec (host : ByteOrder) {frame : LogFrame} (hexact : frame.Exact)
    (hmtyp : frame.header.mtyp = MessageType.multipleLogs.code) (log : Log) :
    ∃ ts, Added host frame log (addLog host frame log) ts := by
  have hadd : addLog host frame log
      = andThen (logFrameAddLevelTlv frame .entryLevel log.level) fun frame =>
          andThen (logFrameAddTimestampTlv host frame log.timestamp) fun frame =>
            logFrameAddStringTlv frame .logMessage log.message :=
    if_neg (not_not.2 hmtyp)
  rw [hadd]
  by_cases hlevel : log.level = .disabled
  · rw [logFrameAddLevelTlv, if_pos hlevel, andThen_error (fun h => LogProtocolError.noConfusion h)]
    exact ⟨[], added_nothing host (fun h => LogProtocolError.noConfusion h) rfl
      fun hcut => hcut.1 hlevel⟩
  · rw [addLevelTlv_eq frame hlevel]
    by_cases hroom : frame.HasRoom (levelTlv log.level).size
    · rw [logFrameAddTlv_of_room hroom, andThen_success]
      exact addTimestamp_spec host hexact hlevel hroom
    · rw [logFrameAddTlv_of_no_room hroom, andThen_error (fun h => LogProtocolError.noConfusion h)]
      exact ⟨[], added_nothing host (fun h => LogProtocolError.noConfusion h) rfl
        fun hcut => hroom hcut.2.1⟩

/-! ## What is in its place -/

/-- The types of the records of a log. -/
def logTypes : List TlvType := [.entryLevel, .timestamp, .logMessage]

/-- `groupsOfLogs`, of the types alone. -/
def groupsOfTypes : List TlvType → Bool
  | [] => true
  | [_] => false
  | [_, _] => false
  | level :: stamp :: message :: rest =>
    level == .entryLevel && stamp == .timestamp && message == .logMessage && groupsOfTypes rest

theorem groupsOfLogs_eq (ts : List Tlv) : groupsOfLogs ts = groupsOfTypes (ts.map Tlv.type) := by
  induction ts using groupsOfLogs.induct with
  | case1 => rfl
  | case2 => rfl
  | case3 => rfl
  | case4 a b c rest ih =>
    rw [groupsOfLogs, ih]
    rfl

/-- Whole logs in front change nothing. -/
theorem groupsOfTypes_whole (n : ℕ) (ks : List TlvType) :
    groupsOfTypes ((List.replicate n logTypes).flatten ++ ks) = groupsOfTypes ks := by
  induction n with
  | zero => rfl
  | succ n ih =>
    rw [List.replicate_succ, List.flatten_cons, List.append_assoc]
    exact ih

/-- **Behind the remains of a log nothing is in its place again**, since every log starts with its
level. -/
theorem not_groups_of_broken {k : ℕ} (hk : k = 1 ∨ k = 2) {ks : List TlvType}
    (hks : ∀ type ∈ ks.head?, type = .entryLevel) :
    groupsOfTypes (logTypes.take k ++ ks) = false := by
  obtain _ | ⟨a, rest⟩ := ks
  · rcases hk with rfl | rfl <;> rfl
  · have ha : a = .entryLevel := hks a rfl
    subst ha
    rcases hk with rfl | rfl
    · obtain _ | ⟨b, rest⟩ := rest <;> rfl
    · rfl

/-! ## Any number of logs -/

/-- Whole logs, and nothing else behind the application. -/
def Whole (frame : LogFrame) : Prop :=
  ∃ n, frame.tlvs.map Tlv.type = .appId :: (List.replicate n logTypes).flatten

/-- The remains of a log, somewhere. -/
def Broken (frame : LogFrame) : Prop :=
  ∃ n k ks, (k = 1 ∨ k = 2) ∧ (∀ type ∈ ks.head?, type = .entryLevel) ∧
    frame.tlvs.map Tlv.type
      = .appId :: ((List.replicate n logTypes).flatten ++ (logTypes.take k ++ ks))

theorem Whole.valid {frame : LogFrame} (h : Whole frame) : batchOfLogs frame.tlvs = true := by
  obtain ⟨n, htypes⟩ := h
  rcases htlvs : frame.tlvs with _ | ⟨first, rest⟩
  · rw [htlvs] at htypes
    cases htypes
  · rw [htlvs, List.map_cons, List.cons.injEq] at htypes
    have hgroups := groupsOfTypes_whole n []
    rw [List.append_nil] at hgroups
    rw [batchOfLogs, groupsOfLogs_eq, htypes.1, htypes.2, hgroups]
    rfl

theorem Broken.invalid {frame : LogFrame} (h : Broken frame) : batchOfLogs frame.tlvs = false := by
  obtain ⟨n, k, ks, hk, hks, htypes⟩ := h
  rcases htlvs : frame.tlvs with _ | ⟨first, rest⟩
  · rfl
  · rw [htlvs, List.map_cons, List.cons.injEq] at htypes
    rw [batchOfLogs, groupsOfLogs_eq, htypes.2, groupsOfTypes_whole, not_groups_of_broken hk hks,
      Bool.and_false]

/-- What a log adds has the types of its first records. -/
theorem types_of_pairs {host : ByteOrder} {log : Log} {ts : List Tlv}
    (h : ts.map Tlv.pair = (logPairs host log).take ts.length) :
    ts.map Tlv.type = logTypes.take ts.length := by
  have hfst := congrArg (List.map Prod.fst) h
  rw [List.map_map, List.map_take] at hfst
  exact hfst

/-- Where there are remains, there are remains behind more records. -/
theorem Broken.append {frame frame' : LogFrame} (h : Broken frame) {ts : List Tlv}
    (htlvs : frame'.tlvs = frame.tlvs ++ ts) {k : ℕ}
    (htypes : ts.map Tlv.type = logTypes.take k) : Broken frame' := by
  obtain ⟨n, j, ks, hj, hks, heq⟩ := h
  refine ⟨n, j, ks ++ logTypes.take k, hj, ?_, ?_⟩
  · obtain _ | ⟨a, ks⟩ := ks
    · obtain _ | k := k
      · exact fun type h => absurd h (Option.not_mem_none type)
      · exact fun type h => (Option.some.inj h).symm
    · exact hks
  · rw [htlvs, List.map_append, heq, htypes]
    simp

/-- What every log keeps, of a frame of many logs. -/
structure Batched (frame : LogFrame) : Prop where
  exact' : frame.Exact
  mtyp : frame.header.mtyp = MessageType.multipleLogs.code
  sized : ∀ t ∈ frame.tlvs, t.WellSized

/-- Whether a frame of many logs is valid. -/
theorem Batched.valid_iff {frame : LogFrame} (h : Batched frame) :
    logFrameValidateTlvs frame = .success ↔ batchOfLogs frame.tlvs = true := by
  have hsized : ¬ ∃ t ∈ frame.tlvs, ¬ t.WellSized := fun ⟨t, ht, hbad⟩ => hbad (h.sized t ht)
  rw [logFrameValidateTlvs, h.mtyp, MessageType.ofCode_code]
  show validateTlvs frame .multipleLogs = .success ↔ _
  cases hlogs : batchOfLogs frame.tlvs <;> simp [validateTlvs, hlogs, requiredTlvs, hsized]

theorem Batched.addLog {host : ByteOrder} {frame : LogFrame} (h : Batched frame) (log : Log) :
    Batched (addLog host frame log).2 := by
  obtain ⟨ts, htlvs, -, hsized, -⟩ := addLog_spec host h.exact' h.mtyp log
  have hkeeps : (MLog.addLog host frame log).2.Exact ∧
      (MLog.addLog host frame log).2.header.mtyp = frame.header.mtyp :=
    addBatchLog_keeps (P := fun f => f.Exact ∧ f.header.mtyp = frame.header.mtyp)
      (fun f t hf hroom => ⟨hf.1.push hroom, hf.2⟩) ⟨h.exact', rfl⟩ log.level log.message
      log.timestamp
  refine ⟨hkeeps.1, hkeeps.2.trans h.mtyp, fun t ht => ?_⟩
  rw [htlvs] at ht
  exact (List.mem_append.1 ht).elim (h.sized t) (hsized t)

theorem Batched.batch {host : ByteOrder} {frame : LogFrame} (h : Batched frame) (logs : List Log) :
    Batched (batch host frame logs) := by
  induction logs generalizing frame with
  | nil => exact h
  | cons log logs ih => exact ih (h.addLog log)

theorem Broken.batch {host : ByteOrder} {frame : LogFrame} (hbatched : Batched frame)
    (h : Broken frame) (logs : List Log) : Broken (batch host frame logs) := by
  induction logs generalizing frame with
  | nil => exact h
  | cons log logs ih =>
    obtain ⟨ts, htlvs, hpairs, -⟩ := addLog_spec host hbatched.exact' hbatched.mtyp log
    exact ih (hbatched.addLog log) (h.append htlvs (types_of_pairs hpairs))

/-- **Any number of logs**: none of them is cut, and the frame holds those that were accepted, or
there are remains. -/
theorem batch_cases {host : ByteOrder} {frame : LogFrame} (hbatched : Batched frame)
    (hwhole : Whole frame) (logs : List Log) :
    Uncut host frame logs ∧ Whole (batch host frame logs) ∧
        (batch host frame logs).tlvs.map Tlv.pair
          = frame.tlvs.map Tlv.pair ++ (acceptedLogs host frame logs).flatMap (logPairs host) ∨
      ¬ Uncut host frame logs ∧ Broken (batch host frame logs) := by
  induction logs generalizing frame with
  | nil => exact .inl ⟨trivial, hwhole, by simp [MLog.batch, acceptedLogs]⟩
  | cons log logs ih =>
    obtain ⟨ts, htlvs, hpairs, -, hok, hcut⟩ := addLog_spec host hbatched.exact' hbatched.mtyp log
    have htypes := types_of_pairs hpairs
    obtain ⟨n, hn⟩ := hwhole
    by_cases hremains : Cut frame log
    · refine .inr ⟨fun h => h.1 hremains, Broken.batch (hbatched.addLog log) ?_ logs⟩
      refine ⟨n, ts.length, [], hcut.1 hremains,
        fun type h => absurd h (Option.not_mem_none type), ?_⟩
      rw [htlvs, List.map_append, hn, htypes, List.append_nil]
      rfl
    · have hrest : ¬ (ts.length = 1 ∨ ts.length = 2) := fun h => hremains (hcut.2 h)
      have hle : ts.length ≤ 3 := by
        have hlen := congrArg List.length hpairs
        rw [List.length_map, List.length_take] at hlen
        exact hlen.le.trans (Nat.min_le_right _ _)
      have hwhole' : Whole (addLog host frame log).2 ∧
          (addLog host frame log).2.tlvs.map Tlv.pair = frame.tlvs.map Tlv.pair
            ++ (if (addLog host frame log).1 = .success then logPairs host log else []) := by
        rw [Whole, htlvs, List.map_append, hn, htypes, List.map_append, hpairs]
        rcases (by omega : ts.length = 0 ∨ ts.length = 3) with hzero | hthree
        · rw [hzero, if_neg (fun h => by rw [hok.1 h] at hzero; cases hzero)]
          exact ⟨⟨n, List.append_nil _⟩, rfl⟩
        · rw [if_pos (hok.2 hthree), hthree]
          refine ⟨⟨n + 1, ?_⟩, rfl⟩
          rw [List.replicate_succ', List.flatten_append]
          simp [logTypes]
      rcases ih (hbatched.addLog log) hwhole'.1 with ⟨huncut, hwhole, hall⟩ | ⟨hbad, hbroken⟩
      · refine .inl ⟨⟨hremains, huncut⟩, hwhole, hall.trans ?_⟩
        rw [hwhole'.2, acceptedLogs]
        split_ifs
        · rw [List.flatMap_cons, List.append_assoc]
        · rw [List.append_nil]
      · exact .inr ⟨fun h => hbad h.2, hbroken⟩

/-- A new frame of many logs. -/
theorem batched_create {host : ByteOrder} {config : LogProtocolConfig}
    (hmax : config.maxFrameSize ≤ 65560) {sequence : UInt16} {now : LogTimestamp}
    {frame : LogFrame}
    (h : logProtocolCreateBatchLogFrame host config sequence now = some frame) :
    Batched frame ∧ Whole frame ∧
      frame.tlvs.map Tlv.pair = [(.appId, config.appId.bytes ++ [0])] := by
  rw [logProtocolCreateBatchLogFrame] at h
  split_ifs at h with hok
  have hnew : (logFrameCreate host config .multipleLogs sequence 0 now).Exact :=
    ⟨hmax, rfl, fun h => absurd rfl h⟩
  have hkeeps : frame.Exact ∧ frame.header.mtyp = MessageType.multipleLogs.code := by
    rw [← Option.some.inj h]
    exact addStringTlv_keeps
      (P := fun f => f.Exact ∧ f.header.mtyp = MessageType.multipleLogs.code)
      (fun f t hf hroom => ⟨hf.1.push hroom, hf.2⟩) ⟨hnew, rfl⟩ _ _
  have htlvs : ∃ t : Tlv, t.type = .appId ∧ t.value = config.appId.bytes ++ [0] ∧
      frame.tlvs = [t] := by
    rw [← Option.some.inj h]
    rw [logFrameAddStringTlv] at hok ⊢
    split_ifs at hok ⊢ with hlong
    obtain ⟨t, htype, hvalue, -, heq⟩ | ⟨-, heq⟩ := logFrameAddTlv_cases
      (logFrameCreate host config .multipleLogs sequence 0 now) .appId (config.appId.bytes ++ [0])
    · rw [heq]
      exact ⟨t, htype, hvalue, rfl⟩
    · rw [heq] at hok
      cases hok
  obtain ⟨t, htype, hvalue, htlvs⟩ := htlvs
  refine ⟨⟨hkeeps.1, hkeeps.2, fun u hu => ?_⟩, ⟨0, ?_⟩, ?_⟩
  · rw [htlvs, List.mem_singleton] at hu
    rw [hu, Tlv.WellSized, htype]
    exact fun n hn => absurd hn (Option.not_mem_none n)
  · rw [htlvs, List.map_cons, htype]
    rfl
  · rw [htlvs, List.map_cons, Tlv.pair, htype, hvalue]
    rfl

/-- **The frame behind any number of logs** can be sent exactly if none of them was cut.  Then it
holds those whose calls succeeded, in their order. -/
theorem batch_sent_iff (host : ByteOrder) (block : (n : ℕ) → CArray UInt8 n)
    {config : LogProtocolConfig} (hmax : config.maxFrameSize ≤ 65560) {sequence : UInt16}
    {now : LogTimestamp} {frame : LogFrame}
    (h : logProtocolCreateBatchLogFrame host config sequence now = some frame) (logs : List Log) :
    let sent := logFrameSerialize host block (batch host frame logs)
    (sent.1 = .success ↔ Uncut host frame logs) ∧
      (sent.1 = .success →
        sent.2.tlvs.map Tlv.pair = (.appId, config.appId.bytes ++ [0])
          :: (acceptedLogs host frame logs).flatMap (logPairs host)) := by
  intro sent
  obtain ⟨hbatched, hwhole, hpairs⟩ := batched_create hmax h
  have hend : Batched (batch host frame logs) := hbatched.batch logs
  have hok : sent.1 = .success ↔ batchOfLogs (batch host frame logs).tlvs = true := by
    refine (serialize_fst_iff hend.exact'.counted).trans ?_
    rw [hend.valid_iff]
    exact and_iff_left hend.exact'.lt
  rcases batch_cases hbatched hwhole logs with ⟨huncut, hstill, hall⟩ | ⟨hcut, hbroken⟩
  · refine ⟨iff_of_true (hok.2 hstill.valid) huncut, fun hsent => ?_⟩
    have hvalid := hend.valid_iff.2 hstill.valid
    have htlvs : sent.2.tlvs = (batch host frame logs).tlvs := by
      show (logFrameSerialize host block (batch host frame logs)).2.tlvs = _
      rw [serialize_of_lt hend.exact'.counted hvalid hend.exact'.lt]
    rw [htlvs, hall, hpairs]
    rfl
  · have hbad : sent.1 ≠ .success := fun hsent => by
      rw [hok, hbroken.invalid] at hsent
      cases hsent
    exact ⟨iff_of_false hbad hcut, fun hsent => absurd hsent hbad⟩

/-- Two logs in a frame of 60 bytes.  If the message of the first is too long, its level and its
time stamp are left in the frame, which cannot be sent.  Without messages, the first is all that the
frame takes, and it is sent. -/
theorem batch_sent_cut :
    let config := logProtocolUpdateConfig
      (logProtocolConfigInit ⟨textBytes "a", by decide⟩ .info) .info 60
    let long : Log := ⟨.info, ⟨textBytes "too long a text", by decide⟩, ⟨0, 0⟩⟩
    let short : Log := ⟨.info, ⟨[], by decide⟩, ⟨0, 0⟩⟩
    ∃ frame, logProtocolCreateBatchLogFrame .big config 1 ⟨0, 0⟩ = some frame ∧
      (logFrameSerialize .big (fun n => .fill n 0) (batch .big frame [long, short])).1 ≠ .success ∧
      (logFrameSerialize .big (fun n => .fill n 0) (batch .big frame [short])).1 = .success ∧
      (logFrameSerialize .big (fun n => .fill n 0) (batch .big frame [short])).2.tlvs.map Tlv.pair
        = (.appId, config.appId.bytes ++ [0]) :: logPairs .big short := by
  intro config long short
  have hmax : config.maxFrameSize ≤ 65560 := by
    have hdefault : (logProtocolConfigInit ⟨textBytes "a", by decide⟩ .info).maxFrameSize ≤ 65560 :=
      by decide
    exact maxFrameSize_updateConfig_le hdefault (by decide) .info
  obtain ⟨frame, h⟩ := Option.isSome_iff_exists.1 (show
    (logProtocolCreateBatchLogFrame .big config 1 ⟨0, 0⟩).isSome = true by decide +kernel)
  have hboth : (logProtocolCreateBatchLogFrame .big config 1 ⟨0, 0⟩).all (fun f =>
      Cut f long ∧ ¬ Cut f short ∧ (addLog .big f short).1 = .success) = true := by
    decide +kernel
  rw [h] at hboth
  obtain ⟨hcut, huncut, haccepted⟩ := of_decide_eq_true hboth
  have hsent := (batch_sent_iff .big (fun n => .fill n 0) hmax h [short]).1.2 ⟨huncut, trivial⟩
  refine ⟨frame, h, fun hbad => ?_, hsent, ?_⟩
  · exact ((batch_sent_iff .big (fun n => .fill n 0) hmax h [long, short]).1.1 hbad).1 hcut
  · rw [(batch_sent_iff .big (fun n => .fill n 0) hmax h [short]).2 hsent, acceptedLogs,
      if_pos haccepted]
    rfl

end Lucp.MLog
