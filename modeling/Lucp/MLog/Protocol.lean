import Lucp.CString
import Lucp.MLog.Integers
import Mathlib.Data.List.TakeWhile

/-!
# Frames of the log protocol

`m_log` sends its logs in frames: a packed header of 25 bytes, and behind it records of a type, a
length and a value.  A frame is built in memory first: `log_frame_create()` fills the header, the
`log_frame_add_…` functions put records into it and count their bytes in `payload_len`, and
`log_frame_validate_tlvs()` says whether a frame of its type has the records it needs.

The fields of the header that `log_frame_create()` converts are kept here as they are in memory, in
network order; the message type and `payload_len` are never converted.

## What is here

* `Tlv`, `FrameHeader`, `LogFrame` — the data; a record that is too long cannot be built.
* `logFrameAddTlv` and the functions that go through it; a call that fails leaves the frame alone,
  a function that makes several calls does not.
* `logFrameValidateTlvs` — what a frame of each type needs.
* `tlvGetString`, `tlvGetUint8`, `tlvGetLevel`, `tlvGetTimestamp` — what is read from a record.
-/

set_option autoImplicit false

namespace Lucp.MLog

/-! ## The constants -/

/-- The results of `LogProtocolError` that the functions here have. -/
inductive LogProtocolError
  | success
  | invalidParam
  | invalidFrame
  | tlvNotFound
  | tlvInvalid
  | serializeError
  | frameTooLarge
  | sendError
  | versionMismatch
  | queueFull
  deriving DecidableEq, Repr

/-- `DltLevel`. -/
inductive DltLevel
  | disabled
  | fatal
  | error
  | warn
  | info
  | debug
  | verbose
  deriving DecidableEq, Repr

/-- The value of a level in the enumeration. -/
def DltLevel.code : DltLevel → UInt8
  | .disabled => 0
  | .fatal => 1
  | .error => 2
  | .warn => 3
  | .info => 4
  | .debug => 5
  | .verbose => 6

/-- The levels in the order of their values. -/
def DltLevel.all : List DltLevel := [.disabled, .fatal, .error, .warn, .info, .debug, .verbose]

/-- The level with a value. -/
def DltLevel.ofCode (c : UInt8) : Option DltLevel := DltLevel.all.find? (·.code = c)

/-- `TlvType`. -/
inductive TlvType
  | statusMessage
  | appId
  | logMessage
  | thresholdLevel
  | entryLevel
  | timestamp
  | fatalMode
  | errorMode
  | warningMode
  | infoMode
  | debugMode
  | verboseMode
  deriving DecidableEq, Repr

/-- The value of a type of records in the enumeration. -/
def TlvType.code : TlvType → UInt8
  | .statusMessage => 0x00
  | .appId => 0x01
  | .logMessage => 0x02
  | .thresholdLevel => 0x03
  | .entryLevel => 0x04
  | .timestamp => 0x05
  | .fatalMode => 0x21
  | .errorMode => 0x22
  | .warningMode => 0x23
  | .infoMode => 0x24
  | .debugMode => 0x25
  | .verboseMode => 0x26

/-- The types that `is_known_tlv_type()` knows. -/
def TlvType.all : List TlvType :=
  [.statusMessage, .appId, .logMessage, .thresholdLevel, .entryLevel, .timestamp, .fatalMode,
    .errorMode, .warningMode, .infoMode, .debugMode, .verboseMode]

/-- `is_known_tlv_type()`, with the type it is. -/
def TlvType.ofCode (c : UInt8) : Option TlvType := TlvType.all.find? (·.code = c)

/-- `MessageType`. -/
inductive MessageType
  | undefined
  | requestConfig
  | configStatus
  | pureStatus
  | updateConfig
  | singleLog
  | multipleLogs
  deriving DecidableEq, Repr

/-- The value of a message type in the enumeration. -/
def MessageType.code : MessageType → UInt32
  | .undefined => 0x00
  | .requestConfig => 0x01
  | .configStatus => 0x02
  | .pureStatus => 0x03
  | .updateConfig => 0x04
  | .singleLog => 0x05
  | .multipleLogs => 0x06

/-- The message types in the order of their values. -/
def MessageType.all : List MessageType :=
  [.undefined, .requestConfig, .configStatus, .pureStatus, .updateConfig, .singleLog, .multipleLogs]

/-- The message type with a value; what comes from the network can have any. -/
def MessageType.ofCode (c : UInt32) : Option MessageType := MessageType.all.find? (·.code = c)

theorem TlvType.ofCode_code (t : TlvType) : TlvType.ofCode t.code = some t := by
  cases t <;> decide

theorem TlvType.code_of_ofCode {c : UInt8} {t : TlvType} (h : TlvType.ofCode c = some t) :
    t.code = c := by
  rw [ofCode] at h
  simpa using List.find?_some h

theorem MessageType.ofCode_code (m : MessageType) : MessageType.ofCode m.code = some m := by
  cases m <;> decide

theorem MessageType.code_of_ofCode {c : UInt32} {m : MessageType}
    (h : MessageType.ofCode c = some m) : m.code = c := by
  rw [ofCode] at h
  simpa using List.find?_some h

theorem DltLevel.ofCode_code (l : DltLevel) : DltLevel.ofCode l.code = some l := by
  cases l <;> decide

/-- `LOG_PROTOCOL_MAGIC`. -/
def magic : UInt32 := 0xDEADBEEF

/-- `LOG_PROTOCOL_MAJOR_VERSION`. -/
def majorVersion : UInt8 := 1

/-- `LOG_PROTOCOL_MINOR_VERSION`. -/
def minorVersion : UInt8 := 0

/-- `LOG_PROTOCOL_DEFAULT_MAX_FRAME_SIZE`. -/
def defaultMaxFrameSize : ℕ := 65536

/-- `LOG_PROTOCOL_MAX_TLV_SIZE`. -/
def maxTlvSize : ℕ := 32768

/-- `sizeof(FrameHeader)`; the structure is packed. -/
def headerSize : ℕ := 25

/-! ## Records, headers and frames -/

/-- `LogTimestamp`. -/
structure LogTimestamp where
  seconds : UInt64
  milliseconds : UInt16
  deriving DecidableEq, Repr

/-- `Tlv`, which no function builds with a longer value. -/
structure Tlv where
  type : TlvType
  value : Bytes
  fits : value.length ≤ maxTlvSize
  deriving DecidableEq

/-- The bytes a record takes in a frame. -/
def Tlv.size (t : Tlv) : ℕ := 3 + t.value.length

/-- The bytes of all records. -/
def payloadSize (ts : List Tlv) : ℕ := (ts.map Tlv.size).sum

@[simp] theorem payloadSize_nil : payloadSize [] = 0 := rfl

@[simp] theorem payloadSize_cons (t : Tlv) (ts : List Tlv) :
    payloadSize (t :: ts) = t.size + payloadSize ts := by
  simp [payloadSize]

@[simp] theorem payloadSize_append (ts us : List Tlv) :
    payloadSize (ts ++ us) = payloadSize ts + payloadSize us := by
  simp [payloadSize]

/-- `FrameHeader`, in the byte order in which the structure holds it. -/
structure FrameHeader where
  magic : UInt32
  majorVersion : UInt8
  minorVersion : UInt8
  sequence : UInt16
  timestampSec : UInt64
  timestampMs : UInt16
  mtyp : UInt32
  statusCode : UInt8
  payloadLen : UInt16
  deriving DecidableEq, Repr

/-- `LogFrame`; `raw_data` is its `raw_size` bytes, none while it is `NULL`. -/
structure LogFrame where
  header : FrameHeader
  tlvs : List Tlv
  rawData : Bytes
  maxFrameSize : ℕ
  deriving DecidableEq

/-- What the functions for frames read of a `LogProtocolConfig`. -/
structure LogProtocolConfig where
  appId : CString
  thresholdLevel : DltLevel
  maxFrameSize : ℕ
  deriving DecidableEq

/-- `log_protocol_config_init()`. -/
def logProtocolConfigInit (appId : CString) (thresholdLevel : DltLevel) : LogProtocolConfig :=
  ⟨appId, thresholdLevel, defaultMaxFrameSize⟩

/-- `log_protocol_update_config()`. -/
def logProtocolUpdateConfig (config : LogProtocolConfig) (newThreshold : DltLevel)
    (newMaxFrameSize : ℕ) : LogProtocolConfig :=
  { config with
    thresholdLevel := newThreshold
    maxFrameSize :=
      if 0 < newMaxFrameSize ∧ headerSize ≤ newMaxFrameSize then newMaxFrameSize
      else config.maxFrameSize }

/-- **The limit of a configuration** is the default one or one that it was updated to: it stays
within a bound as long as those do.  The functions do not see to that. -/
theorem maxFrameSize_updateConfig_le {config : LogProtocolConfig} {bound newMaxFrameSize : ℕ}
    (h : config.maxFrameSize ≤ bound) (hnew : newMaxFrameSize ≤ bound) (newThreshold : DltLevel) :
    (logProtocolUpdateConfig config newThreshold newMaxFrameSize).maxFrameSize ≤ bound := by
  show (if _ then newMaxFrameSize else config.maxFrameSize) ≤ bound
  split
  · exact hnew
  · exact h

/-- The header that `log_frame_create()` and `log_frame_pool_acquire()` fill in. -/
def newHeader (host : ByteOrder) (mtyp : MessageType) (sequence : UInt16) (statusCode : UInt8)
    (now : LogTimestamp) : FrameHeader where
  magic := htonlC host magic
  majorVersion := majorVersion
  minorVersion := minorVersion
  sequence := htonsC host sequence
  timestampSec := htonll host now.seconds
  timestampMs := htonsC host now.milliseconds
  mtyp := mtyp.code
  statusCode := statusCode
  payloadLen := 0

/-- `log_frame_create()`. -/
def logFrameCreate (host : ByteOrder) (config : LogProtocolConfig) (mtyp : MessageType)
    (sequence : UInt16) (statusCode : UInt8) (now : LogTimestamp) : LogFrame where
  header := newHeader host mtyp sequence statusCode now
  tlvs := []
  rawData := []
  maxFrameSize := config.maxFrameSize

/-! ## Putting records into a frame -/

/-- The frame with one more record.  `payload_len` has 16 bits, and what is larger is cut. -/
def LogFrame.push (frame : LogFrame) (t : Tlv) : LogFrame :=
  { frame with
    header :=
      { frame.header with payloadLen := UInt16.ofNat (frame.header.payloadLen.toNat + t.size) }
    tlvs := frame.tlvs ++ [t] }

/-- Whether the frame has room for a record of this many bytes. -/
def LogFrame.HasRoom (frame : LogFrame) (size : ℕ) : Prop :=
  headerSize + (frame.header.payloadLen.toNat + size) ≤ frame.maxFrameSize

instance (frame : LogFrame) (size : ℕ) : Decidable (frame.HasRoom size) :=
  inferInstanceAs (Decidable (_ ≤ _))

/-- `log_frame_add_tlv()`.  The sum that it checks for an overflow has 32 bits, and never has
one. -/
def logFrameAddTlv (frame : LogFrame) (type : TlvType) (value : Bytes) :
    LogProtocolError × LogFrame :=
  if h : value.length ≤ maxTlvSize then
    if frame.HasRoom (1 + 2 + value.length) then (.success, frame.push ⟨type, value, h⟩)
    else (.frameTooLarge, frame)
  else (.frameTooLarge, frame)

/-- The call behind one that has succeeded; an error returns at once, with what has become of the
frame until then. -/
def andThen (r : LogProtocolError × LogFrame) (next : LogFrame → LogProtocolError × LogFrame) :
    LogProtocolError × LogFrame :=
  if r.1 = .success then next r.2 else r

/-- `log_frame_add_string_tlv()`, which adds the zero as well. -/
def logFrameAddStringTlv (frame : LogFrame) (type : TlvType) (str : CString) :
    LogProtocolError × LogFrame :=
  if maxTlvSize ≤ str.bytes.length then (.frameTooLarge, frame)
  else logFrameAddTlv frame type (str.bytes ++ [0])

/-- `log_frame_add_uint8_tlv()`. -/
def logFrameAddUint8Tlv (frame : LogFrame) (type : TlvType) (value : UInt8) :
    LogProtocolError × LogFrame :=
  logFrameAddTlv frame type [value]

/-- `log_frame_add_level_tlv()`. -/
def logFrameAddLevelTlv (frame : LogFrame) (type : TlvType) (level : DltLevel) :
    LogProtocolError × LogFrame :=
  if level = .disabled then (.invalidParam, frame)
  else logFrameAddUint8Tlv frame type level.code

/-- The value of a time stamp: seconds and milliseconds, in network order. -/
def timestampBytes (host : ByteOrder) (timestamp : LogTimestamp) : Bytes :=
  store64 host (htonll host timestamp.seconds)
    ++ store16 host (htonsC host timestamp.milliseconds)

/-- `log_frame_add_timestamp_tlv()`. -/
def logFrameAddTimestampTlv (host : ByteOrder) (frame : LogFrame) (timestamp : LogTimestamp) :
    LogProtocolError × LogFrame :=
  logFrameAddTlv frame .timestamp (timestampBytes host timestamp)

/-- **What `log_frame_add_tlv()` does**: the record is in the frame, or nothing has changed. -/
theorem logFrameAddTlv_cases (frame : LogFrame) (type : TlvType) (value : Bytes) :
    (∃ t : Tlv, t.type = type ∧ t.value = value ∧ frame.HasRoom t.size ∧
        logFrameAddTlv frame type value = (.success, frame.push t)) ∨
      (¬ (value.length ≤ maxTlvSize ∧ frame.HasRoom (1 + 2 + value.length)) ∧
        logFrameAddTlv frame type value = (.frameTooLarge, frame)) := by
  rw [logFrameAddTlv]
  split_ifs with hlen hroom
  · exact .inl ⟨⟨type, value, hlen⟩, rfl, rfl, hroom, rfl⟩
  · exact .inr ⟨fun h => hroom h.2, rfl⟩
  · exact .inr ⟨fun h => hlen h.1, rfl⟩

theorem logFrameAddTlv_of_room {frame : LogFrame} {t : Tlv} (h : frame.HasRoom t.size) :
    logFrameAddTlv frame t.type t.value = (.success, frame.push t) := by
  rw [logFrameAddTlv, dif_pos t.fits]
  exact if_pos h

theorem logFrameAddTlv_of_no_room {frame : LogFrame} {t : Tlv} (h : ¬ frame.HasRoom t.size) :
    logFrameAddTlv frame t.type t.value = (.frameTooLarge, frame) := by
  rw [logFrameAddTlv, dif_pos t.fits]
  exact if_neg h

/-! ## What a frame needs -/

/-- `log_frame_find_tlv()`. -/
def logFrameFindTlv (frame : LogFrame) (type : TlvType) : Option Tlv :=
  frame.tlvs.find? (·.type = type)

/-- The records that a message type cannot do without. -/
def requiredTlvs : MessageType → List TlvType
  | .undefined => []
  | .requestConfig => [.appId]
  | .configStatus =>
    [.statusMessage, .appId, .thresholdLevel, .fatalMode, .errorMode, .warningMode, .infoMode,
      .debugMode, .verboseMode]
  | .pureStatus => [.appId, .statusMessage]
  | .updateConfig =>
    [.appId, .thresholdLevel, .fatalMode, .errorMode, .warningMode, .infoMode, .debugMode,
      .verboseMode]
  | .singleLog => [.appId, .entryLevel, .timestamp, .logMessage]
  | .multipleLogs => []

/-- The records of logs, three for each. -/
def groupsOfLogs : List Tlv → Bool
  | [] => true
  | [_] => false
  | [_, _] => false
  | level :: timestamp :: message :: rest =>
    level.type == .entryLevel && timestamp.type == .timestamp && message.type == .logMessage
      && groupsOfLogs rest

/-- What `MTYP_MULTIPLE_LOGS` asks for: the application first, then the logs. -/
def batchOfLogs : List Tlv → Bool
  | [] => false
  | first :: rest => first.type == .appId && groupsOfLogs rest

/-- The length that the values of a type must have, where it must have one. -/
def TlvType.fixedLength : TlvType → Option ℕ
  | .timestamp => some 10
  | .thresholdLevel | .entryLevel => some 1
  | .fatalMode | .errorMode | .warningMode | .infoMode | .debugMode | .verboseMode => some 1
  | .statusMessage | .appId | .logMessage => none

/-- The check of the length of a record. -/
def Tlv.WellSized (t : Tlv) : Prop := ∀ n ∈ t.type.fixedLength, t.value.length = n

instance (t : Tlv) : Decidable t.WellSized :=
  inferInstanceAs (Decidable (∀ n ∈ t.type.fixedLength, t.value.length = n))

/-- `log_frame_validate_tlvs()`, for a message type. -/
def validateTlvs (frame : LogFrame) (m : MessageType) : LogProtocolError :=
  if m = .undefined then .invalidFrame
  else if m = .multipleLogs ∧ batchOfLogs frame.tlvs = false then .tlvInvalid
  else if ∃ type ∈ requiredTlvs m, logFrameFindTlv frame type = none then .tlvNotFound
  else if ∃ t ∈ frame.tlvs, ¬ t.WellSized then .tlvInvalid
  else .success

/-- `log_frame_validate_tlvs()`. -/
def logFrameValidateTlvs (frame : LogFrame) : LogProtocolError :=
  (MessageType.ofCode frame.header.mtyp).elim .invalidFrame (validateTlvs frame)

/-! ## Reading a record -/

/-- `tlv_get_string()`: the string up to its first zero, if the last byte is one. -/
def tlvGetString (tlv : Tlv) : Option CString :=
  if tlv.value.getLast? = some 0 then
    some ⟨tlv.value.takeWhile (· ≠ 0), fun h => by simpa using List.mem_takeWhile_imp h⟩
  else none

/-- `tlv_get_uint8()`. -/
def tlvGetUint8 (tlv : Tlv) : LogProtocolError × UInt8 :=
  if tlv.value.length = 1 then (.success, tlv.value.headD 0) else (.tlvInvalid, 0)

/-- `tlv_get_level()`, called with a place for its error. -/
def tlvGetLevel (tlv : Tlv) : LogProtocolError × DltLevel :=
  if (tlvGetUint8 tlv).1 = .success then
    (DltLevel.ofCode (tlvGetUint8 tlv).2).elim (.tlvInvalid, .fatal) (.success, ·)
  else ((tlvGetUint8 tlv).1, .fatal)

/-- `tlv_get_timestamp()`. -/
def tlvGetTimestamp (host : ByteOrder) (tlv : Tlv) : Option LogTimestamp :=
  match tlv.value with
  | [a, b, c, d, e, f, g, h, i, j] =>
    some ⟨ntohll host (load64 host a b c d e f g h), ntohsC host (load16 host i j)⟩
  | _ => none

end Lucp.MLog
