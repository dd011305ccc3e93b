import Lucp.Wire
import Lucp.General.System

/-!
# The server side: `session_thread`

One thread of `lucpd` per connection.  Its loop tests the flags and the deadline, then does what the
state of the session says: three of the states wait for a frame, one prepares the log and reports on
it, and the others end the thread.  Each state has its own function below, which takes what
`lucp_net_recv` gave (`none` for a result below zero) and the times `get_now_ms` gave, and says what
the session is while the reply is being sent and what it is afterwards.

`SessionThread.turn` puts them together for a thread whose frames come from a list: the frames
`lucp_net_recv` delivers, in order, after which it fails.  The results of `lucp_net_send` are not
looked at by the code, so `sent` lists what was handed to it.
-/

set_option autoImplicit false

namespace Lucp

/-- `LucpSessionState`. -/
inductive LucpSessionState
  | init
  | waitingUploadRequest
  | waitingFtpLoginResult
  | waitingFtpDownloadResult
  | waitingCloudUploadResult
  | completed
  | error
  deriving DecidableEq

/-- `LucpSession_t`, as far as the thread changes it. -/
structure LucpSession where
  state : LucpSessionState
  seqNum : UInt32
  lastActiveMs : UInt64
  deriving DecidableEq

/-- The part of the configuration the thread reads. -/
structure SessionConfig where
  sessionTimeoutMs : Int32
  validateVersion : Bool

/-- What one state does in one turn. -/
structure SessionTurn where
  /-- The session while the reply is being sent. -/
  sess : LucpSession
  /-- The reply, if one is sent. -/
  send : Option LucpFrame
  /-- The session at the end of the turn. -/
  after : LucpSession

/-- A turn without a reply. -/
def SessionTurn.quiet (sess : LucpSession) : SessionTurn := ⟨sess, none, sess⟩

/-- `(int)(now - last_active_ms) > session_timeout_ms`: the difference is cut to 32 bits and read as
a signed number. -/
def sessionTimedOut (cfg : SessionConfig) (sess : LucpSession) (now : UInt64) : Bool :=
  cfg.sessionTimeoutMs < (now - sess.lastActiveMs).toUInt32.toInt32

/-- The deadline test at the head of a turn. -/
def sessionCheckTimeout (cfg : SessionConfig) (sess : LucpSession) (now : UInt64) : LucpSession :=
  if sessionTimedOut cfg sess now then { sess with state := .error } else sess

/-- `case LUCP_SESSION_INIT`. -/
def sessionInit (cfg : SessionConfig) (sess : LucpSession) (reply : LucpFrame) (now : UInt64) :
    Option LucpFrame → SessionTurn
  | none => .quiet { sess with state := .error }
  | some frame =>
    if frame.msgType = lucpMtypUploadRequest then
      if cfg.validateVersion = true ∧ frame.versionMajor ≠ lucpVerMajor then
        let reply := lucpFrameMake reply frame.seqNum lucpMtypAckStart lucpStatFailed
          (some (textBytes "Bad version")) 11
        ⟨sess, some reply, { sess with state := .error }⟩
      else
        let sess : LucpSession := ⟨.waitingUploadRequest, frame.seqNum, now⟩
        let reply := lucpFrameMake reply sess.seqNum lucpMtypAckStart lucpStatSuccess none 0
        ⟨sess, some reply, sess⟩
    else .quiet sess

/-- The simulated log preparation, given what `rand()` returned: its status and its text. -/
def logPreparation (rand : ℕ) : UInt8 × Bytes :=
  let r := rand % 10
  if r < 8 then (lucpStatSuccess, textBytes "demo_logfile_20250925.log")
  else if r = 8 then (lucpStatArchiveFailed, textBytes "Archive failed: disk full")
  else (lucpStatFtpUploadFailed, textBytes "FTP upload failed: connection timeout")

/-- `case LUCP_SESSION_WAITING_UPLOAD_REQUEST`. -/
def sessionWaitingUploadRequest (sess : LucpSession) (reply : LucpFrame) (rand : ℕ) (now : UInt64) :
    SessionTurn :=
  let (prepStatus, payload) := logPreparation rand
  let reply := lucpFrameMake reply sess.seqNum lucpMtypNotifyDone prepStatus (some payload)
    (UInt16.ofNat payload.length)
  ⟨sess, some reply,
    { sess with
      state := if prepStatus ≠ lucpStatSuccess then .error else .waitingFtpLoginResult
      lastActiveMs := now }⟩

/-- The two states that wait for a result of the client: a result of type `msgType` ends the session
if it is bad, and takes it to `next` if it is good. -/
def sessionWaitingResult (msgType : UInt8) (next : LucpSessionState) (sess : LucpSession)
    (now : UInt64) : Option LucpFrame → SessionTurn
  | none => .quiet { sess with state := .error }
  | some frame =>
    if frame.msgType = msgType then
      .quiet { sess with
        state := if frame.status ≠ lucpStatSuccess then .error else next
        lastActiveMs := now }
    else .quiet sess

/-- `case LUCP_SESSION_WAITING_FTP_LOGIN_RESULT`. -/
def sessionWaitingFtpLoginResult : LucpSession → UInt64 → Option LucpFrame → SessionTurn :=
  sessionWaitingResult lucpMtypFtpLoginResult .waitingFtpDownloadResult

/-- `case LUCP_SESSION_WAITING_FTP_DOWNLOAD_RESULT`. -/
def sessionWaitingFtpDownloadResult : LucpSession → UInt64 → Option LucpFrame → SessionTurn :=
  sessionWaitingResult lucpMtypFtpDownloadResult .completed

/-! ## The replies as messages -/

/-- The request is accepted. -/
def ackAccepted (seqNum : UInt32) : Msg := .made seqNum lucpMtypAckStart lucpStatSuccess []

/-- The request is refused for its version. -/
def ackRejected (seqNum : UInt32) : Msg :=
  .made seqNum lucpMtypAckStart lucpStatFailed (textBytes "Bad version")

/-- The report on a log preparation. -/
def notifyDone (seqNum : UInt32) (prep : UInt8 × Bytes) : Msg :=
  .made seqNum lucpMtypNotifyDone prep.1 prep.2

theorem ackAccepted_eq (reply : LucpFrame) (seqNum : UInt32) :
    (lucpFrameMake reply seqNum lucpMtypAckStart lucpStatSuccess none 0).msg
      = ackAccepted seqNum :=
  lucpFrameMake_msg reply seqNum _ _ [] (by simp) (.inr rfl)

theorem ackRejected_eq (reply : LucpFrame) (seqNum : UInt32) :
    (lucpFrameMake reply seqNum lucpMtypAckStart lucpStatFailed (some (textBytes "Bad version"))
      11).msg = ackRejected seqNum :=
  lucpFrameMake_msg reply seqNum _ _ (textBytes "Bad version") (by decide) (.inl rfl)

theorem length_logPreparation (rand : ℕ) : (logPreparation rand).2.length < 2 ^ 16 := by
  unfold logPreparation
  dsimp only
  split
  · decide
  · split <;> decide

theorem notifyDone_eq (reply : LucpFrame) (seqNum : UInt32) (rand : ℕ) :
    (lucpFrameMake reply seqNum lucpMtypNotifyDone (logPreparation rand).1
      (some (logPreparation rand).2) (UInt16.ofNat (logPreparation rand).2.length)).msg
        = notifyDone seqNum (logPreparation rand) :=
  lucpFrameMake_msg reply seqNum _ _ _ (length_logPreparation rand) (.inl rfl)

/-! ## The thread -/

/-- The thread, with the frames still to be delivered to it and the messages it has sent. -/
structure SessionThread where
  sess : LucpSession
  /-- The frame object the replies are made in. -/
  reply : LucpFrame
  running : Bool
  inbox : List LucpFrame
  sent : List Msg

/-- What one turn takes from outside: the flag, the two times, and the random number. -/
structure TurnEnv where
  serverRunning : Bool
  now : UInt64
  rand : ℕ
  nowAfter : UInt64
  deriving DecidableEq

/-- A fresh session, at the head of the loop. -/
def SessionThread.start (reply : LucpFrame) (seqNum : UInt32) (now : UInt64)
    (frames : List LucpFrame) : SessionThread :=
  ⟨⟨.init, seqNum, now⟩, reply, true, frames, []⟩

/-- What a state does to the thread. -/
def SessionThread.apply (t : SessionThread) (turn : SessionTurn) : SessionThread :=
  match turn.send with
  | none => { t with sess := turn.after }
  | some reply => { t with sess := turn.after, reply := reply, sent := t.sent ++ [reply.msg] }

@[simp] theorem SessionThread.apply_quiet (t : SessionThread) (sess : LucpSession) :
    t.apply (.quiet sess) = { t with sess := sess } := rfl

/-- A state that calls `lucp_net_recv`. -/
def SessionThread.receive (t : SessionThread) (turn : Option LucpFrame → SessionTurn) :
    SessionThread :=
  match t.inbox with
  | [] => t.apply (turn none)
  | frame :: inbox => { t with inbox := inbox }.apply (turn (some frame))

/-- One turn of the loop. -/
def SessionThread.turn (cfg : SessionConfig) (t : SessionThread) (e : TurnEnv) : SessionThread :=
  if e.serverRunning = false then { t with running := false }
  else
    let sess := sessionCheckTimeout cfg t.sess e.now
    match sess.state with
    | .init => t.receive (sessionInit cfg sess t.reply e.nowAfter)
    | .waitingUploadRequest =>
      t.apply (sessionWaitingUploadRequest sess t.reply e.rand e.nowAfter)
    | .waitingFtpLoginResult => t.receive (sessionWaitingFtpLoginResult sess e.nowAfter)
    | .waitingFtpDownloadResult => t.receive (sessionWaitingFtpDownloadResult sess e.nowAfter)
    | .waitingCloudUploadResult => { t with sess := sess, running := false }
    | .completed => { t with sess := sess, running := false }
    | .error => { t with sess := sess, running := false }

/-- The runs of the thread on a list of frames. -/
def sessionSystem (cfg : SessionConfig) (frames : List LucpFrame) :
    System SessionThread TurnEnv where
  init t := ∃ reply seqNum now, t = .start reply seqNum now frames
  step t e t' := t.running = true ∧ t' = t.turn cfg e

end Lucp
