import Lucp.Retry
import Lucp.Session

/-!
# One client and one session on a connection

The two parties of `lucpd`'s protocol at the level of system calls.  The client runs
`lucp_net_send_with_retries` and, if that returns 0, calls `lucp_net_recv` for what comes next.  The
server runs `session_thread`: `Server` is the thread of `Lucp.Session` with the two places made
visible at which it can be held up, the loop of `lucp_net_recv` and the loop of `full_write`.
Between them are two byte channels that lose and reorder nothing; each `write()` puts some bytes
into one and each `read()` takes some out.

`connectionSystem` interleaves the steps of the two in every possible way.
-/

set_option autoImplicit false

namespace Lucp

/-! ## The server -/

/-- Where the thread stands. -/
inductive ServerPc
  /-- At the head of its loop. -/
  | top
  /-- In the loop of `lucp_net_recv`. -/
  | receiving
  /-- In `full_write`, with `written` bytes of `buf` taken; the session is `after` when it is
  done. -/
  | sending (buf : Bytes) (written : ℕ) (after : LucpSession)
  | stopped
  deriving DecidableEq

/-- The session thread with its network context. -/
structure Server where
  sess : LucpSession
  recv : RecvState
  /-- The frame object the replies are made in. -/
  reply : LucpFrame
  pc : ServerPc
  /-- The messages handed to `lucp_net_send`, oldest first. -/
  sent : List Msg

namespace Server

variable (host : ByteOrder) (cfg : SessionConfig)

/-- What a state of the session does to the thread.  If the reply cannot be packed the code goes on
as if it had been sent. -/
def finish (srv : Server) (turn : SessionTurn) : Server :=
  match turn.send with
  | none => { srv with sess := turn.after, pc := .top }
  | some reply =>
    match lucpNetSendPack host reply with
    | none => { srv with sess := turn.after, reply := reply, pc := .top }
    | some buf =>
      { srv with
        sess := turn.sess, reply := reply, pc := .sending buf 0 turn.after
        sent := srv.sent ++ [reply.msg] }

/-- What the state makes of the result of `lucp_net_recv`. -/
def onFrame (srv : Server) (now : UInt64) (frame : Option LucpFrame) : SessionTurn :=
  match srv.sess.state with
  | .init => sessionInit cfg srv.sess srv.reply now frame
  | .waitingFtpLoginResult => sessionWaitingFtpLoginResult srv.sess now frame
  | .waitingFtpDownloadResult => sessionWaitingFtpDownloadResult srv.sess now frame
  | _ => .quiet srv.sess

/-- A part of `lucp_net_recv` is through: it waits for `read()`, or has returned. -/
def afterRecv (srv : Server) (now : UInt64) (out : RecvState × Option RecvExit) : Server :=
  match out.2 with
  | none => { srv with recv := out.1, pc := .receiving }
  | some e =>
    let frame := if e.ret = 0 then some out.1.frame else none
    { srv with recv := out.1 }.finish host (srv.onFrame cfg now frame)

/-- The head of the loop. -/
def turn (srv : Server) (e : TurnEnv) : Server :=
  if e.serverRunning = false then { srv with pc := .stopped }
  else
    let srv := { srv with sess := sessionCheckTimeout cfg srv.sess e.now }
    match srv.sess.state with
    | .init => srv.afterRecv host cfg e.nowAfter (lucpNetRecvBuffered host srv.recv)
    | .waitingUploadRequest =>
      srv.finish host (sessionWaitingUploadRequest srv.sess srv.reply e.rand e.nowAfter)
    | .waitingFtpLoginResult => srv.afterRecv host cfg e.nowAfter (lucpNetRecvBuffered host srv.recv)
    | .waitingFtpDownloadResult =>
      srv.afterRecv host cfg e.nowAfter (lucpNetRecvBuffered host srv.recv)
    | .waitingCloudUploadResult => { srv with pc := .stopped }
    | .completed => { srv with pc := .stopped }
    | .error => { srv with pc := .stopped }

/-- `write()` has answered; the result of `lucp_net_send` is not looked at. -/
def afterWrite (srv : Server) (buf : Bytes) (written : ℕ) (after : LucpSession) (r : WriteResult) :
    Server :=
  match fullWriteTurn buf.length written r with
  | .failed => { srv with sess := after, pc := .top }
  | .more written => { srv with pc := .sending buf written after }
  | .done => { srv with sess := after, pc := .top }

/-- The bytes of the present reply that are not in the channel yet. -/
def unsent (srv : Server) : Bytes :=
  match srv.pc with
  | .sending buf written _ => buf.drop written
  | _ => []

end Server

/-! ## The connection -/

/-- The two parties: the call the client makes, and the host and configuration of the server. -/
structure Parties where
  client : RetryArgs
  server : ByteOrder
  cfg : SessionConfig

/-- The state of both parties and of what is under way between them. -/
structure Connection where
  call : RetryCall
  /-- The frame object of the calls of `lucp_net_recv` behind the retrying one. -/
  frame : LucpFrame
  /-- Is the client inside such a call? -/
  reading : Bool
  /-- The messages such calls have delivered, oldest first. -/
  received : List Msg
  server : Server
  /-- Bytes on their way to the server. -/
  c2s : Bytes
  /-- Bytes on their way to the client. -/
  s2c : Bytes

/-- A fresh connection. -/
def Connection.fresh (P : Parties) (fd fd' : Int) (reply frame srvFrame srvReply : LucpFrame)
    (nRetries : Int) (seqNum : UInt32) (now : UInt64) : Connection :=
  { call := P.client.start (lucpNetCtxInit fd) reply nRetries
    frame := frame
    reading := false
    received := []
    server := ⟨⟨.init, seqNum, now⟩, ⟨lucpNetCtxInit fd', srvFrame⟩, srvReply, .top, []⟩
    c2s := []
    s2c := [] }

/-- What the later calls of the client work on. -/
def Connection.laterRecv (c : Connection) : RecvState := ⟨c.call.recv.ctx, c.frame⟩

/-- A part of a later `lucp_net_recv` is through. -/
def Connection.afterRecv (c : Connection) (out : RecvState × Option RecvExit) : Connection :=
  let c := { c with
    call := { c.call with recv := ⟨out.1.ctx, c.call.recv.frame⟩ }, frame := out.1.frame }
  match out.2 with
  | none => { c with reading := true }
  | some e =>
    { c with
      reading := false
      received := if e.ret = 0 then c.received ++ [out.1.frame.msg] else c.received }

/-- One step of either party.  `select()` may answer anything at any time, and a `read()` may give
any beginning of what is under way. -/
inductive ConnectionStep (P : Parties) : Connection → Connection → Prop
  | clientWrite {c : Connection} {call : RetryCall} {buf : Bytes} {written : ℕ} (r : WriteResult)
      (hr : r.NoFailure) (hpc : c.call.pc = .sending buf written)
      (hs : RetryStep P.client c.call (.write r) call) :
      ConnectionStep P c
        { c with call := call, c2s := c.c2s ++ (buf.drop written).take r.count }
  | clientSelect {c : Connection} {call : RetryCall} (r : SelectResult)
      (hs : RetryStep P.client c.call (.select r) call) :
      ConnectionStep P c { c with call := call }
  | clientRead {c : Connection} {call : RetryCall} (r : ReadResult) (s2c : Bytes)
      (hrule : ReadRule c.call.recv.ctx.room c.s2c r s2c)
      (hs : RetryStep P.client c.call (.read r) call) :
      ConnectionStep P c { c with call := call, s2c := s2c }
  | clientRecv {c : Connection} (frame : LucpFrame) (hret : c.call.pc = .returned 0)
      (hidle : c.reading = false) :
      ConnectionStep P c
        (c.afterRecv (lucpNetRecvBuffered P.client.host ⟨c.call.recv.ctx, frame⟩))
  | clientRecvRead {c : Connection} (r : ReadResult) (s2c : Bytes) (hreading : c.reading = true)
      (hrule : ReadRule c.call.recv.ctx.room c.s2c r s2c) :
      ConnectionStep P c
        ({ c with s2c := s2c }.afterRecv (lucpNetRecvRead P.client.host c.laterRecv r))
  | serverTurn {c : Connection} (e : TurnEnv) (hpc : c.server.pc = .top) :
      ConnectionStep P c { c with server := c.server.turn P.server P.cfg e }
  | serverRead {c : Connection} (r : ReadResult) (now : UInt64) (c2s : Bytes)
      (hpc : c.server.pc = .receiving) (hrule : ReadRule c.server.recv.ctx.room c.c2s r c2s) :
      ConnectionStep P c
        { c with
          server := c.server.afterRecv P.server P.cfg now
            (lucpNetRecvRead P.server c.server.recv r)
          c2s := c2s }
  | serverWrite {c : Connection} {buf : Bytes} {written : ℕ} {after : LucpSession} (r : WriteResult)
      (hr : r.NoFailure) (hpc : c.server.pc = .sending buf written after)
      (hle : r.count ≤ buf.length - written) :
      ConnectionStep P c
        { c with
          server := c.server.afterWrite buf written after r
          s2c := c.s2c ++ (buf.drop written).take r.count }

/-- The runs of the two parties, from a fresh connection.  The labels say nothing: what happens is
in the states. -/
def connectionSystem (P : Parties) : System Connection Unit where
  init c := ∃ fd fd' reply frame srvFrame srvReply nRetries seqNum now,
    c = .fresh P fd fd' reply frame srvFrame srvReply nRetries seqNum now
  step c _ c' := ConnectionStep P c c'

end Lucp
