import Lucp.Connection
import Lucp.SessionOutcome

/-!
# The server against copies of one request

What a session does when every message it finds is the same `UPLOAD_REQUEST`, however many copies of
it there are.  `Server.Stage` lists how far its exchange can have got, with the messages it has
handed to `lucp_net_send` by then: none, the acknowledgement, or the acknowledgement and the report.
Every step of the server moves it along these stages (`Server.moved_turn`, `Server.moved_afterRecv`,
`Server.stage_write`), takes what it reads off the stream of copies, and puts what it sends behind
what it has sent.
-/

set_option autoImplicit false

namespace Lucp

open Framing

/-! ## What the server has sent -/

/-- Is the thread in the loop of `full_write`? -/
def ServerPc.isSending : ServerPc → Bool
  | .sending _ _ _ => true
  | _ => false

/-- How far the exchange of the session has got.  `request` is the frame the client sends. -/
inductive Server.Stage (cfg : SessionConfig) (request : LucpFrame) (srv : Server) : Prop
  /-- No request has come. -/
  | waiting (hsent : srv.sent = []) (hstate : srv.sess.state = .init ∨ srv.sess.state = .error)
      (hpc : srv.pc.isSending = false)
  /-- The request is accepted, and the log not yet prepared. -/
  | accepted (hversion : VersionAccepted cfg request) (hseq : srv.sess.seqNum = request.seqNum)
      (hsent : srv.sent = [ackAccepted request.seqNum])
      (hstate : srv.sess.state = .waitingUploadRequest ∨
        srv.sess.state = .error ∧ srv.pc.isSending = false)
      (hafter : ∀ buf written after, srv.pc = .sending buf written after → after = srv.sess)
  /-- The request is refused. -/
  | rejected (hversion : ¬ VersionAccepted cfg request)
      (hsent : srv.sent = [ackRejected request.seqNum])
      (hpc : srv.sess.state = .error ∧ srv.pc.isSending = false ∨
        srv.sess.state = .init ∧
          ∃ buf written, srv.pc = .sending buf written { srv.sess with state := .error })
  /-- The outcome of the preparation is reported. -/
  | reported (prep : UInt8 × Bytes) (hversion : VersionAccepted cfg request)
      (hseq : srv.sess.seqNum = request.seqNum)
      (hsent : srv.sent = [ackAccepted request.seqNum, notifyDone request.seqNum prep])
      (hinit : srv.sess.state ≠ .init)
      (hpc : srv.sess.state ≠ .waitingUploadRequest ∧ srv.pc.isSending = false ∨
        srv.sess.state = .waitingUploadRequest ∧
          ∃ buf written after, srv.pc = .sending buf written after ∧
            after.seqNum = request.seqNum ∧ after.state ≠ .init ∧
            after.state ≠ .waitingUploadRequest)

/-- Does the state wait for a frame? -/
def LucpSessionState.waits : LucpSessionState → Bool
  | .init => true
  | .waitingFtpLoginResult => true
  | .waitingFtpDownloadResult => true
  | _ => false

/-- The thread and the stream of requests: the buffer is as `lucp_net_recv` keeps it, and as long as
the session has not failed, what the client has sent is a number of complete copies, which have been
read, and then the bytes in the buffer and in the channel. -/
structure Server.Ready (srv : Server) (w c2s sent : Bytes) : Prop where
  fits : srv.recv.Fits
  need : srv.pc = .receiving →
    wireDecode srv.recv.ctx.pending = .need ∧ srv.sess.state.waits = true
  stream : srv.sess.state ≠ .error →
    ∃ k, sent = (List.replicate k w).flatten ++ (srv.recv.ctx.pending ++ c2s)

/-- The thread has handed some messages more to `lucp_net_send`, and none of their bytes is in the
channel yet. -/
def Server.Grows (srv srv' : Server) : Prop :=
  ∃ new, srv'.sent = srv.sent ++ new ∧ srv'.unsent = new.flatMap Msg.encode

variable {P : Parties}

/-- The first message the server sends is the one the client waits for. -/
theorem Server.Stage.head {cfg : SessionConfig} {request : LucpFrame} {srv : Server}
    (h : srv.Stage cfg request) {m : Msg} {ms : List Msg} (hsent : srv.sent = m :: ms) :
    m.msgType = lucpMtypAckStart ∧ m.seqNum = request.seqNum := by
  cases h with
  | waiting h _ _ => rw [h] at hsent; cases hsent
  | accepted _ _ h _ _ => rw [h] at hsent; cases hsent; exact ⟨rfl, rfl⟩
  | rejected _ h _ => rw [h] at hsent; cases hsent; exact ⟨rfl, rfl⟩
  | reported _ _ _ h _ _ => rw [h] at hsent; cases hsent; exact ⟨rfl, rfl⟩

/-- The server sends at most one acknowledgement and one report, and nothing else. -/
theorem Server.Stage.counts {cfg : SessionConfig} {request : LucpFrame} {srv : Server}
    (h : srv.Stage cfg request) : srv.sent.countP (·.msgType == lucpMtypAckStart) ≤ 1 ∧
      srv.sent.countP (·.msgType == lucpMtypNotifyDone) ≤ 1 ∧
      ∀ m ∈ srv.sent, m.msgType = lucpMtypAckStart ∨ m.msgType = lucpMtypNotifyDone := by
  have hack : ∀ s, (ackAccepted s).msgType = lucpMtypAckStart := fun _ => rfl
  have hrej : ∀ s, (ackRejected s).msgType = lucpMtypAckStart := fun _ => rfl
  have hdone : ∀ s prep, (notifyDone s prep).msgType = lucpMtypNotifyDone := fun _ _ => rfl
  have hne : ¬ lucpMtypAckStart = lucpMtypNotifyDone := by decide
  have hne' : ¬ lucpMtypNotifyDone = lucpMtypAckStart := by decide
  cases h with
  | waiting h _ _ => simp [h]
  | accepted _ _ h _ _ => simp [h, hack, hne]
  | rejected _ h _ => simp [h, hrej, hne]
  | reported _ _ _ h _ _ => simp [h, hack, hdone, hne, hne']

/-- An acknowledgement that says success means that the session has recorded the request. -/
theorem Server.Stage.recorded {cfg : SessionConfig} {request : LucpFrame} {srv : Server}
    (h : srv.Stage cfg request) {m : Msg} {ms : List Msg} (hsent : srv.sent = m :: ms)
    (hstatus : m.status = lucpStatSuccess) :
    srv.sess.seqNum = request.seqNum ∧ srv.sess.state ≠ .init := by
  cases h with
  | waiting h _ _ => rw [h] at hsent; cases hsent
  | accepted _ hseq _ hstate _ =>
    refine ⟨hseq, ?_⟩
    rcases hstate with h | ⟨h, -⟩ <;> simp [h]
  | rejected _ h _ =>
    rw [h] at hsent
    cases hsent
    exact absurd hstatus (by decide : lucpStatFailed ≠ lucpStatSuccess)
  | reported _ _ hseq _ hinit _ => exact ⟨hseq, hinit⟩

/-- Behind the first message comes at most the report. -/
theorem Server.Stage.tail {cfg : SessionConfig} {request : LucpFrame} {srv : Server}
    (h : srv.Stage cfg request) {m : Msg} {ms rest : List Msg}
    (hsent : srv.sent = m :: (ms ++ rest)) :
    ms = [] ∨ ∃ m, ms = [m] ∧ m ∈ srv.sent ∧ m.msgType = lucpMtypNotifyDone ∧
      m.seqNum = request.seqNum := by
  cases ms with
  | nil => exact .inl rfl
  | cons x ms =>
    cases h with
    | waiting h _ _ => rw [h] at hsent; cases hsent
    | accepted _ _ h _ _ => rw [h] at hsent; cases hsent
    | rejected _ h _ => rw [h] at hsent; cases hsent
    | reported prep _ _ h _ _ =>
      rw [h] at hsent
      simp only [List.cons_append, List.cons.injEq] at hsent
      obtain ⟨-, rfl, hnil⟩ := hsent
      obtain ⟨rfl, -⟩ := List.append_eq_nil_iff.1 hnil.symm
      exact .inr ⟨_, rfl, by simp [h], rfl, rfl⟩

/-! ## One state of the session -/

theorem Server.finish_quiet (host : ByteOrder) (srv : Server) (sess : LucpSession) :
    srv.finish host (.quiet sess) = { srv with sess := sess, pc := .top } := rfl

/-- A made reply can be packed, and is sent as the bytes of its message. -/
theorem Server.finish_send (host : ByteOrder) (srv : Server) {reply : LucpFrame} (hv : reply.Valid)
    (sess after : LucpSession) : srv.finish host ⟨sess, some reply, after⟩
      = { srv with
          sess := sess, reply := reply, pc := .sending reply.msg.encode 0 after
          sent := srv.sent ++ [reply.msg] } := by
  have hpack : lucpNetSendPack host reply = some reply.msg.encode := by
    rw [lucpNetSendPack_eq, if_pos hv.len, hv.encode_eq]
  simp only [finish, hpack]

/-- A request that is the client's, in the state that waits for it. -/
theorem Server.stage_request {cfg : SessionConfig} {request frame : LucpFrame} (srv : Server)
    (host : ByteOrder) (htype : request.msgType = lucpMtypUploadRequest)
    (hframe : frame.msg = request.msg) (hstate : srv.sess.state = .init) (hsent : srv.sent = [])
    (now : UInt64) :
    let srv' := srv.finish host (sessionInit cfg srv.sess srv.reply now (some frame))
    srv'.Stage cfg request ∧ srv.Grows srv' ∧ srv'.recv = srv.recv ∧ srv'.pc ≠ .receiving := by
  have htype' : frame.msgType = lucpMtypUploadRequest := (congrArg Msg.msgType hframe).trans htype
  have hmajor : frame.versionMajor = request.versionMajor := congrArg Msg.versionMajor hframe
  have hseq : frame.seqNum = request.seqNum := congrArg Msg.seqNum hframe
  simp only [sessionInit, if_pos htype']
  by_cases hv : VersionAccepted cfg request
  · have hnot : ¬ (cfg.validateVersion = true ∧ frame.versionMajor ≠ lucpVerMajor) := by
      rintro ⟨h1, h2⟩
      rcases hv with h | h
      · rw [h] at h1; cases h1
      · exact h2 (hmajor.trans h)
    rw [if_neg hnot, finish_send host srv (lucpFrameMake_valid _ _ _ _ _ _), ackAccepted_eq, hseq]
    refine ⟨.accepted hv rfl (by simp [hsent]) (.inl rfl) ?_, ⟨_, rfl, ?_⟩, rfl, by simp⟩
    · intro buf written after hpc
      cases hpc
      rfl
    · simp [unsent]
  · have hnot : cfg.validateVersion = true ∧ frame.versionMajor ≠ lucpVerMajor := by
      rw [VersionAccepted, not_or, Bool.not_eq_false] at hv
      exact ⟨hv.1, fun h => hv.2 (hmajor.symm.trans h)⟩
    rw [if_pos hnot, finish_send host srv (lucpFrameMake_valid _ _ _ _ _ _), ackRejected_eq, hseq]
    refine ⟨.rejected hv (by simp [hsent]) (.inr ⟨hstate, _, _, rfl⟩), ⟨_, rfl, ?_⟩, rfl, by simp⟩
    simp [unsent]

/-- The log preparation. -/
theorem Server.stage_prepare {cfg : SessionConfig} {request : LucpFrame} {srv : Server}
    (host : ByteOrder) (h : srv.Stage cfg request)
    (hstate : srv.sess.state = .waitingUploadRequest) (hidle : srv.pc.isSending = false) (rand : ℕ)
    (now : UInt64) :
    let srv' := srv.finish host (sessionWaitingUploadRequest srv.sess srv.reply rand now)
    srv'.Stage cfg request ∧ srv.Grows srv' ∧ srv'.recv = srv.recv ∧ srv'.pc ≠ .receiving := by
  cases h with
  | waiting _ hs _ => rw [hstate] at hs; simp at hs
  | rejected _ _ hs => rw [hstate] at hs; simp at hs
  | reported _ _ _ _ _ hpc =>
    rcases hpc with ⟨hne, -⟩ | ⟨-, buf, written, after, hpc, -⟩
    · exact absurd hstate hne
    · rw [hpc] at hidle; cases hidle
  | accepted hv hseq hsent _ _ =>
    simp only [sessionWaitingUploadRequest]
    rw [finish_send host srv (lucpFrameMake_valid _ _ _ _ _ _), notifyDone_eq, hseq]
    refine ⟨.reported (logPreparation rand) hv hseq (by simp [hsent]) (by simp [hstate])
      (.inr ⟨hstate, _, _, _, rfl, rfl, ?_, ?_⟩), ⟨_, rfl, ?_⟩, rfl, by simp⟩
    · dsimp only; split <;> simp
    · dsimp only; split <;> simp
    · simp [unsent]

/-- Without a change of its exchange, an idle thread stays at its stage. -/
theorem Server.Stage.of_idle {cfg : SessionConfig} {request : LucpFrame} {srv srv' : Server}
    (h : srv.Stage cfg request) (hidle : srv.pc.isSending = false)
    (hidle' : srv'.pc.isSending = false) (hsess : srv'.sess = srv.sess)
    (hsent : srv'.sent = srv.sent) : srv'.Stage cfg request := by
  have hnot : ∀ buf written after, srv'.pc ≠ .sending buf written after := fun _ _ _ hpc => by
    rw [hpc] at hidle'; cases hidle'
  cases h with
  | waiting h1 h2 _ => exact .waiting (hsent.trans h1) (by rw [hsess]; exact h2) hidle'
  | accepted hv h1 h2 h3 _ =>
    refine .accepted hv (by rw [hsess]; exact h1) (hsent.trans h2) ?_
      fun _ _ _ hpc => absurd hpc (hnot _ _ _)
    rw [hsess]
    exact h3.imp_right fun h => ⟨h.1, hidle'⟩
  | rejected hv h1 h2 =>
    refine .rejected hv (hsent.trans h1) ?_
    rcases h2 with ⟨he, -⟩ | ⟨-, buf, written, hpc⟩
    · exact .inl ⟨by rw [hsess]; exact he, hidle'⟩
    · rw [hpc] at hidle; cases hidle
  | reported prep hv h1 h2 h3 h4 =>
    refine .reported prep hv (by rw [hsess]; exact h1) (hsent.trans h2) (by rw [hsess]; exact h3) ?_
    rcases h4 with ⟨he, -⟩ | ⟨-, buf, written, after, hpc, -⟩
    · exact .inl ⟨by rw [hsess]; exact he, hidle'⟩
    · rw [hpc] at hidle; cases hidle

/-- An idle thread may fail at any stage. -/
theorem Server.Stage.fail {cfg : SessionConfig} {request : LucpFrame} {srv srv' : Server}
    (h : srv.Stage cfg request) (hidle' : srv'.pc.isSending = false)
    (hseq : srv'.sess.seqNum = srv.sess.seqNum) (hstate : srv'.sess.state = .error)
    (hsent : srv'.sent = srv.sent) : srv'.Stage cfg request := by
  have hnot : ∀ buf written after, srv'.pc ≠ .sending buf written after := fun _ _ _ hpc => by
    rw [hpc] at hidle'; cases hidle'
  cases h with
  | waiting h1 _ _ => exact .waiting (hsent.trans h1) (.inr hstate) hidle'
  | accepted hv h1 h2 _ _ =>
    exact .accepted hv (hseq.trans h1) (hsent.trans h2) (.inr ⟨hstate, hidle'⟩)
      fun _ _ _ hpc => absurd hpc (hnot _ _ _)
  | rejected hv h1 _ => exact .rejected hv (hsent.trans h1) (.inl ⟨hstate, hidle'⟩)
  | reported prep hv h1 h2 _ _ =>
    exact .reported prep hv (hseq.trans h1) (hsent.trans h2) (by rw [hstate]; simp)
      (.inl ⟨by rw [hstate]; simp, hidle'⟩)

/-- Once the outcome is reported, an idle thread may move among the states behind it. -/
theorem Server.Stage.move {cfg : SessionConfig} {request : LucpFrame} {srv srv' : Server}
    (h : srv.Stage cfg request)
    (hstate : srv.sess.state = .waitingFtpLoginResult ∨
      srv.sess.state = .waitingFtpDownloadResult)
    (hidle' : srv'.pc.isSending = false) (hseq : srv'.sess.seqNum = srv.sess.seqNum)
    (hi : srv'.sess.state ≠ .init) (hu : srv'.sess.state ≠ .waitingUploadRequest)
    (hsent : srv'.sent = srv.sent) : srv'.Stage cfg request := by
  cases h with
  | waiting _ h2 _ => rcases hstate with h | h <;> rw [h] at h2 <;> simp at h2
  | accepted _ _ _ h3 _ => rcases hstate with h | h <;> rw [h] at h3 <;> simp at h3
  | rejected _ _ h2 => rcases hstate with h | h <;> rw [h] at h2 <;> simp at h2
  | reported prep hv h1 h2 _ _ =>
    exact .reported prep hv (hseq.trans h1) (hsent.trans h2) hi (.inl ⟨hu, hidle'⟩)

/-- A result state sends nothing and keeps the sequence number. -/
theorem sessionWaitingResult_quiet (msgType : UInt8) (next : LucpSessionState) (sess : LucpSession)
    (now : UInt64) (frame : LucpFrame) : ∃ sess',
      sessionWaitingResult msgType next sess now (some frame) = .quiet sess' ∧
      sess'.seqNum = sess.seqNum ∧
      (sess'.state = .error ∨ sess'.state = next ∨ sess'.state = sess.state) := by
  rw [sessionWaitingResult]
  split
  · refine ⟨_, rfl, rfl, ?_⟩
    dsimp only
    split
    · exact .inl rfl
    · exact .inr (.inl rfl)
  · exact ⟨sess, rfl, rfl, .inr (.inr rfl)⟩

theorem Server.grows_of_idle {srv srv' : Server} (hsent : srv'.sent = srv.sent)
    (hidle' : srv'.pc.isSending = false) : srv.Grows srv' := by
  refine ⟨[], by rw [hsent, List.append_nil], ?_⟩
  rw [unsent]
  split
  · next hpc => rw [hpc] at hidle'; cases hidle'
  · rfl

/-! ## One message for the server -/

/-- A waiting state that gets nothing fails. -/
theorem Server.onFrame_none (cfg : SessionConfig) (srv : Server) (now : UInt64)
    (hw : srv.sess.state.waits = true) :
    srv.onFrame cfg now none = .quiet { srv.sess with state := .error } := by
  rw [onFrame]
  cases hstate : srv.sess.state with
  | init => rfl
  | waitingFtpLoginResult => rfl
  | waitingFtpDownloadResult => rfl
  | waitingUploadRequest => rw [hstate] at hw; cases hw
  | waitingCloudUploadResult => rw [hstate] at hw; cases hw
  | completed => rw [hstate] at hw; cases hw
  | error => rw [hstate] at hw; cases hw

/-- What every step of the server keeps, and how what it has sent has grown. -/
structure Server.Moved (cfg : SessionConfig) (request : LucpFrame) (c2s sent : Bytes)
    (srv srv' : Server) : Prop where
  stage : srv'.Stage cfg request
  ready : srv'.Ready request.encode c2s sent
  grows : srv.Grows srv'

variable {host : ByteOrder} {cfg : SessionConfig} {request : LucpFrame} {srv : Server}
  {c2s sent : Bytes}

/-- The connection is at its end, or the stream is bad: a waiting state fails. -/
theorem Server.moved_none {c2s' : Bytes} {recv : RecvState} (h : srv.Stage cfg request)
    (hw : srv.sess.state.waits = true) (hfit : recv.Fits) (now : UInt64) :
    srv.Moved cfg request c2s' sent
      ({ srv with recv := recv }.finish host
        (Server.onFrame cfg { srv with recv := recv } now none)) := by
  rw [onFrame_none cfg { srv with recv := recv } now hw, finish_quiet]
  exact ⟨h.fail rfl rfl rfl rfl, ⟨hfit, fun hpc => (by cases hpc), fun herr => absurd rfl herr⟩,
    grows_of_idle rfl rfl⟩

/-- Before the request is read, nothing has been sent. -/
theorem Server.Stage.sent_of_init (h : srv.Stage cfg request) (hinit : srv.sess.state = .init)
    (hidle : srv.pc.isSending = false) : srv.sent = [] := by
  cases h with
  | waiting h1 _ _ => exact h1
  | accepted _ _ _ h3 _ => rw [hinit] at h3; simp at h3
  | rejected _ _ h2 =>
    rcases h2 with ⟨h2, -⟩ | ⟨-, buf, written, hpc⟩
    · rw [hinit] at h2; cases h2
    · rw [hpc] at hidle; cases hidle
  | reported _ _ _ _ h3 _ => exact absurd hinit h3

/-- A state behind the outcome stays behind it, whatever the message is. -/
theorem Server.Stage.waitingResult (h : srv.Stage cfg request)
    (hstate : srv.sess.state = .waitingFtpLoginResult ∨
      srv.sess.state = .waitingFtpDownloadResult) (host : ByteOrder) (recv : RecvState)
    (msgType : UInt8) {next : LucpSessionState} (hi : next ≠ .init)
    (hu : next ≠ .waitingUploadRequest) (now : UInt64) :
    ∃ srv', ({ srv with recv := recv } : Server).finish host
        (sessionWaitingResult msgType next srv.sess now (some recv.frame)) = srv' ∧
      srv'.Stage cfg request ∧ srv'.recv = recv ∧ srv'.pc ≠ .receiving ∧ srv.Grows srv' := by
  obtain ⟨sess', hquiet, hseq, hsess⟩ :=
    sessionWaitingResult_quiet msgType next srv.sess now recv.frame
  refine ⟨_, rfl, ?_⟩
  rw [hquiet, finish_quiet]
  have hstates : sess'.state ≠ .init ∧ sess'.state ≠ .waitingUploadRequest := by
    rcases hsess with h | h | h
    · rw [h]; simp
    · rw [h]; exact ⟨hi, hu⟩
    · rw [h]; rcases hstate with h | h <;> simp [h]
  exact ⟨h.move hstate rfl hseq hstates.1 hstates.2 rfl, rfl, by simp, grows_of_idle rfl rfl⟩

/-- **A message for a waiting state is a copy of the request**, and the state does what it does with
one: the first is answered, the others are passed over. -/
theorem Server.moved_some {c2s' : Bytes} {recv : RecvState} {n : ℕ}
    (htype : request.msgType = lucpMtypUploadRequest) (h : srv.Stage cfg request)
    (hready : srv.Ready request.encode c2s sent) (hframed : Framed request.encode sent)
    (hw : srv.sess.state.waits = true) (hidle : srv.pc.isSending = false) (hfit : recv.Fits)
    (hitem : wireDecode (srv.recv.ctx.pending ++ c2s) = .item recv.frame.msg n)
    (hbytes : recv.ctx.pending ++ c2s' = (srv.recv.ctx.pending ++ c2s).drop n) (now : UInt64) :
    srv.Moved cfg request c2s' sent
      ({ srv with recv := recv }.finish host
        (Server.onFrame cfg { srv with recv := recv } now (some recv.frame))) := by
  have herr : srv.sess.state ≠ .error := fun he => by rw [he] at hw; cases hw
  obtain ⟨k, hk⟩ := hready.stream herr
  rw [hk] at hframed
  obtain ⟨hmsg, hsplit⟩ := wireDecode_framed hframed.of_append hitem
  have hstream : sent = (List.replicate (k + 1) request.encode).flatten
      ++ (recv.ctx.pending ++ c2s') := by
    rw [hk, hbytes, List.replicate_succ', List.flatten_append, List.flatten_singleton,
      List.append_assoc, ← hsplit]
  have hready' : ∀ srv' : Server, srv'.recv = recv → srv'.pc ≠ .receiving →
      srv'.Ready request.encode c2s' sent := fun srv' hrecv hpc =>
    ⟨by rw [hrecv]; exact hfit, fun h => absurd h hpc,
      fun _ => ⟨k + 1, by rw [hrecv]; exact hstream⟩⟩
  have hresult : srv.sess.state = .waitingFtpLoginResult ∨
      srv.sess.state = .waitingFtpDownloadResult →
      ∀ (msgType : UInt8) (next : LucpSessionState), next ≠ .init → next ≠ .waitingUploadRequest →
        srv.Moved cfg request c2s' sent ({ srv with recv := recv }.finish host
          (sessionWaitingResult msgType next srv.sess now (some recv.frame))) := by
    intro hstate msgType next hi hu
    obtain ⟨srv', rfl, hstage, hrecv, hpc, hgrows⟩ :=
      h.waitingResult hstate host recv msgType hi hu now
    exact ⟨hstage, hready' _ hrecv hpc, hgrows⟩
  rw [onFrame]
  dsimp only
  cases hstate : srv.sess.state with
  | init =>
    obtain ⟨hstage, hgrows, hrecv, hpc⟩ :=
      stage_request { srv with recv := recv } host htype hmsg hstate
        (h.sent_of_init hstate hidle) now
    exact ⟨hstage, hready' _ hrecv hpc, hgrows⟩
  | waitingFtpLoginResult => exact hresult (.inl hstate) _ _ (by simp) (by simp)
  | waitingFtpDownloadResult => exact hresult (.inr hstate) _ _ (by simp) (by simp)
  | waitingUploadRequest => rw [hstate] at hw; cases hw
  | waitingCloudUploadResult => rw [hstate] at hw; cases hw
  | completed => rw [hstate] at hw; cases hw
  | error => rw [hstate] at hw; cases hw

/-- A part of `lucp_net_recv` of the server. -/
theorem Server.moved_afterRecv {c2s' : Bytes} {out : RecvState × Option RecvExit}
    (htype : request.msgType = lucpMtypUploadRequest) (h : srv.Stage cfg request)
    (hready : srv.Ready request.encode c2s sent) (hframed : Framed request.encode sent)
    (hw : srv.sess.state.waits = true) (hidle : srv.pc.isSending = false) (hfit : out.1.Fits)
    (hout : RecvOutcome srv.recv c2s out c2s') (now : UInt64) :
    srv.Moved cfg request c2s' sent (srv.afterRecv host cfg now out) := by
  rw [afterRecv]
  cases hout with
  | waits hnone hneed hbytes =>
    rw [hnone]
    refine ⟨h.of_idle hidle rfl rfl rfl, ⟨hfit, fun _ => ⟨hneed, hw⟩, fun herr => ?_⟩,
      grows_of_idle rfl rfl⟩
    obtain ⟨k, hk⟩ := hready.stream herr
    exact ⟨k, by rw [hbytes, hk]⟩
  | stops e hsome he _ =>
    rw [hsome]
    dsimp only
    rw [he, if_neg (by decide)]
    exact moved_none h hw hfit now
  | corrupted hsome _ =>
    rw [hsome]
    exact moved_none h hw hfit now
  | received m n hsome hmsg hitem hbytes =>
    rw [hsome]
    exact moved_some htype h hready hframed hw hidle hfit (by rw [hitem, hmsg]) hbytes now

/-! ## The other steps of the server -/

/-- The deadline test keeps the stage, and everything but the state. -/
theorem Server.stage_timeout (h : srv.Stage cfg request)
    (hready : srv.Ready request.encode c2s sent) (hpc : srv.pc = .top) (now : UInt64) :
    let srv' := { srv with sess := sessionCheckTimeout cfg srv.sess now }
    srv'.Stage cfg request ∧ srv'.Ready request.encode c2s sent := by
  have htop : ∀ sess, ({ srv with sess := sess } : Server).pc ≠ .receiving := fun _ => by
    simp [hpc]
  dsimp only
  rw [sessionCheckTimeout]
  split
  · exact ⟨h.fail (by simp [hpc, ServerPc.isSending]) rfl rfl rfl,
      ⟨hready.fits, fun h => absurd h (htop _), fun herr => absurd rfl herr⟩⟩
  · exact ⟨h, hready⟩

/-- **A turn of the server.** -/
theorem Server.moved_turn (htype : request.msgType = lucpMtypUploadRequest)
    (h : srv.Stage cfg request) (hready : srv.Ready request.encode c2s sent)
    (hframed : Framed request.encode sent) (hpc : srv.pc = .top) (e : TurnEnv) :
    srv.Moved cfg request c2s sent (srv.turn host cfg e) := by
  rw [turn]
  split
  · exact ⟨h.of_idle (by rw [hpc]; rfl) rfl rfl rfl,
      ⟨hready.fits, fun h => (by cases h), hready.stream⟩, grows_of_idle rfl rfl⟩
  obtain ⟨hstage, hready'⟩ := stage_timeout h hready hpc e.now
  generalize sessionCheckTimeout cfg srv.sess e.now = sess at hstage hready' ⊢
  have hidle : ({ srv with sess := sess } : Server).pc.isSending = false := by
    simp [hpc, ServerPc.isSending]
  have hrecv : sess.state.waits = true → srv.Moved cfg request c2s sent
      (({ srv with sess := sess } : Server).afterRecv host cfg e.nowAfter
        (lucpNetRecvBuffered host srv.recv)) := fun hw => by
    obtain ⟨h1, h2, h3⟩ := moved_afterRecv htype hstage hready' hframed hw hidle
      hready.fits.buffered (.of_buffered host hready.fits c2s) e.nowAfter
    exact ⟨h1, h2, h3⟩
  have hstop : srv.Moved cfg request c2s sent { srv with sess := sess, pc := .stopped } :=
    ⟨hstage.of_idle hidle rfl rfl rfl, ⟨hready.fits, fun h => (by cases h), hready'.stream⟩,
      grows_of_idle rfl rfl⟩
  dsimp only
  cases hstate : sess.state with
  | init => exact hrecv (by rw [hstate]; rfl)
  | waitingFtpLoginResult => exact hrecv (by rw [hstate]; rfl)
  | waitingFtpDownloadResult => exact hrecv (by rw [hstate]; rfl)
  | waitingUploadRequest =>
    obtain ⟨h1, h2, h3, h4⟩ := stage_prepare host hstage hstate hidle e.rand e.nowAfter
    refine ⟨h1, ⟨by rw [h3]; exact hready.fits, fun h => absurd h h4, fun _ => ?_⟩, h2⟩
    rw [h3]
    exact hready'.stream (by simp [hstate])
  | waitingCloudUploadResult => exact hstop
  | completed => exact hstop
  | error => exact hstop

/-- While a reply is being sent, the session has not failed. -/
theorem Server.Stage.state_of_sending {buf : Bytes} {written : ℕ} {after : LucpSession}
    (h : srv.Stage cfg request) (hpc : srv.pc = .sending buf written after) :
    srv.sess.state ≠ .error := by
  have hsending : srv.pc.isSending ≠ false := by rw [hpc]; simp [ServerPc.isSending]
  cases h with
  | waiting _ _ h3 => exact absurd h3 hsending
  | accepted _ _ _ h3 _ =>
    rcases h3 with h | h
    · rw [h]; simp
    · exact absurd h.2 hsending
  | rejected _ _ h2 =>
    rcases h2 with h | h
    · exact absurd h.2 hsending
    · rw [h.1]; simp
  | reported _ _ _ _ _ h4 =>
    rcases h4 with h | h
    · exact absurd h.2 hsending
    · rw [h.1]; simp

/-- Some bytes of a reply go out, or all that are left. -/
theorem Server.stage_write {buf : Bytes} {written : ℕ} {after : LucpSession} {r : WriteResult}
    (h : srv.Stage cfg request) (hpc : srv.pc = .sending buf written after) (hr : r.NoFailure) :
    (srv.afterWrite buf written after r).Stage cfg request := by
  have hsending : srv.pc.isSending ≠ false := by rw [hpc]; simp [ServerPc.isSending]
  rw [afterWrite, fullWriteTurn_of_noFailure hr, fullWriteTest]
  cases h with
  | waiting _ _ h3 => exact absurd h3 hsending
  | accepted hv h1 h2 h3 h4 =>
    have hstate := h3.resolve_right fun h => hsending h.2
    obtain rfl := h4 _ _ _ hpc
    split
    · next heq => split at heq <;> cases heq
    · exact .accepted hv h1 h2 (.inl hstate) fun _ _ _ hpc' => by cases hpc'; rfl
    · exact .accepted hv h1 h2 (.inl hstate) fun _ _ _ hpc' => by cases hpc'
  | rejected hv h1 h2 =>
    obtain ⟨hstate, buf', written', hpc'⟩ := h2.resolve_left fun h => hsending h.2
    rw [hpc] at hpc'
    cases hpc'
    split
    · next heq => split at heq <;> cases heq
    · exact .rejected hv h1 (.inr ⟨hstate, _, _, rfl⟩)
    · exact .rejected hv h1 (.inl ⟨rfl, rfl⟩)
  | reported prep hv h1 h2 h3 h4 =>
    obtain ⟨hstate, buf', written', after', hpc', hseq, hi, hu⟩ :=
      h4.resolve_left fun h => hsending h.2
    rw [hpc] at hpc'
    cases hpc'
    split
    · next heq => split at heq <;> cases heq
    · exact .reported prep hv h1 h2 h3 (.inr ⟨hstate, _, _, _, rfl, hseq, hi, hu⟩)
    · exact .reported prep hv hseq h2 hi (.inl ⟨hu, rfl⟩)

/-- What a `write()` of the server does to everything but the stage. -/
theorem Server.afterWrite_eq {buf : Bytes} {written : ℕ} {after : LucpSession} {r : WriteResult}
    (hpc : srv.pc = .sending buf written after) (hr : r.NoFailure) :
    let srv' := srv.afterWrite buf written after r
    srv'.sent = srv.sent ∧ srv'.recv = srv.recv ∧ srv'.pc ≠ .receiving ∧
      srv.unsent = (buf.drop written).take r.count ++ srv'.unsent := by
  have hun : srv.unsent = buf.drop written := by rw [unsent, hpc]
  dsimp only
  rw [hun, afterWrite, fullWriteTurn_of_noFailure hr, fullWriteTest]
  split
  · next heq => split at heq <;> cases heq
  · next heq =>
    split at heq
    · cases heq
      exact ⟨rfl, rfl, by simp, by simp [unsent, ← List.drop_drop]⟩
    · cases heq
  · next heq =>
    split at heq
    · cases heq
    · next hge =>
      refine ⟨rfl, rfl, by simp, ?_⟩
      have hall : (buf.drop written).length ≤ r.count := by rw [List.length_drop]; omega
      rw [List.take_of_length_le hall, unsent, List.append_nil]

end Lucp