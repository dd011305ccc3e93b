import Lucp.SessionOutcome

/-!
# Which frames advance a session, and when

Three states of a session wait for a frame, and each knows the frame it waits for by its type alone.
The deadline is tested at the head of a turn, before the receive, and on a difference that is cut to
32 bits.  This file is about what follows from these two facts for the frames that move a session
on.

## What is here

* `SessionThread.frameTaken`, `frameTarget` — the frame a turn gets, and the table of what it does
  (`SessionThread.turn_of_frame`).
* `own_exchange_iff` — only frames with the stored sequence number move the session exactly in the
  runs in which no result with another number is taken while one is waited for.
* `timedSystem` — runs with a clock that does not go back.
* `expired_never_advances_iff` — no frame moves the session on behind its deadline exactly in the
  timed runs in which no awaited frame keeps a receive waiting past the deadline, and none is taken
  2³¹ ms or more after the session was last active.
-/

set_option autoImplicit false

namespace Lucp

/-! ## The frame a turn takes -/

/-- The states that call `lucp_net_recv`. -/
def LucpSessionState.receives : LucpSessionState → Bool
  | .init => true
  | .waitingFtpLoginResult => true
  | .waitingFtpDownloadResult => true
  | _ => false

/-- The frame `lucp_net_recv` delivers to a turn, if the turn comes so far and there is one. -/
def SessionThread.frameTaken (cfg : SessionConfig) (t : SessionThread) (e : TurnEnv) :
    Option LucpFrame :=
  if e.serverRunning = true ∧ sessionTimedOut cfg t.sess e.now = false ∧
      t.sess.state.receives = true then t.inbox.head?
  else none

/-- The type of the result a state waits for. -/
def LucpSessionState.resultType : LucpSessionState → Option UInt8
  | .waitingFtpLoginResult => some lucpMtypFtpLoginResult
  | .waitingFtpDownloadResult => some lucpMtypFtpDownloadResult
  | _ => none

/-- Is this the frame, and the good news, a state waits for? -/
def AwaitedBy (cfg : SessionConfig) : LucpSessionState → LucpFrame → Prop
  | .init, f => f.msgType = lucpMtypUploadRequest ∧ VersionAccepted cfg f
  | .waitingFtpLoginResult, f => f.msgType = lucpMtypFtpLoginResult ∧ f.status = lucpStatSuccess
  | .waitingFtpDownloadResult, f =>
    f.msgType = lucpMtypFtpDownloadResult ∧ f.status = lucpStatSuccess
  | _, _ => False

/-- What a result does to the state that waits for one of type `msgType`. -/
def resultTarget (msgType : UInt8) (next state : LucpSessionState) (f : LucpFrame) :
    LucpSessionState :=
  if f.msgType = msgType then if f.status = lucpStatSuccess then next else .error else state

/-- What a frame does to a state. -/
def frameTarget (cfg : SessionConfig) (state : LucpSessionState) (f : LucpFrame) :
    LucpSessionState :=
  match state with
  | .init =>
    if f.msgType = lucpMtypUploadRequest then
      if VersionAccepted cfg f then .waitingUploadRequest else .error
    else .init
  | .waitingFtpLoginResult =>
    resultTarget lucpMtypFtpLoginResult .waitingFtpDownloadResult .waitingFtpLoginResult f
  | .waitingFtpDownloadResult =>
    resultTarget lucpMtypFtpDownloadResult .completed .waitingFtpDownloadResult f
  | state => state

variable {cfg : SessionConfig} {t : SessionThread} {e : TurnEnv} {f : LucpFrame}

theorem SessionThread.frameTaken_eq_some : t.frameTaken cfg e = some f ↔
    (e.serverRunning = true ∧ sessionTimedOut cfg t.sess e.now = false ∧
      t.sess.state.receives = true) ∧ t.inbox.head? = some f :=
  Option.ite_none_right_eq_some

/-- What `case LUCP_SESSION_INIT` does with a frame. -/
theorem sessionInit_state (cfg : SessionConfig) (sess : LucpSession) (reply : LucpFrame)
    (now : UInt64) (f : LucpFrame) (hstate : sess.state = .init) :
    (sessionInit cfg sess reply now (some f)).after.state = frameTarget cfg .init f := by
  rw [sessionInit, frameTarget]
  by_cases hreq : f.msgType = lucpMtypUploadRequest
  · rw [if_pos hreq, if_pos hreq]
    by_cases hv : VersionAccepted cfg f
    · rw [if_neg (mt not_versionAccepted_iff.2 (not_not.2 hv)), if_pos hv]
    · rw [if_pos (not_versionAccepted_iff.1 hv), if_neg hv]
  · rw [if_neg hreq, if_neg hreq]
    exact hstate

/-- What the two states that wait for a result do with a frame. -/
theorem sessionWaitingResult_state (msgType : UInt8) (next : LucpSessionState) (sess : LucpSession)
    (now : UInt64) (f : LucpFrame) :
    (sessionWaitingResult msgType next sess now (some f)).after.state
      = resultTarget msgType next sess.state f := by
  rw [sessionWaitingResult, resultTarget]
  by_cases hres : f.msgType = msgType
  · by_cases hs : f.status = lucpStatSuccess <;> simp [SessionTurn.quiet, hres, hs]
  · rw [if_neg hres, if_neg hres]
    rfl

@[simp] theorem SessionThread.apply_sess (t : SessionThread) (turn : SessionTurn) :
    (t.apply turn).sess = turn.after := by
  rw [apply]
  cases turn.send <;> rfl

@[simp] theorem SessionThread.apply_inbox (t : SessionThread) (turn : SessionTurn) :
    (t.apply turn).inbox = t.inbox := by
  rw [apply]
  cases turn.send <;> rfl

theorem SessionThread.receive_cons {fs : List LucpFrame} (h : t.inbox = f :: fs)
    (turn : Option LucpFrame → SessionTurn) :
    t.receive turn = { t with inbox := fs }.apply (turn (some f)) := by
  rw [receive, h]

theorem SessionThread.receive_sess (t : SessionThread) (turn : Option LucpFrame → SessionTurn) :
    (t.receive turn).sess = (turn t.inbox.head?).after := by
  rw [receive]
  cases t.inbox <;> simp

/-- **The frame a turn takes moves the session as the table says.** -/
theorem SessionThread.turn_of_frame (h : t.frameTaken cfg e = some f) :
    (t.turn cfg e).sess.state = frameTarget cfg t.sess.state f := by
  obtain ⟨⟨hserver, htime, hrecv⟩, hhead⟩ := frameTaken_eq_some.1 h
  have hcheck : sessionCheckTimeout cfg t.sess e.now = t.sess := by
    rw [sessionCheckTimeout, htime]; rfl
  rw [turn, if_neg (by rw [hserver]; simp), hcheck]
  dsimp only
  cases hstate : t.sess.state with
  | init =>
    dsimp only
    rw [receive_sess, hhead, sessionInit_state _ _ _ _ _ hstate]
  | waitingFtpLoginResult =>
    dsimp only
    rw [receive_sess, hhead, sessionWaitingFtpLoginResult, sessionWaitingResult_state, hstate,
      frameTarget]
  | waitingFtpDownloadResult =>
    dsimp only
    rw [receive_sess, hhead, sessionWaitingFtpDownloadResult, sessionWaitingResult_state, hstate,
      frameTarget]
  | waitingUploadRequest => rw [hstate] at hrecv; cases hrecv
  | waitingCloudUploadResult => rw [hstate] at hrecv; cases hrecv
  | completed => rw [hstate] at hrecv; cases hrecv
  | error => rw [hstate] at hrecv; cases hrecv

/-- A frame moves the session on exactly if it is the awaited one. -/
theorem frameTarget_advances {state : LucpSessionState} :
    (frameTarget cfg state f ≠ state ∧ frameTarget cfg state f ≠ .error) ↔
      AwaitedBy cfg state f := by
  cases state with
  | init =>
    rw [frameTarget, AwaitedBy]
    by_cases hreq : f.msgType = lucpMtypUploadRequest <;> by_cases hv : VersionAccepted cfg f <;>
      simp [hreq, hv]
  | waitingFtpLoginResult =>
    rw [frameTarget, AwaitedBy, resultTarget]
    by_cases hres : f.msgType = lucpMtypFtpLoginResult <;>
      by_cases hs : f.status = lucpStatSuccess <;> simp [hres, hs]
  | waitingFtpDownloadResult =>
    rw [frameTarget, AwaitedBy, resultTarget]
    by_cases hres : f.msgType = lucpMtypFtpDownloadResult <;>
      by_cases hs : f.status = lucpStatSuccess <;> simp [hres, hs]
  | waitingUploadRequest => simp [frameTarget, AwaitedBy]
  | waitingCloudUploadResult => simp [frameTarget, AwaitedBy]
  | completed => simp [frameTarget, AwaitedBy]
  | error => simp [frameTarget, AwaitedBy]

/-! ## The stored sequence number -/

/-- Has the session accepted a request, and not failed since? -/
def LucpSessionState.accepted : LucpSessionState → Bool
  | .waitingUploadRequest => true
  | .waitingFtpLoginResult => true
  | .waitingFtpDownloadResult => true
  | .completed => true
  | _ => false

/-- The sequence number of the session is that of the first request among the frames. -/
structure SessionThread.Stored (cfg : SessionConfig) (frames : List LucpFrame) (t : SessionThread) :
    Prop where
  init : t.sess.state = .init →
    firstOf lucpMtypUploadRequest t.inbox = firstOf lucpMtypUploadRequest frames
  accepted : t.sess.state.accepted = true → ∃ request rest,
    firstOf lucpMtypUploadRequest frames = some (request, rest) ∧ VersionAccepted cfg request ∧
      t.sess.seqNum = request.seqNum

variable {frames : List LucpFrame}

/-- A session that has failed has nothing stored to speak of. -/
theorem SessionThread.stored_of_error (h : t.sess.state = .error) : t.Stored cfg frames :=
  ⟨fun hinit => (by rw [h] at hinit; cases hinit), fun hacc => (by rw [h] at hacc; cases hacc)⟩

/-- A step that keeps the sequence number and does not go back to the start. -/
theorem SessionThread.Stored.of_seqNum {t' : SessionThread} (h : t.Stored cfg frames)
    (hinit : t'.sess.state ≠ .init)
    (hacc : t'.sess.state.accepted = true → t.sess.state.accepted = true)
    (hseq : t'.sess.seqNum = t.sess.seqNum) : t'.Stored cfg frames :=
  ⟨fun hi => absurd hi hinit, fun ha => by rw [hseq]; exact h.accepted (hacc ha)⟩

/-- Waiting for a request. -/
theorem SessionThread.Stored.receive_init (h : t.Stored cfg frames) (hstate : t.sess.state = .init)
    (reply : LucpFrame) (now : UInt64) :
    (t.receive (sessionInit cfg t.sess reply now)).Stored cfg frames := by
  have hfirst := h.init hstate
  rcases hin : t.inbox with _ | ⟨f, fs⟩
  · rw [receive, hin]
    exact stored_of_error rfl
  rw [receive_cons hin, sessionInit]
  by_cases hreq : f.msgType = lucpMtypUploadRequest
  · rw [if_pos hreq]
    by_cases hv : VersionAccepted cfg f
    · rw [if_neg (mt not_versionAccepted_iff.2 (not_not.2 hv))]
      refine ⟨fun hi => (by cases hi), fun _ => ⟨f, fs, ?_, hv, rfl⟩⟩
      rw [← hfirst, hin, firstOf_cons_of_eq hreq]
    · rw [if_pos (not_versionAccepted_iff.1 hv)]
      exact stored_of_error rfl
  · rw [if_neg hreq, apply_quiet]
    refine ⟨fun _ => ?_, fun hacc => ?_⟩
    · rw [← hfirst, hin, firstOf_cons_of_ne hreq]
    · dsimp only at hacc
      rw [hstate] at hacc
      cases hacc

/-- Waiting for a result. -/
theorem SessionThread.Stored.receive_result (h : t.Stored cfg frames)
    (hstate : t.sess.state.accepted = true) (hinit : t.sess.state ≠ .init) {next : LucpSessionState}
    (hnext : next ≠ .init) (msgType : UInt8) (now : UInt64) :
    (t.receive (sessionWaitingResult msgType next t.sess now)).Stored cfg frames := by
  rcases hin : t.inbox with _ | ⟨f, fs⟩
  · rw [receive, hin]
    exact stored_of_error rfl
  rw [receive_cons hin, sessionWaitingResult]
  by_cases hres : f.msgType = msgType
  · rw [if_pos hres, apply_quiet]
    by_cases hs : f.status = lucpStatSuccess
    · rw [if_neg (not_not.2 hs)]
      exact h.of_seqNum hnext (fun _ => hstate) rfl
    · rw [if_pos hs]
      exact stored_of_error rfl
  · rw [if_neg hres, apply_quiet]
    exact h.of_seqNum hinit (fun _ => hstate) rfl

/-- **A turn keeps the stored sequence number.** -/
theorem SessionThread.Stored.turn (h : t.Stored cfg frames) (e : TurnEnv) :
    (t.turn cfg e).Stored cfg frames := by
  rw [SessionThread.turn]
  by_cases hserver : e.serverRunning = false
  · rw [if_pos hserver]
    exact ⟨h.init, h.accepted⟩
  rw [if_neg hserver, sessionCheckTimeout]
  by_cases htime : sessionTimedOut cfg t.sess e.now = true
  · rw [if_pos htime]
    exact stored_of_error rfl
  rw [if_neg htime]
  dsimp only
  cases hstate : t.sess.state with
  | init => exact h.receive_init hstate _ _
  | waitingUploadRequest =>
    refine h.of_seqNum ?_ (fun _ => by rw [hstate]; rfl) ?_
    · rw [apply_sess, sessionWaitingUploadRequest]
      dsimp only
      split <;> simp
    · rw [apply_sess, sessionWaitingUploadRequest]
  | waitingFtpLoginResult =>
    exact h.receive_result (by rw [hstate]; rfl) (by rw [hstate]; simp) (by simp) _ _
  | waitingFtpDownloadResult =>
    exact h.receive_result (by rw [hstate]; rfl) (by rw [hstate]; simp) (by simp) _ _
  | waitingCloudUploadResult => exact ⟨h.init, h.accepted⟩
  | completed => exact ⟨h.init, h.accepted⟩
  | error => exact ⟨h.init, h.accepted⟩

theorem SessionThread.stored_of_run {reply : LucpFrame} {seqNum : UInt32} {now : UInt64}
    {es : List TurnEnv}
    (hrun : (sessionSystem cfg frames).Run (.start reply seqNum now frames) es t) :
    t.Stored cfg frames := by
  refine hrun.invariant (SessionThread.Stored cfg frames)
    ⟨fun _ => rfl, fun hacc => (by cases hacc)⟩ ?_
  rintro t e t' ht ⟨-, rfl⟩
  exact ht.turn e

/-! ## Only frames of the session's own exchange -/

/-- A turn that moves the session towards its end does so for a frame with the stored sequence
number, and ignores the others where a result is waited for. -/
structure OwnExchange (cfg : SessionConfig) (t : SessionThread) (e : TurnEnv) : Prop where
  advances : ∀ f, t.frameTaken cfg e = some f → (t.turn cfg e).sess.state ≠ t.sess.state →
    (t.turn cfg e).sess.state = .waitingFtpDownloadResult ∨
      (t.turn cfg e).sess.state = .completed → f.seqNum = t.sess.seqNum
  ignores : ∀ f, t.frameTaken cfg e = some f → t.sess.state.resultType.isSome = true →
    f.seqNum ≠ t.sess.seqNum → (t.turn cfg e).sess.state = t.sess.state

/-- No result of the type waited for is taken that has another sequence number. -/
def NoForeignResult (cfg : SessionConfig) (t : SessionThread) (e : TurnEnv) : Prop :=
  ∀ f, t.frameTaken cfg e = some f → t.sess.state.resultType = some f.msgType →
    f.seqNum = t.sess.seqNum

/-- A state that waits for a result goes on to another one for a frame of that type, and for no
other frame. -/
theorem frameTarget_of_resultType {state : LucpSessionState} {msgType : UInt8}
    (h : state.resultType = some msgType) :
    frameTarget cfg state f = state ↔ f.msgType ≠ msgType := by
  cases state with
  | waitingFtpLoginResult =>
    cases h
    rw [frameTarget, resultTarget]
    by_cases hres : f.msgType = lucpMtypFtpLoginResult <;>
      by_cases hs : f.status = lucpStatSuccess <;> simp [hres, hs]
  | waitingFtpDownloadResult =>
    cases h
    rw [frameTarget, resultTarget]
    by_cases hres : f.msgType = lucpMtypFtpDownloadResult <;>
      by_cases hs : f.status = lucpStatSuccess <;> simp [hres, hs]
  | init => cases h
  | waitingUploadRequest => cases h
  | waitingCloudUploadResult => cases h
  | completed => cases h
  | error => cases h

/-- The last two states are entered from those that wait for a result. -/
theorem resultType_of_frameTarget {state : LucpSessionState}
    (hmoves : frameTarget cfg state f ≠ state)
    (h : frameTarget cfg state f = .waitingFtpDownloadResult ∨
      frameTarget cfg state f = .completed) : ∃ msgType, state.resultType = some msgType := by
  cases state with
  | waitingFtpLoginResult => exact ⟨_, rfl⟩
  | waitingFtpDownloadResult => exact ⟨_, rfl⟩
  | init =>
    rw [frameTarget] at h
    split at h
    · split at h <;> rcases h with h | h <;> cases h
    · rcases h with h | h <;> cases h
  | waitingUploadRequest => exact absurd rfl hmoves
  | waitingCloudUploadResult => exact absurd rfl hmoves
  | completed => exact absurd rfl hmoves
  | error => exact absurd rfl hmoves

/-- A turn keeps to its own exchange exactly if it takes no result of another one. -/
theorem ownExchange_iff_turn : OwnExchange cfg t e ↔ NoForeignResult cfg t e := by
  constructor
  · intro h f hf hres
    by_contra hseq
    have hsame := h.ignores f hf (by rw [hres]; rfl) hseq
    rw [SessionThread.turn_of_frame hf] at hsame
    exact (frameTarget_of_resultType hres).1 hsame rfl
  · intro h
    refine ⟨fun f hf hmoves hlate => ?_, fun f hf hsome hseq => ?_⟩
    · rw [SessionThread.turn_of_frame hf] at hmoves hlate
      obtain ⟨msgType, hres⟩ := resultType_of_frameTarget hmoves hlate
      have htype := not_not.1 (mt (frameTarget_of_resultType hres).2 hmoves)
      exact h f hf (by rw [hres, htype])
    · obtain ⟨msgType, hres⟩ := Option.isSome_iff_exists.1 hsome
      rw [SessionThread.turn_of_frame hf, frameTarget_of_resultType hres]
      exact fun htype => hseq (h f hf (by rw [hres, htype]))

/-- **Only frames of the session's own exchange advance it, in the runs in which no foreign result
is taken and in no others.**  From the acceptance on, the stored number is that of the first request
the thread was given; and all turns of a run keep to frames with that number if and only if none
takes, while a result is waited for, a result of that type with another number. -/
theorem own_exchange_iff {reply : LucpFrame} {seqNum : UInt32} {now : UInt64} {es : List TurnEnv}
    (hrun : (sessionSystem cfg frames).Run (.start reply seqNum now frames) es t) :
    (t.sess.state.accepted = true → ∃ request rest,
        firstOf lucpMtypUploadRequest frames = some (request, rest) ∧ VersionAccepted cfg request ∧
          t.sess.seqNum = request.seqNum) ∧
      (((sessionSystem cfg frames).restrict (OwnExchange cfg)).Run
          (.start reply seqNum now frames) es t ↔
        ((sessionSystem cfg frames).restrict (NoForeignResult cfg)).Run
          (.start reply seqNum now frames) es t) :=
  ⟨(SessionThread.stored_of_run hrun).accepted,
    System.Run.restrict_congr _ _ (fun _ => True) trivial
      fun _ _ _ _ _ => ⟨trivial, ownExchange_iff_turn⟩⟩

/-- A request and a login result. -/
def requestAndLogin (seqNum loginSeqNum : UInt32) : List LucpFrame :=
  [lucpFrameMake .zero seqNum lucpMtypUploadRequest 0 none 0,
    lucpFrameMake .zero loginSeqNum lucpMtypFtpLoginResult lucpStatSuccess none 0]

/-- The run on them up to the login result. -/
theorem run_requestAndLogin (loginSeqNum : UInt32) (p : SessionThread → Bool)
    (hp : (([⟨true, 1000, 0, 1000⟩, ⟨true, 1000, 0, 1700⟩] : List TurnEnv).foldlM
      (fun t e => if t.running = true then some (t.turn ⟨2000, true⟩ e) else none)
      (.start .zero 0 1000 (requestAndLogin 7 loginSeqNum))).any p = true) :
    ∃ t, (sessionSystem ⟨2000, true⟩ (requestAndLogin 7 loginSeqNum)).Run
      (.start .zero 0 1000 (requestAndLogin 7 loginSeqNum))
      [⟨true, 1000, 0, 1000⟩, ⟨true, 1000, 0, 1700⟩] t ∧ p t = true :=
  System.Run.of_exec _ (fun t e t' h => by
    obtain ⟨hr, h⟩ := Option.ite_none_right_eq_some.1 h
    cases h
    exact ⟨hr, rfl⟩) p _ _ hp

/-- A session that waits for the login result, and the number it has stored. -/
theorem own_exchange_iff_waiting : ∃ request rest,
    firstOf lucpMtypUploadRequest (requestAndLogin 7 7) = some (request, rest) ∧
      request.seqNum = 7 := by
  obtain ⟨t, hrun, hp⟩ := run_requestAndLogin 7
    (fun t => t.sess.state == .waitingFtpLoginResult && t.sess.seqNum == 7) (by decide +kernel)
  simp only [Bool.and_eq_true, beq_iff_eq] at hp
  obtain ⟨request, rest, hfirst, -, hseq⟩ := (own_exchange_iff hrun).1 (by rw [hp.1]; rfl)
  exact ⟨request, rest, hfirst, by rw [← hseq, hp.2]⟩

/-- **A login result of another exchange moves the session on**: the request has number 7, the
result number 8. -/
theorem foreign_result_advances : ∃ es t e f,
    (sessionSystem ⟨2000, true⟩ (requestAndLogin 7 8)).Run
      (.start .zero 0 1000 (requestAndLogin 7 8)) es t ∧
    t.sess.state = .waitingFtpLoginResult ∧ t.sess.seqNum = 7 ∧
    t.frameTaken ⟨2000, true⟩ e = some f ∧ f.seqNum = 8 ∧
    (t.turn ⟨2000, true⟩ e).sess.state = .waitingFtpDownloadResult := by
  obtain ⟨t, hrun, hp⟩ := run_requestAndLogin 8
    (fun t => t.sess.state == .waitingFtpLoginResult && t.sess.seqNum == 7 &&
      (t.frameTaken ⟨2000, true⟩ ⟨true, 1800, 0, 1800⟩).any (·.seqNum == 8) &&
      (t.turn ⟨2000, true⟩ ⟨true, 1800, 0, 1800⟩).sess.state == .waitingFtpDownloadResult)
    (by decide +kernel)
  simp only [Bool.and_eq_true, beq_iff_eq, Option.any_eq_true] at hp
  obtain ⟨⟨⟨hstate, hseq⟩, f, hf, hfseq⟩, hnext⟩ := hp
  exact ⟨_, t, ⟨true, 1800, 0, 1800⟩, f, hrun, hstate, hseq, hf, hfseq, hnext⟩

/-! ## The deadline

The clock is the sequence of what `get_now_ms` gives, and it does not go back.  The frame a turn
takes is handled at `nowAfter`, the time read behind the receive. -/

/-- The runs of the thread under a clock, which is part of the state: what it showed last. -/
def timedSystem (cfg : SessionConfig) (frames : List LucpFrame) :
    System (SessionThread × UInt64) TurnEnv where
  init p := ∃ reply seqNum now, p = (.start reply seqNum now frames, now)
  step p e q := p.1.running = true ∧ p.2 ≤ e.now ∧ e.now ≤ e.nowAfter ∧
    q = (p.1.turn cfg e, e.nowAfter)

/-- At most `session_timeout_ms` have passed since the session was last active. -/
def LucpSession.InTime (cfg : SessionConfig) (sess : LucpSession) (now : UInt64) : Prop :=
  (now.toNat : ℤ) ≤ sess.lastActiveMs.toNat + cfg.sessionTimeoutMs.toInt

/-- A frame that moves the session on, and not into the error state, is handled in time. -/
def NeverExpired (cfg : SessionConfig) (p : SessionThread × UInt64) (e : TurnEnv) : Prop :=
  ∀ f, p.1.frameTaken cfg e = some f → (p.1.turn cfg e).sess.state ≠ p.1.sess.state →
    (p.1.turn cfg e).sess.state ≠ .error → p.1.sess.InTime cfg e.nowAfter

/-- If the turn takes the frame the session waits for, then the receive did not wait for it from
before the deadline to behind it, and the clock has not advanced by 2³¹ ms or more. -/
def PromptReceive (cfg : SessionConfig) (p : SessionThread × UInt64) (e : TurnEnv) : Prop :=
  ∀ f, p.1.frameTaken cfg e = some f → AwaitedBy cfg p.1.sess.state f →
    (p.1.sess.InTime cfg e.now → p.1.sess.InTime cfg e.nowAfter) ∧
      e.now.toNat < p.1.sess.lastActiveMs.toNat + 2 ^ 31

/-- Below 2³¹ ms the cut difference is the difference, and the test of the code is exact. -/
theorem inTime_of_not_timedOut {sess : LucpSession} {now : UInt64} (hle : sess.lastActiveMs ≤ now)
    (hlt : now.toNat < sess.lastActiveMs.toNat + 2 ^ 31)
    (h : sessionTimedOut cfg sess now = false) : sess.InTime cfg now := by
  have hle' : sess.lastActiveMs.toNat ≤ now.toNat := UInt64.le_iff_toNat_le.1 hle
  have hsub : (now - sess.lastActiveMs).toNat = now.toNat - sess.lastActiveMs.toNat :=
    UInt64.toNat_sub_of_le _ _ hle
  have hcut : (now - sess.lastActiveMs).toUInt32.toNat = now.toNat - sess.lastActiveMs.toNat := by
    rw [UInt64.toNat_toUInt32, hsub]
    exact Nat.mod_eq_of_lt (by omega)
  have hint : (now - sess.lastActiveMs).toUInt32.toInt32.toInt
      = ((now.toNat - sess.lastActiveMs.toNat : ℕ) : ℤ) := by
    show (now - sess.lastActiveMs).toUInt32.toBitVec.toInt = _
    have htoNat : (now - sess.lastActiveMs).toUInt32.toBitVec.toNat
        = now.toNat - sess.lastActiveMs.toNat := hcut
    rw [BitVec.toInt_eq_toNat_of_lt (by rw [htoNat]; omega), htoNat]
  rw [sessionTimedOut, decide_eq_false_iff_not, Int32.lt_iff_toInt_lt, hint] at h
  rw [LucpSession.InTime]
  omega

theorem sessionInit_lastActive (sess : LucpSession) (reply : LucpFrame) (now : UInt64)
    (frame : Option LucpFrame) :
    (sessionInit cfg sess reply now frame).after.lastActiveMs = sess.lastActiveMs ∨
      (sessionInit cfg sess reply now frame).after.lastActiveMs = now := by
  cases frame with
  | none => exact .inl rfl
  | some f =>
    rw [sessionInit]
    split
    · split
      · exact .inl rfl
      · exact .inr rfl
    · exact .inl rfl

theorem sessionWaitingResult_lastActive (msgType : UInt8) (next : LucpSessionState)
    (sess : LucpSession) (now : UInt64) (frame : Option LucpFrame) :
    (sessionWaitingResult msgType next sess now frame).after.lastActiveMs = sess.lastActiveMs ∨
      (sessionWaitingResult msgType next sess now frame).after.lastActiveMs = now := by
  cases frame with
  | none => exact .inl rfl
  | some f =>
    rw [sessionWaitingResult]
    split
    · exact .inr rfl
    · exact .inl rfl

/-- After a turn the session was last active when it was before, or just now. -/
theorem SessionThread.lastActive_turn (cfg : SessionConfig) (t : SessionThread) (e : TurnEnv) :
    (t.turn cfg e).sess.lastActiveMs = t.sess.lastActiveMs ∨
      (t.turn cfg e).sess.lastActiveMs = e.nowAfter := by
  have hcheck : (sessionCheckTimeout cfg t.sess e.now).lastActiveMs = t.sess.lastActiveMs := by
    rw [sessionCheckTimeout]
    split <;> rfl
  rw [turn]
  split
  · exact .inl rfl
  · dsimp only
    split
    · rw [receive_sess, ← hcheck]
      exact sessionInit_lastActive _ _ _ _
    · rw [apply_sess]
      exact .inr rfl
    · rw [receive_sess, ← hcheck]
      exact sessionWaitingResult_lastActive _ _ _ _ _
    · rw [receive_sess, ← hcheck]
      exact sessionWaitingResult_lastActive _ _ _ _ _
    · exact .inl hcheck
    · exact .inl hcheck
    · exact .inl hcheck

/-- The session was last active at a time the clock has shown. -/
theorem lastActive_timed_step {p q : SessionThread × UInt64}
    (h : p.1.sess.lastActiveMs ≤ p.2) (hs : (timedSystem cfg frames).step p e q) :
    q.1.sess.lastActiveMs ≤ q.2 := by
  obtain ⟨-, hclock, hnow, rfl⟩ := hs
  rcases SessionThread.lastActive_turn cfg p.1 e with heq | heq
  · rw [heq]
    exact UInt64.le_trans h (UInt64.le_trans hclock hnow)
  · rw [heq]
    exact UInt64.le_refl _

/-- One turn under the clock: a frame is never too late exactly if the receive is prompt. -/
theorem neverExpired_iff_step (hcfg : 0 ≤ cfg.sessionTimeoutMs.toInt)
    {p q : SessionThread × UInt64} (h : p.1.sess.lastActiveMs ≤ p.2)
    (hs : (timedSystem cfg frames).step p e q) : NeverExpired cfg p e ↔ PromptReceive cfg p e := by
  obtain ⟨-, hclock, hnow, -⟩ := hs
  have hle := UInt64.le_trans h hclock
  have hmax := cfg.sessionTimeoutMs.toInt_lt
  have hnow' := UInt64.le_iff_toNat_le.1 hnow
  constructor
  · intro hin f hf hawaited
    obtain ⟨hmoves, hfine⟩ := frameTarget_advances.2 hawaited
    rw [← SessionThread.turn_of_frame hf] at hmoves hfine
    have hafter := hin f hf hmoves hfine
    refine ⟨fun _ => hafter, ?_⟩
    rw [LucpSession.InTime] at hafter
    omega
  · intro hprompt f hf hmoves hfine
    rw [SessionThread.turn_of_frame hf] at hmoves hfine
    obtain ⟨hwaits, hlt⟩ := hprompt f hf (frameTarget_advances.1 ⟨hmoves, hfine⟩)
    have htest := (SessionThread.frameTaken_eq_some.1 hf).1.2.1
    exact hwaits (inTime_of_not_timedOut hle hlt htest)

/-- **An expired session never advances in the timed runs whose receives are prompt, and in no
others.**  For every timeout that is not negative and every clock that does not go back: the frames
that move the session on are all handled in time if and only if no awaited frame is delivered by a
receive that was begun before the deadline and ended behind it, and none 2³¹ ms or more after the
session was last active. -/
theorem expired_never_advances_iff (hcfg : 0 ≤ cfg.sessionTimeoutMs.toInt) {reply : LucpFrame}
    {seqNum : UInt32} {now : UInt64} {es : List TurnEnv} {p : SessionThread × UInt64} :
    ((timedSystem cfg frames).restrict (NeverExpired cfg)).Run
        (.start reply seqNum now frames, now) es p ↔
      ((timedSystem cfg frames).restrict (PromptReceive cfg)).Run
        (.start reply seqNum now frames, now) es p :=
  System.Run.restrict_congr _ _ (fun p => p.1.sess.lastActiveMs ≤ p.2) (UInt64.le_refl now)
    fun _ _ _ h hs => ⟨lastActive_timed_step h hs, neverExpired_iff_step hcfg h hs⟩

/-- A request that comes half a second after the session was started, with a timeout of two. -/
theorem expired_never_advances_iff_prompt : ∃ p,
    ((timedSystem ⟨2000, true⟩ (requestAndLogin 7 7)).restrict (NeverExpired ⟨2000, true⟩)).Run
      (.start .zero 0 1000 (requestAndLogin 7 7), 1000) [⟨true, 1200, 0, 1500⟩] p := by
  refine ⟨_, (expired_never_advances_iff (by decide)).2 (.single ⟨?_, rfl, ?_, ?_, rfl⟩)⟩
  · intro f _ _
    exact ⟨fun _ => by unfold LucpSession.InTime; decide, by decide⟩
  · decide
  · decide

/-- **A request is accepted eight seconds after the session was last active**, with a timeout of
two: the receive was begun in time and waited for it. -/
theorem late_request_advances : ∃ p e f,
    (timedSystem ⟨2000, true⟩ (requestAndLogin 7 7)).Reachable p ∧ p.1.running = true ∧
    p.2 ≤ e.now ∧ e.now ≤ e.nowAfter ∧ p.1.frameTaken ⟨2000, true⟩ e = some f ∧
    p.1.sess.state = .init ∧ (p.1.turn ⟨2000, true⟩ e).sess.state = .waitingUploadRequest ∧
    ¬ p.1.sess.InTime ⟨2000, true⟩ e.nowAfter :=
  ⟨(.start .zero 0 1000 (requestAndLogin 7 7), 1000), ⟨true, 1000, 0, 9000⟩, _,
    .of_init ⟨_, _, _, rfl⟩, rfl, by decide, by decide, rfl, rfl, by decide +kernel,
    by unfold LucpSession.InTime; decide⟩

end Lucp
