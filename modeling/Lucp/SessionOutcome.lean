import Lucp.Session

/-!
# How a session ends, and what it sends

The outcome of a session is a function of the frames it is given.  `Completes` and `sessionReplies`
say which function, in terms of the first frame of a type and the frames behind it, and without a
state; `session_outcome` says that the thread computes it.

The proof carries one quantity through the run: `sessionOutlook`, the state the session is bound to
end in when it stands in a given state with a given list of frames before it, and `sessionOwed`,
what it has yet to send.  A turn moves the session along and leaves both as they were
(`SessionThread.outlook_turn`).
-/

set_option autoImplicit false

namespace Lucp

/-! ## The outcome in terms of the frames -/

/-- The first frame of a type, and the frames behind it. -/
def firstOf (msgType : UInt8) : List LucpFrame → Option (LucpFrame × List LucpFrame)
  | [] => none
  | f :: fs => if f.msgType = msgType then some (f, fs) else firstOf msgType fs

theorem firstOf_cons_of_eq {msgType : UInt8} {f : LucpFrame} (h : f.msgType = msgType)
    (fs : List LucpFrame) : firstOf msgType (f :: fs) = some (f, fs) := if_pos h

theorem firstOf_cons_of_ne {msgType : UInt8} {f : LucpFrame} (h : f.msgType ≠ msgType)
    (fs : List LucpFrame) : firstOf msgType (f :: fs) = firstOf msgType fs := if_neg h

/-- Does the server speak the version of the request? -/
def VersionAccepted (cfg : SessionConfig) (request : LucpFrame) : Prop :=
  cfg.validateVersion = false ∨ request.versionMajor = lucpVerMajor

instance (cfg : SessionConfig) (request : LucpFrame) : Decidable (VersionAccepted cfg request) :=
  inferInstanceAs (Decidable (_ ∨ _))

/-- The test of the code. -/
theorem not_versionAccepted_iff {cfg : SessionConfig} {request : LucpFrame} :
    ¬ VersionAccepted cfg request ↔
      cfg.validateVersion = true ∧ request.versionMajor ≠ lucpVerMajor := by
  rw [VersionAccepted, not_or, Bool.not_eq_false]

/-- A request that is accepted, a preparation that succeeds, and then the first login result and the
first download result behind it both good. -/
def Completes (cfg : SessionConfig) (prep : UInt8 × Bytes) (frames : List LucpFrame) : Prop :=
  ∃ request rest login rest' download rest'',
    firstOf lucpMtypUploadRequest frames = some (request, rest) ∧
    VersionAccepted cfg request ∧ prep.1 = lucpStatSuccess ∧
    firstOf lucpMtypFtpLoginResult rest = some (login, rest') ∧ login.status = lucpStatSuccess ∧
    firstOf lucpMtypFtpDownloadResult rest' = some (download, rest'') ∧
    download.status = lucpStatSuccess

/-- What the server sends. -/
def sessionReplies (cfg : SessionConfig) (prep : UInt8 × Bytes) (frames : List LucpFrame) :
    List Msg :=
  match firstOf lucpMtypUploadRequest frames with
  | none => []
  | some (request, _) =>
    if VersionAccepted cfg request then [ackAccepted request.seqNum, notifyDone request.seqNum prep]
    else [ackRejected request.seqNum]

/-! ## The outlook of a session -/

/-- The state a session waiting for a result is bound to end in: `next` says how it goes on behind a
good one. -/
def resultOutlook (msgType : UInt8) (next : List LucpFrame → LucpSessionState)
    (frames : List LucpFrame) : LucpSessionState :=
  match firstOf msgType frames with
  | none => .error
  | some (f, rest) => if f.status = lucpStatSuccess then next rest else .error

/-- Waiting for the download result. -/
def downloadOutlook : List LucpFrame → LucpSessionState :=
  resultOutlook lucpMtypFtpDownloadResult fun _ => .completed

/-- Waiting for the login result. -/
def loginOutlook : List LucpFrame → LucpSessionState :=
  resultOutlook lucpMtypFtpLoginResult downloadOutlook

/-- About to prepare the log. -/
def prepOutlook (prep : UInt8 × Bytes) (frames : List LucpFrame) : LucpSessionState :=
  if prep.1 = lucpStatSuccess then loginOutlook frames else .error

/-- Waiting for a request. -/
def initOutlook (cfg : SessionConfig) (prep : UInt8 × Bytes) (frames : List LucpFrame) :
    LucpSessionState :=
  match firstOf lucpMtypUploadRequest frames with
  | none => .error
  | some (request, rest) => if VersionAccepted cfg request then prepOutlook prep rest else .error

/-- The state a session is bound to end in. -/
def sessionOutlook (cfg : SessionConfig) (prep : UInt8 × Bytes) (frames : List LucpFrame) :
    LucpSessionState → LucpSessionState
  | .init => initOutlook cfg prep frames
  | .waitingUploadRequest => prepOutlook prep frames
  | .waitingFtpLoginResult => loginOutlook frames
  | .waitingFtpDownloadResult => downloadOutlook frames
  | .waitingCloudUploadResult => .waitingCloudUploadResult
  | .completed => .completed
  | .error => .error

/-- What a session has yet to send. -/
def sessionOwed (cfg : SessionConfig) (prep : UInt8 × Bytes) (frames : List LucpFrame)
    (sess : LucpSession) : List Msg :=
  match sess.state with
  | .init => sessionReplies cfg prep frames
  | .waitingUploadRequest => [notifyDone sess.seqNum prep]
  | _ => []

theorem resultOutlook_eq_completed {msgType : UInt8} {next : List LucpFrame → LucpSessionState}
    {frames : List LucpFrame} : resultOutlook msgType next frames = .completed ↔
      ∃ f rest, firstOf msgType frames = some (f, rest) ∧ f.status = lucpStatSuccess ∧
        next rest = .completed := by
  rw [resultOutlook]
  cases h : firstOf msgType frames with
  | none => simp
  | some p =>
    obtain ⟨f, rest⟩ := p
    by_cases hs : f.status = lucpStatSuccess <;> simp [hs]

/-- The outlook of a fresh session is the outcome in terms of its frames. -/
theorem initOutlook_eq_completed {cfg : SessionConfig} {prep : UInt8 × Bytes}
    {frames : List LucpFrame} :
    initOutlook cfg prep frames = .completed ↔ Completes cfg prep frames := by
  rw [initOutlook, Completes]
  cases h : firstOf lucpMtypUploadRequest frames with
  | none => simp
  | some p =>
    obtain ⟨request, rest⟩ := p
    by_cases hv : VersionAccepted cfg request <;> by_cases hp : prep.1 = lucpStatSuccess <;>
      simp [hv, hp, prepOutlook, loginOutlook, downloadOutlook, resultOutlook_eq_completed]

theorem resultOutlook_final (msgType : UInt8) {next : List LucpFrame → LucpSessionState}
    (hnext : ∀ rest, next rest = .completed ∨ next rest = .error) (frames : List LucpFrame) :
    resultOutlook msgType next frames = .completed ∨
      resultOutlook msgType next frames = .error := by
  rw [resultOutlook]
  cases firstOf msgType frames with
  | none => exact .inr rfl
  | some p =>
    dsimp only
    split
    · exact hnext _
    · exact .inr rfl

theorem initOutlook_final (cfg : SessionConfig) (prep : UInt8 × Bytes) (frames : List LucpFrame) :
    initOutlook cfg prep frames = .completed ∨ initOutlook cfg prep frames = .error := by
  have hlogin := resultOutlook_final lucpMtypFtpLoginResult
    (resultOutlook_final lucpMtypFtpDownloadResult fun _ => .inl rfl)
  rw [initOutlook]
  cases firstOf lucpMtypUploadRequest frames with
  | none => exact .inr rfl
  | some p =>
    dsimp only
    split
    · rw [prepOutlook]
      split
      · exact hlogin _
      · exact .inr rfl
    · exact .inr rfl

/-! ## One turn -/

/-- A turn in which the flag is set, the deadline is kept, and a log preparation, if it is this turn
that makes one, comes out as `prep`. -/
structure Undisturbed (cfg : SessionConfig) (prep : UInt8 × Bytes) (t : SessionThread)
    (e : TurnEnv) : Prop where
  serverRunning : e.serverRunning = true
  inTime : sessionTimedOut cfg t.sess e.now = false
  prepares : t.sess.state = .waitingUploadRequest → logPreparation e.rand = prep

instance (cfg : SessionConfig) (prep : UInt8 × Bytes) (t : SessionThread) (e : TurnEnv) :
    Decidable (Undisturbed cfg prep t e) :=
  decidable_of_iff (e.serverRunning = true ∧ sessionTimedOut cfg t.sess e.now = false ∧
      (t.sess.state = .waitingUploadRequest → logPreparation e.rand = prep))
    ⟨fun ⟨h1, h2, h3⟩ => ⟨h1, h2, h3⟩, fun ⟨h1, h2, h3⟩ => ⟨h1, h2, h3⟩⟩

/-- A bound for the turns still to come. -/
def SessionThread.rank (t : SessionThread) : ℕ :=
  if t.running = true then
    match t.sess.state with
    | .init => t.inbox.length + 3
    | .waitingUploadRequest => t.inbox.length + 3
    | .waitingFtpLoginResult => t.inbox.length + 2
    | .waitingFtpDownloadResult => t.inbox.length + 2
    | _ => 1
  else 0

/-- From `t` the thread has come to `t'`: nearer to its end, and bound for the same one. -/
structure SessionThread.Advances (cfg : SessionConfig) (prep : UInt8 × Bytes)
    (t t' : SessionThread) : Prop where
  outlook : sessionOutlook cfg prep t'.inbox t'.sess.state
    = sessionOutlook cfg prep t.inbox t.sess.state
  sent : t'.sent ++ sessionOwed cfg prep t'.inbox t'.sess
    = t.sent ++ sessionOwed cfg prep t.inbox t.sess
  rank : t'.rank < t.rank
  stopped : t'.running = false → sessionOutlook cfg prep t'.inbox t'.sess.state = t'.sess.state ∧
    sessionOwed cfg prep t'.inbox t'.sess = []

variable {cfg : SessionConfig} {prep : UInt8 × Bytes} {t : SessionThread}

/-- Waiting for a request. -/
theorem SessionThread.advances_init (hrun : t.running = true) (hstate : t.sess.state = .init)
    (now : UInt64) : t.Advances cfg prep (t.receive (sessionInit cfg t.sess t.reply now)) := by
  have hgoes : ∀ b : Prop, t.running = false → b := fun _ h => absurd (hrun.symm.trans h) (by simp)
  rcases hin : t.inbox with _ | ⟨f, fs⟩
  · -- the connection is at its end, and there was no request
    rw [receive, hin]
    refine ⟨?_, ?_, ?_, hgoes _⟩
    · rw [hin, hstate]; rfl
    · simp [apply, sessionInit, SessionTurn.quiet, sessionOwed, hin, hstate, sessionReplies,
        firstOf]
    · simp [rank, apply, sessionInit, SessionTurn.quiet, hrun, hstate, hin]
  rw [receive, hin]
  dsimp only
  rw [sessionInit]
  by_cases hreq : f.msgType = lucpMtypUploadRequest
  · have hfirst := firstOf_cons_of_eq hreq fs
    rw [if_pos hreq]
    by_cases hv : VersionAccepted cfg f
    · rw [if_neg (mt not_versionAccepted_iff.2 (not_not.2 hv))]
      refine ⟨?_, ?_, ?_, hgoes _⟩
      · simp [apply, sessionOutlook, initOutlook, hin, hstate, hfirst, hv]
      · simp [apply, sessionOwed, hin, hstate, sessionReplies, hfirst, hv, ackAccepted_eq]
      · simp [rank, apply, hrun, hstate, hin]
    · rw [if_pos (not_versionAccepted_iff.1 hv)]
      refine ⟨?_, ?_, ?_, hgoes _⟩
      · simp [apply, sessionOutlook, initOutlook, hin, hstate, hfirst, hv]
      · simp [apply, sessionOwed, hin, hstate, sessionReplies, hfirst, hv, ackRejected_eq]
      · simp [rank, apply, hrun, hstate, hin]
  · have hfirst := firstOf_cons_of_ne hreq fs
    rw [if_neg hreq]
    refine ⟨?_, ?_, ?_, hgoes _⟩
    · simp [apply, SessionTurn.quiet, sessionOutlook, initOutlook, hin, hstate, hfirst]
    · simp [apply, SessionTurn.quiet, sessionOwed, hin, hstate, sessionReplies, hfirst]
    · simp [rank, apply, SessionTurn.quiet, hrun, hstate, hin]

/-- Preparing the log. -/
theorem SessionThread.advances_prep (hrun : t.running = true)
    (hstate : t.sess.state = .waitingUploadRequest) {rand : ℕ} (hprep : logPreparation rand = prep)
    (now : UInt64) :
    t.Advances cfg prep (t.apply (sessionWaitingUploadRequest t.sess t.reply rand now)) := by
  subst hprep
  refine ⟨?_, ?_, ?_, fun h => absurd (hrun.symm.trans h) (by simp)⟩
  · by_cases hp : (logPreparation rand).1 = lucpStatSuccess <;>
      simp [apply, sessionWaitingUploadRequest, sessionOutlook, hstate, prepOutlook, hp]
  · have hmsg := notifyDone_eq t.reply t.sess.seqNum rand
    by_cases hp : (logPreparation rand).1 = lucpStatSuccess
    · rw [hp] at hmsg
      simp [apply, sessionWaitingUploadRequest, sessionOwed, hstate, hp, hmsg]
    · simp [apply, sessionWaitingUploadRequest, sessionOwed, hstate, hp, hmsg]
  · by_cases hp : (logPreparation rand).1 = lucpStatSuccess <;>
      simp [rank, apply, sessionWaitingUploadRequest, hrun, hstate, hp]

theorem sessionOwed_eq_nil {sess : LucpSession} (hi : sess.state ≠ .init)
    (hu : sess.state ≠ .waitingUploadRequest) (frames : List LucpFrame) :
    sessionOwed cfg prep frames sess = [] := by
  rw [sessionOwed]
  split
  · next h => exact absurd h hi
  · next h => exact absurd h hu
  · rfl

theorem SessionThread.rank_le (hi : t.sess.state ≠ .init)
    (hu : t.sess.state ≠ .waitingUploadRequest) : t.rank ≤ t.inbox.length + 2 := by
  rw [rank]
  split
  · split
    · next h => exact absurd h hi
    · next h => exact absurd h hu
    · exact Nat.le_refl _
    · exact Nat.le_refl _
    · omega
  · omega

/-- Once the log is prepared, a turn that only moves the session along. -/
theorem SessionThread.advances_quiet (hrun : t.running = true) {sess : LucpSession}
    {inbox : List LucpFrame}
    (hstate : t.sess.state = .waitingFtpLoginResult ∨ t.sess.state = .waitingFtpDownloadResult)
    (hi : sess.state ≠ .init) (hu : sess.state ≠ .waitingUploadRequest)
    (hless : inbox.length < t.inbox.length ∨ inbox = t.inbox ∧ sess.state = .error)
    (houtlook : sessionOutlook cfg prep inbox sess.state
      = sessionOutlook cfg prep t.inbox t.sess.state) :
    t.Advances cfg prep { t with sess := sess, inbox := inbox } := by
  have hrank : t.rank = t.inbox.length + 2 := by
    rcases hstate with h | h <;> simp [rank, hrun, h]
  refine ⟨houtlook, ?_, ?_, fun h => absurd (hrun.symm.trans h) (by simp)⟩
  · rw [sessionOwed_eq_nil hi hu, sessionOwed_eq_nil]
    · rcases hstate with h | h <;> simp [h]
    · rcases hstate with h | h <;> simp [h]
  · rcases hless with hlt | ⟨-, herr⟩
    · have := rank_le (t := { t with sess := sess, inbox := inbox }) hi hu
      dsimp only at this
      omega
    · rw [hrank]
      simp only [rank, herr]
      split <;> omega

/-- Waiting for a result of the client. -/
theorem SessionThread.advances_result (hrun : t.running = true) {msgType : UInt8}
    {next : LucpSessionState} {nextOutlook : List LucpFrame → LucpSessionState}
    (hstate : t.sess.state = .waitingFtpLoginResult ∨ t.sess.state = .waitingFtpDownloadResult)
    (hi : next ≠ .init) (hu : next ≠ .waitingUploadRequest)
    (houtlook : ∀ fs,
      sessionOutlook cfg prep fs t.sess.state = resultOutlook msgType nextOutlook fs)
    (hnext : ∀ fs, sessionOutlook cfg prep fs next = nextOutlook fs) (now : UInt64) :
    t.Advances cfg prep (t.receive (sessionWaitingResult msgType next t.sess now)) := by
  have hwait : t.sess.state ≠ .init ∧ t.sess.state ≠ .waitingUploadRequest := by
    rcases hstate with h | h <;> simp [h]
  rcases hin : t.inbox with _ | ⟨f, fs⟩
  · -- the connection is at its end, and the result has not come
    rw [receive, hin]
    dsimp only
    rw [sessionWaitingResult, apply_quiet]
    refine advances_quiet hrun hstate (by simp) (by simp) (.inr ⟨rfl, rfl⟩) ?_
    rw [houtlook, hin]; rfl
  rw [receive, hin]
  dsimp only
  rw [sessionWaitingResult]
  have hlt : fs.length < t.inbox.length := by rw [hin, List.length_cons]; omega
  by_cases hres : f.msgType = msgType
  · have hfirst := firstOf_cons_of_eq hres fs
    rw [if_pos hres]
    by_cases hs : f.status = lucpStatSuccess
    · rw [if_neg (not_not.2 hs), apply_quiet]
      refine advances_quiet hrun hstate hi hu (.inl hlt) ?_
      rw [houtlook, hin, hnext, resultOutlook, hfirst]
      simp [hs]
    · rw [if_pos hs, apply_quiet]
      refine advances_quiet hrun hstate (by simp) (by simp) (.inl hlt) ?_
      rw [houtlook, hin, resultOutlook, hfirst]
      simp [hs, sessionOutlook]
  · rw [if_neg hres, apply_quiet]
    refine advances_quiet hrun hstate hwait.1 hwait.2 (.inl hlt) ?_
    rw [houtlook, houtlook, hin, resultOutlook, resultOutlook, firstOf_cons_of_ne hres]

/-- **A turn brings the session nearer to its end and leaves its outlook as it was.** -/
theorem SessionThread.advances_turn {e : TurnEnv} (hrun : t.running = true)
    (h : Undisturbed cfg prep t e) : t.Advances cfg prep (t.turn cfg e) := by
  have hcheck : sessionCheckTimeout cfg t.sess e.now = t.sess := by
    rw [sessionCheckTimeout, h.inTime]; rfl
  rw [turn, if_neg (by rw [h.serverRunning]; simp), hcheck]
  have hends : ∀ state, t.sess.state = state → (∀ fs, sessionOutlook cfg prep fs state = state) →
      (∀ fs, sessionOwed cfg prep fs t.sess = []) → 0 < t.rank →
      t.Advances cfg prep { t with sess := t.sess, running := false } :=
    fun state hstate hout howed hrank =>
      ⟨rfl, rfl, by simpa [rank] using hrank, fun _ => ⟨by rw [hstate]; exact hout _, howed _⟩⟩
  dsimp only
  cases hstate : t.sess.state with
  | init => exact advances_init hrun hstate e.nowAfter
  | waitingUploadRequest => exact advances_prep hrun hstate (h.prepares hstate) e.nowAfter
  | waitingFtpLoginResult =>
    exact advances_result hrun (.inl hstate) (by simp) (by simp) (fun _ => by rw [hstate]; rfl)
      (fun _ => rfl) e.nowAfter
  | waitingFtpDownloadResult =>
    exact advances_result hrun (.inr hstate) (by simp) (by simp) (fun _ => by rw [hstate]; rfl)
      (fun _ => rfl) e.nowAfter
  | waitingCloudUploadResult =>
    exact hends _ hstate (fun _ => rfl) (fun _ => by rw [sessionOwed, hstate]) (by simp [rank, *])
  | completed =>
    exact hends _ hstate (fun _ => rfl) (fun _ => by rw [sessionOwed, hstate]) (by simp [rank, *])
  | error =>
    exact hends _ hstate (fun _ => rfl) (fun _ => by rw [sessionOwed, hstate]) (by simp [rank, *])

/-! ## A whole session -/

/-- The invariant of an undisturbed run that has taken `n` turns. -/
structure SessionThread.OnCourse (cfg : SessionConfig) (prep : UInt8 × Bytes)
    (frames : List LucpFrame) (n : ℕ) (t : SessionThread) : Prop where
  outlook : sessionOutlook cfg prep t.inbox t.sess.state = initOutlook cfg prep frames
  sent : t.sent ++ sessionOwed cfg prep t.inbox t.sess = sessionReplies cfg prep frames
  rank : n + t.rank ≤ frames.length + 3
  stopped : t.running = false → sessionOutlook cfg prep t.inbox t.sess.state = t.sess.state ∧
    sessionOwed cfg prep t.inbox t.sess = []

theorem SessionThread.onCourse_of_run {frames : List LucpFrame} {reply : LucpFrame}
    {seqNum : UInt32} {now : UInt64} {es : List TurnEnv}
    (hrun : ((sessionSystem cfg frames).restrict (Undisturbed cfg prep)).Run
      (.start reply seqNum now frames) es t) : t.OnCourse cfg prep frames es.length := by
  refine hrun.invariant_of (fun _ _ => True) (fun es t => t.OnCourse cfg prep frames es.length)
    ⟨rfl, rfl, by simp [SessionThread.rank, start], fun h => by cases h⟩ ?_
    fun _ _ _ _ _ _ => trivial
  rintro fs t e t' - ht - ⟨hQ, hrunning, rfl⟩
  have hadv := advances_turn hrunning hQ
  have hrank := hadv.rank
  have hle := ht.rank
  refine ⟨hadv.outlook.trans ht.outlook, hadv.sent.trans ht.sent, ?_, hadv.stopped⟩
  rw [List.length_append, List.length_singleton]
  omega

/-- **The outcome of a session is a function of the frames it is given.**  For every list of frames,
every setting of the version check and every outcome of the log preparation: an undisturbed run ends
after at most as many turns as there are frames and three more; it then stands in `completed` if the
frames complete a session, and in `error` if they do not, and it has sent just the replies that
belong to them.  While it runs, what it has sent is the beginning of that. -/
theorem session_outcome {frames : List LucpFrame} {reply : LucpFrame} {seqNum : UInt32}
    {now : UInt64} {rand : ℕ} {es : List TurnEnv}
    (hrun : ((sessionSystem cfg frames).restrict (Undisturbed cfg (logPreparation rand))).Run
      (.start reply seqNum now frames) es t) :
    (frames.length + 3 ≤ es.length → t.running = false) ∧
      t.sent <+: sessionReplies cfg (logPreparation rand) frames ∧
      (t.running = false →
        (t.sess.state = .completed ↔ Completes cfg (logPreparation rand) frames) ∧
        (t.sess.state = .error ↔ ¬ Completes cfg (logPreparation rand) frames) ∧
        t.sent = sessionReplies cfg (logPreparation rand) frames) := by
  have hcourse := SessionThread.onCourse_of_run hrun
  refine ⟨fun hlen => ?_, ⟨_, hcourse.sent⟩, fun hend => ?_⟩
  · have hrank : t.rank = 0 := by
      have := hcourse.rank
      omega
    cases hr : t.running with
    | false => rfl
    | true =>
      rw [SessionThread.rank, if_pos hr] at hrank
      split at hrank <;> omega
  · obtain ⟨hout, howed⟩ := hcourse.stopped hend
    have hstate : t.sess.state = initOutlook cfg (logPreparation rand) frames :=
      hout.symm.trans hcourse.outlook
    have hsent := hcourse.sent
    rw [howed, List.append_nil] at hsent
    rw [hstate, ← initOutlook_eq_completed]
    refine ⟨Iff.rfl, ?_, hsent⟩
    rcases initOutlook_final cfg (logPreparation rand) frames with h | h <;> simp [h]

/-- A request, the same request again, and two good results; the thread then leaves its loop. -/
theorem session_outcome_completed : Completes ⟨2000, true⟩ (logPreparation 3)
    [lucpFrameMake .zero 7 lucpMtypUploadRequest 0 none 0,
      lucpFrameMake .zero 7 lucpMtypUploadRequest 0 none 0,
      lucpFrameMake .zero 7 lucpMtypFtpLoginResult lucpStatSuccess none 0,
      lucpFrameMake .zero 7 lucpMtypFtpDownloadResult lucpStatSuccess none 0] := by
  obtain ⟨t, hrun, hend⟩ := System.Run.of_exec
    (S := (sessionSystem ⟨2000, true⟩ _).restrict (Undisturbed ⟨2000, true⟩ (logPreparation 3)))
    (fun t e => if Undisturbed ⟨2000, true⟩ (logPreparation 3) t e ∧ t.running = true then
      some (t.turn ⟨2000, true⟩ e) else none)
    (fun t e t' h => by
      obtain ⟨⟨hQ, hr⟩, h⟩ := Option.ite_none_right_eq_some.1 h
      cases h
      exact ⟨hQ, hr, rfl⟩)
    (fun t => decide (t.running = false ∧ t.sess.state = .completed))
    (.start .zero 0 1000
      [lucpFrameMake .zero 7 lucpMtypUploadRequest 0 none 0,
        lucpFrameMake .zero 7 lucpMtypUploadRequest 0 none 0,
        lucpFrameMake .zero 7 lucpMtypFtpLoginResult lucpStatSuccess none 0,
        lucpFrameMake .zero 7 lucpMtypFtpDownloadResult lucpStatSuccess none 0])
    (List.replicate 6 ⟨true, 1500, 3, 1500⟩) (by decide +kernel)
  obtain ⟨hstopped, hstate⟩ := of_decide_eq_true hend
  exact ((session_outcome hrun).2.2 hstopped).1.1 hstate

end Lucp
