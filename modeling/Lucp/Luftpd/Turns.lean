import Lucp.Luftpd.Session

/-!
# The turns of a session

Between two commands a client thread stands at the head of its loop.  `Awaits cfg c` says that a
session can get there with the record `c`, whatever the operating system answers, and what a session
does from there to the next time is a run of the script `luftpdServe`.

## What is here

* `clientSession cfg` — a client thread whose record nobody else touches, without any assumption on
  the answers of the operating system.
* `Awaits.turn` — a run of `luftpdServe` is part of a session.
* `serving_cases` — **a session consists of such turns**: in the middle of a turn it has made the
  first calls of the greeting, or of a turn that began at the head of the loop.
* `Awaits.invariant` — what every turn keeps holds at the head of the loop.
* `serve_runs_iff` — a turn sees that the client is gone, or receives nothing, or handles a command.
-/

set_option autoImplicit false

namespace Lucp.Luftpd

/-- A call of a client thread. -/
abbrev ClientEntry := Script.Entry LuftpdClient OsAnswer ClientOp

/-- The calls of a part of a client thread. -/
abbrev ClientTrace := List ClientEntry

/-- The runs of a session. -/
def clientSession (cfg : LuftpdConfig) : System FtpSession OsAnswer where
  init s := ∃ sock threadId, 0 ≤ sock ∧ s = ⟨newClient sock threadId, .serving luftpdWelcome⟩
  step s os s' := s.pc.running = true ∧
    s' = ⟨(s.pc.advance cfg s.client os).1, (s.pc.advance cfg s.client os).2⟩

/-- A session can be at the head of its loop with this record. -/
def Awaits (cfg : LuftpdConfig) (c : LuftpdClient) : Prop :=
  (clientSession cfg).Reachable ⟨c, .serving (.done true)⟩

variable {cfg : LuftpdConfig} {c c' : LuftpdClient} {tr : ClientTrace}

/-! ## Turns are parts of sessions -/

/-- The calls of a script, one step each. -/
theorem run_of_steps {rest rest' : ClientScript Bool}
    (h : rest.Steps ClientOp.exec c tr rest' c') :
    (clientSession cfg).Run ⟨c, .serving rest⟩ (tr.map (·.env)) ⟨c', .serving rest'⟩ := by
  induction h with
  | nil s st => exact .nil _
  | cons e _ ih => exact .cons ⟨rfl, rfl⟩ ih

/-- **A turn is part of a session.** -/
theorem Awaits.turn (h : Awaits cfg c) {more : Bool}
    (hrun : (luftpdServe cfg).Runs ClientOp.exec c tr more c') :
    (clientSession cfg).Reachable ⟨c', .serving (.done more)⟩ := by
  -- what is answered on the way into the turn does not matter
  have hin : (clientSession cfg).Reachable ⟨c, .serving (luftpdServe cfg)⟩ :=
    System.Reachable.step h (e := { ret := 0, fs := .ofTable [] }) ⟨rfl, rfl⟩
  obtain ⟨s₀, es, hinit, hes⟩ := hin
  exact ⟨s₀, _, hinit, hes.append (run_of_steps hrun)⟩

/-! ## Sessions consist of turns -/

/-- The greeting of a new client, or a turn that began with a record in `P`. -/
def Begins (cfg : LuftpdConfig) (P : LuftpdClient → Prop) (s : ClientScript Bool)
    (c : LuftpdClient) : Prop :=
  (s = luftpdWelcome ∧ ∃ sock threadId, 0 ≤ sock ∧ c = newClient sock threadId) ∨
    (s = luftpdServe cfg ∧ P c)

/-- The greeting leaves the record as it is. -/
theorem welcome_runs {more : Bool} (h : luftpdWelcome.Runs ClientOp.exec c tr more c') :
    more = true ∧ c' = c := by
  obtain ⟨e, tr', -, h'⟩ := Script.runs_op_bind_iff.1 h
  obtain ⟨-, rfl, rfl⟩ := Script.runs_pure_iff.1 h'
  exact ⟨rfl, rfl⟩

/-- Where a session stands, when `P` is kept by every turn, in a world that answers with `E`. -/
theorem serving_of_turns (E : OsAnswer → Prop) (P : LuftpdClient → Prop)
    (hnew : ∀ sock threadId, 0 ≤ sock → P (newClient sock threadId))
    (hturn : ∀ c tr c', P c → (∀ e ∈ tr, E e.env) →
      (luftpdServe cfg).Runs ClientOp.exec c tr true c' → P c')
    {s₀ : FtpSession} {es : List OsAnswer} (hinit : (clientSession cfg).init s₀)
    (hes : ∀ os ∈ es, E os) {rest : ClientScript Bool}
    (h : (clientSession cfg).Run s₀ es ⟨c', .serving rest⟩) :
    ∃ s c tr, Begins cfg P s c ∧ (∀ e ∈ tr, E e.env) ∧
      Script.Steps ClientOp.exec s c tr rest c' := by
  let Inv (s : FtpSession) : Prop := match s.pc with
    | .serving rest => ∃ s₀ c tr, Begins cfg P s₀ c ∧ (∀ e ∈ tr, E e.env) ∧
        Script.Steps ClientOp.exec s₀ c tr rest s.client
    | _ => True
  refine h.invariant_of (fun _ os => E os) (fun _ => Inv) ?_ ?_ ?_
  · obtain ⟨sock, threadId, hsock, rfl⟩ := hinit
    exact ⟨_, _, [], .inl ⟨rfl, sock, threadId, hsock, rfl⟩, by simp, .nil _ _⟩
  · rintro - ⟨c, pc⟩ os _ - hpc hos ⟨hrun, rfl⟩
    cases pc with
    | serving rest =>
      obtain ⟨s₀, c₀, tr, hbegin, htr, hsteps⟩ := hpc
      match rest with
      | .done true =>
        refine ⟨_, c, [], .inr ⟨rfl, ?_⟩, by simp, .nil _ _⟩
        obtain ⟨rfl, sock, threadId, hsock, rfl⟩ | ⟨rfl, hP⟩ := hbegin
        · obtain ⟨-, rfl⟩ := welcome_runs hsteps
          exact hnew sock threadId hsock
        · exact hturn _ _ _ hP htr hsteps
      | .done false => trivial
      | .call o k =>
        refine ⟨s₀, c₀, _, hbegin, ?_, hsteps.snoc os⟩
        rw [List.forall_mem_append]
        exact ⟨htr, by simpa using hos⟩
    | closing rest =>
      match rest with
      | .done () => trivial
      | .call o k => trivial
    | removing => cases hrun
    | finished => cases hrun
  · rintro fs os gs - rfl -
    exact hes os (by simp)

theorem awaits_new {sock : Int} (threadId : Int) (hsock : 0 ≤ sock) :
    Awaits cfg (newClient sock threadId) := by
  have hinit : (clientSession cfg).Reachable ⟨newClient sock threadId, .serving luftpdWelcome⟩ :=
    .of_init ⟨sock, threadId, hsock, rfl⟩
  exact hinit.step (e := { ret := 0, fs := .ofTable [] }) ⟨rfl, rfl⟩

/-- **A session consists of turns.** -/
theorem serving_cases {rest : ClientScript Bool}
    (h : (clientSession cfg).Reachable ⟨c', .serving rest⟩) :
    ∃ s c tr, Begins cfg (Awaits cfg) s c ∧ Script.Steps ClientOp.exec s c tr rest c' := by
  obtain ⟨s₀, es, hinit, hrun⟩ := h
  obtain ⟨s, c, tr, hbegin, -, hsteps⟩ :=
    serving_of_turns (fun _ => True) (Awaits cfg)
      (fun _ threadId hsock => awaits_new threadId hsock)
      (fun _ _ _ hc _ hturn => hc.turn hturn) hinit (fun _ _ => trivial) hrun
  exact ⟨s, c, tr, hbegin, hsteps⟩

/-- **The invariant rule for the head of the loop.** -/
theorem Awaits.invariant (P : LuftpdClient → Prop)
    (hnew : ∀ sock threadId, 0 ≤ sock → P (newClient sock threadId))
    (hturn : ∀ c tr c', P c → (luftpdServe cfg).Runs ClientOp.exec c tr true c' → P c')
    (h : Awaits cfg c) : P c := by
  obtain ⟨s₀, es, hinit, hrun⟩ := h
  obtain ⟨s, c₀, tr, hbegin, -, hsteps⟩ :=
    serving_of_turns (fun _ => True) P hnew (fun c tr c' hc _ => hturn c tr c' hc) hinit
      (fun _ _ => trivial) hrun
  obtain ⟨rfl, sock, threadId, hsock, rfl⟩ | ⟨rfl, hP⟩ := hbegin
  · obtain ⟨-, rfl⟩ := welcome_runs hsteps
    exact hnew sock threadId hsock
  · exact hturn _ _ _ hP hsteps

/-! ## What a turn is -/

/-- The command and the argument in what `recv()` has delivered. -/
def commandOf (received : Bytes) : Bytes × Bytes :=
  luftpdParseCommand (cString (received.take 1023))

/-- The three kinds of turns. -/
theorem serve_runs_iff {more : Bool} :
    (luftpdServe cfg).Runs ClientOp.exec c tr more c' ↔
      (c.isActive = false ∧ more = false ∧ c' = c ∧ ∃ e, tr = [⟨c, .isActive, e⟩]) ∨
      (c.isActive = true ∧
        ∃ e os tr', tr = ⟨c, .isActive, e⟩ :: ⟨c, .sys .control .recv, os⟩ :: tr' ∧
        (os.ret ≤ 0 ∧ more = false ∧ c' = c ∧ tr' = [] ∨
          0 < os.ret ∧ (luftpdHandleCommand cfg (commandOf os.bytes).1 (commandOf os.bytes).2).Runs
            ClientOp.exec c tr' more c')) := by
  rw [luftpdServe, Script.runs_op_bind_iff]
  cases hactive : c.isActive with
  | false =>
    simp only [ClientOp.exec, hactive, Bool.not_false, if_true, Script.runs_pure_iff, true_and,
      Bool.false_eq_true, false_and, or_false]
    constructor
    · rintro ⟨e, tr', rfl, rfl, rfl, rfl⟩
      exact ⟨rfl, rfl, e, rfl⟩
    · rintro ⟨rfl, rfl, e, rfl⟩
      exact ⟨e, [], rfl, rfl, rfl, rfl⟩
  | true =>
    simp only [ClientOp.exec, hactive, Bool.not_true, Bool.false_eq_true, if_false, true_and,
      Bool.true_eq_false, false_and, false_or]
    constructor
    · rintro ⟨e, _, rfl, h⟩
      obtain ⟨os, tr', rfl, hturn⟩ := Script.runs_op_bind_iff.1 h
      refine ⟨e, os, tr', rfl, ?_⟩
      obtain ⟨hret, hend⟩ | ⟨hret, hcommand⟩ := Script.runs_ite_iff.1 hturn
      · obtain ⟨rfl, rfl, rfl⟩ := Script.runs_pure_iff.1 hend
        exact .inl ⟨hret, rfl, rfl, rfl⟩
      · exact .inr ⟨Int.not_le.1 hret, hcommand⟩
    · rintro ⟨e, os, tr', rfl, h⟩
      refine ⟨e, _, rfl, Script.runs_op_bind_iff.2 ⟨os, tr', rfl, Script.runs_ite_iff.2 ?_⟩⟩
      obtain ⟨hret, rfl, rfl, rfl⟩ | ⟨hret, h⟩ := h
      · exact .inl ⟨hret, Script.runs_pure_iff.2 ⟨rfl, rfl, rfl⟩⟩
      · exact .inr ⟨Int.not_le.2 hret, h⟩

end Lucp.Luftpd
