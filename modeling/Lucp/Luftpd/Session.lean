import Lucp.General.System
import Lucp.Luftpd.Daemon

/-!
# One session by itself

A client thread whose record nobody else touches: `ftpSession` is the thread of `Lucp.Luftpd.Daemon`
together with its record.  `FtpSession.invariant` is the rule for what holds in all states of a
session: it is enough that the welcome, a turn of the loop and the cleanup each keep it.

Most parts of the handlers work on the data connection or ask the host (`ClientOp.Inner`).  Of all
the handlers only `luftpd_handle_cwd` changes `current_dir`; the lemmas named `stays_` say so for
the others, and `FtpSession.currentDir_invariant` is the invariant rule that is left of the other
one for properties of `current_dir`.
-/

set_option autoImplicit false

namespace Lucp.Luftpd

/-- A client thread and its record. -/
structure FtpSession where
  client : LuftpdClient
  pc : FtpPc

/-- The runs of a session while the file system does not change. -/
def ftpSession (cfg : LuftpdConfig) (fs : FileSystem) : System FtpSession OsAnswer where
  init s := ∃ sock threadId, s = ⟨newClient sock threadId, .serving luftpdWelcome⟩
  step s os s' := os.fs = fs ∧ s.pc.running = true ∧
    s' = ⟨(s.pc.advance cfg s.client os).1, (s.pc.advance cfg s.client os).2⟩

/-! ## Invariants of a session -/

section Invariant

variable (cfg : LuftpdConfig) (fs : FileSystem) (I : LuftpdClient → Prop)

/-- A part of the thread keeps `I`, started on a record with `I`. -/
def Keeps {α : Type} (script : ClientScript α) : Prop :=
  ∀ c, I c → script.Ensures ClientOp.exec (fun os => os.fs = fs) I (fun _ => I) c

/-- `I` holds of the record, and what is left of the present part of the thread keeps it. -/
def FtpSession.Inv (s : FtpSession) : Prop :=
  I s.client ∧
    match s.pc with
    | .serving rest =>
      rest.Ensures ClientOp.exec (fun os : OsAnswer => os.fs = fs) I (fun _ => I) s.client
    | .closing rest =>
      rest.Ensures ClientOp.exec (fun os : OsAnswer => os.fs = fs) I (fun _ => I) s.client
    | .removing => True
    | .finished => True

variable {cfg fs I}

theorem FtpSession.Inv.step (hserve : Keeps fs I (luftpdServe cfg))
    (hclose : Keeps fs I lufptdCloseClient) {s s' : FtpSession} {os : OsAnswer}
    (h : s.Inv fs I) (hs : (ftpSession cfg fs).step s os s') : s'.Inv fs I := by
  obtain ⟨c, pc⟩ := s
  obtain ⟨hI, hrest⟩ := h
  obtain ⟨hfs, hrun, rfl⟩ := hs
  cases pc with
  | serving rest =>
    match rest with
    | .done true => exact ⟨hI, hserve c hI⟩
    | .done false => exact ⟨hI, hclose c hI⟩
    | .call o k => exact hrest os hfs
  | closing rest =>
    match rest with
    | .done () => exact ⟨hI, trivial⟩
    | .call o k => exact hrest os hfs
  | removing => cases hrun
  | finished => cases hrun

/-- **The invariant rule for sessions.** -/
theorem FtpSession.invariant (hnew : ∀ sock threadId, I (newClient sock threadId))
    (hwelcome : Keeps fs I luftpdWelcome) (hserve : Keeps fs I (luftpdServe cfg))
    (hclose : Keeps fs I lufptdCloseClient) {s : FtpSession}
    (h : (ftpSession cfg fs).Reachable s) : I s.client := by
  have hinv : s.Inv fs I := by
    refine h.invariant (FtpSession.Inv fs I) ?_ fun t os t' ht hs => ht.step hserve hclose hs
    rintro _ ⟨sock, threadId, rfl⟩
    exact ⟨hnew sock threadId, hwelcome _ (hnew sock threadId)⟩
  exact hinv.1

end Invariant

/-- What a handler gets when it resolves its argument. -/
theorem resolve_ensures {cfg : LuftpdConfig} {fs : FileSystem} {I : LuftpdClient → Prop}
    (arg : Bytes) {c : LuftpdClient} (hc : I c) :
    (resolve cfg arg).Ensures ClientOp.exec (fun os => os.fs = fs) I
      (fun r c' => c' = c ∧ r = luftpdResolvePath fs cfg.rootDir c.currentDir arg pathMax) c := by
  intro _ _
  refine ⟨hc, fun os hos => ⟨hc, rfl, ?_⟩⟩
  rw [← hos]
  rfl

/-! ## The calls of the small parts -/

section Parts

open Script

variable {P : ClientOp → Prop}

theorem calls_resolve (cfg : LuftpdConfig) (arg : Bytes) (hdir : P .currentDir)
    (hreal : P (.host .realpath)) : (resolve cfg arg).Calls P :=
  .op_bind hdir fun _ => .op_bind hreal fun _ => calls_pure _

theorem calls_closeSock {f : SockField} (hsock : P (.sock f)) (hclose : P (.sys f .close))
    (hclear : P (.clear f)) : (closeSock f).Calls P := by
  refine .op_bind hsock fun _ => .ite ?_ (calls_pure _)
  exact .op_bind hclose fun _ => calls_op hclear

theorem calls_closeClient (hsock : ∀ f, P (.sock f)) (hclose : ∀ f, P (.sys f .close))
    (hclear : ∀ f, P (.clear f)) (hend : P .deactivate) : lufptdCloseClient.Calls P := by
  have hall (f : SockField) : (closeSock f).Calls P :=
    calls_closeSock (hsock f) (hclose f) (hclear f)
  exact (hall _).bind fun _ => (hall _).bind fun _ => (hall _).bind fun _ => calls_op hend

theorem calls_createDataConnection (hpasv : P (.sock .pasv)) (hselect : P (.sys .pasv .select))
    (haccept : P (.sys .pasv .accept)) (hset : ∀ fd, P (.setDataSock fd))
    (hclose : P (.sys .pasv .close)) (hclear : P (.clear .pasv)) (hdata : P (.sock .data)) :
    lufptdCreateDataConnection.Calls P := by
  refine .op_bind hpasv fun _ => .ite (calls_pure _) ?_
  refine .op_bind hselect fun _ => .ite (calls_pure _) ?_
  refine .op_bind haccept fun _ => .op_bind (hset _) fun _ => ?_
  exact .op_bind hclose fun _ => .op_bind hclear fun _ => .op_bind hdata fun _ => calls_pure _

theorem calls_listEntry (path name : Bytes) (hstat : ∀ p, P (.host (.stat p)))
    (hsend : ∀ buf, P (.sys .data (.send buf))) : (listEntry path name).Calls P := by
  refine .ite (calls_pure _) (.op_bind (hstat _) fun _ => .ite (calls_pure _) ?_)
  exact .op_bind (hsend _) fun _ => calls_pure _

theorem calls_retrPiece (piece : Bytes) (hsend : P (.sys .data (.send piece))) :
    (retrPiece piece).Calls P :=
  .op_bind hsend fun _ => calls_pure _

theorem calls_handleType (arg : Bytes) (hset : ∀ t, P (.setTransferType t))
    (hreply : ∀ buf, P (.reply buf)) : (luftpdHandleType arg).Calls P := by
  have hdone (text : String) : (reply text).Calls P := calls_op (hreply _)
  refine .ite (.op_bind (hset _) fun _ => hdone _) (.ite ?_ (hdone _))
  exact .op_bind (hset _) fun _ => hdone _

theorem calls_handleFeat (hreply : ∀ buf, P (.reply buf)) : luftpdHandleFeat.Calls P := by
  have hline (text : String) : (reply text).Calls P := calls_op (hreply _)
  exact (hline _).bind fun _ => (hline _).bind fun _ => (hline _).bind fun _ => hline _

theorem calls_bindLoop (left : ℕ) (port : Int) (hbind : ∀ port, P (.sys .pasv (.bind port)))
    (hundefined : P (.host .undefined)) : (bindLoop left port).Calls P := by
  induction left generalizing port with
  | zero => exact .ite (calls_pure _) (.op_bind hundefined fun _ => calls_pure _)
  | succ left ih => exact .op_bind (hbind _) fun _ => .ite (calls_pure _) (ih _)

end Parts

/-! ## The inner parts of the handlers -/

/-- The operation has to do with the data connection or the host only: it does not write
`current_dir`, reply, open a file, listen or close the control connection. -/
def ClientOp.Inner : ClientOp → Prop
  | .setCurrentDir _ => False
  | .clear f => f ≠ .control
  | .deactivate => False
  | .reply _ => False
  | .sys f call => call ≠ .listen ∧ ¬ (f = .control ∧ call = .close)
  | .host (.opendir _) => False
  | .host (.fopen _) => False
  | _ => True

section Inner

open Script

theorem inner_resolve (cfg : LuftpdConfig) (arg : Bytes) :
    (resolve cfg arg).Calls ClientOp.Inner :=
  calls_resolve cfg arg trivial trivial

theorem inner_closeSock {f : SockField} (hf : f ≠ .control) :
    (closeSock f).Calls ClientOp.Inner :=
  calls_closeSock trivial (by simp [ClientOp.Inner, hf]) hf

theorem inner_createDataConnection : lufptdCreateDataConnection.Calls ClientOp.Inner := by
  refine calls_createDataConnection trivial ?_ ?_ (fun _ => trivial) ?_ ?_ trivial <;>
    simp [ClientOp.Inner]

theorem inner_listEntry (path name : Bytes) : (listEntry path name).Calls ClientOp.Inner :=
  calls_listEntry path name (fun _ => trivial) (by simp [ClientOp.Inner])

theorem inner_retrPiece (piece : Bytes) : (retrPiece piece).Calls ClientOp.Inner :=
  calls_retrPiece piece (by simp [ClientOp.Inner])

theorem inner_bindLoop (left : ℕ) (port : Int) : (bindLoop left port).Calls ClientOp.Inner :=
  calls_bindLoop left port (by simp [ClientOp.Inner]) trivial

end Inner

/-! ## Who leaves `current_dir` alone -/

/-- The operation does not write `current_dir`. -/
def ClientOp.Stays : ClientOp → Prop
  | .setCurrentDir _ => False
  | _ => True

theorem ClientOp.Stays.currentDir_exec {o : ClientOp} (h : o.Stays) (c : LuftpdClient)
    (os : OsAnswer) : (o.exec c os).1.currentDir = c.currentDir := by
  cases o with
  | setCurrentDir dir => exact h.elim
  | clear f => cases f <;> rfl
  | _ => rfl

theorem ClientOp.Inner.stays {o : ClientOp} (h : o.Inner) : o.Stays := by
  cases o with
  | setCurrentDir dir => exact h.elim
  | _ => trivial

/-- A part of the thread that does not write `current_dir`. -/
abbrev Stays {α : Type} (script : ClientScript α) : Prop := script.Calls ClientOp.Stays

section Stays

open Script

theorem stays_of_inner {α : Type} {script : ClientScript α} (h : script.Calls ClientOp.Inner) :
    Stays script :=
  h.mono fun _ ho => ho.stays

theorem stays_reply (text : String) : Stays (reply text) := calls_op trivial

theorem stays_respond (text : Bytes) : Stays (luftpdRespond text) := calls_op trivial

theorem stays_closeSock (f : SockField) : Stays (closeSock f) :=
  calls_closeSock trivial trivial trivial

theorem stays_closeClient : Stays lufptdCloseClient :=
  calls_closeClient (fun _ => trivial) (fun _ => trivial) (fun _ => trivial) trivial

theorem stays_withFile {cfg : LuftpdConfig} (arg : Bytes) (kind : FileKind) (notFound : String)
    {work : Bytes → OsAnswer → ClientScript Unit} (h : ∀ path st, Stays (work path st)) :
    Stays (withFile cfg arg kind notFound work) := by
  refine (stays_of_inner (inner_resolve cfg arg)).bind fun r => ?_
  cases r with
  | error e => exact stays_reply _
  | ok path => exact .op_bind trivial fun st => .ite (stays_reply _) (h path st)

theorem stays_transfer (opening : String) (call : HostCall) (failed : String)
    {sendAll : OsAnswer → ClientScript Unit} (h : ∀ os, Stays (sendAll os)) :
    Stays (transfer opening call failed sendAll) := by
  refine (stays_of_inner inner_createDataConnection).bind fun _ => .ite ?_ (stays_reply _)
  refine (stays_reply _).bind fun _ => .op_bind trivial fun file => .ite ?_ ?_
  · exact stays_closeClient.bind fun _ => stays_reply _
  · refine (h file).bind fun _ => .op_bind trivial fun _ => ?_
    exact .op_bind trivial fun _ => stays_reply _

theorem stays_handleList (cfg : LuftpdConfig) (arg : Bytes) : Stays (luftpdHandleList cfg arg) :=
  stays_withFile arg _ _ fun path _ => stays_transfer _ _ _ fun _ =>
    .forEach fun name => stays_of_inner (inner_listEntry path name)

theorem stays_handleRetr (cfg : LuftpdConfig) (arg : Bytes) : Stays (luftpdHandleRetr cfg arg) :=
  stays_withFile arg _ _ fun _ _ => stays_transfer _ _ _ fun _ =>
    .forEach fun piece => stays_of_inner (inner_retrPiece piece)

theorem stays_handleType (arg : Bytes) : Stays (luftpdHandleType arg) :=
  calls_handleType arg (fun _ => trivial) fun _ => trivial

theorem stays_handleFeat : Stays luftpdHandleFeat := calls_handleFeat fun _ => trivial

theorem stays_handleSize (cfg : LuftpdConfig) (arg : Bytes) : Stays (luftpdHandleSize cfg arg) :=
  stays_withFile arg _ _ fun _ _ => stays_respond _

theorem stays_enterPasvMode (cfg : LuftpdConfig) : Stays (luftpdEnterPasvMode cfg) := by
  refine (stays_closeSock _).bind fun _ => .op_bind trivial fun _ => .op_bind trivial fun _ => ?_
  refine .op_bind trivial fun _ => .ite (calls_pure _) ?_
  refine (stays_of_inner (inner_bindLoop _ _)).bind fun port => ?_
  cases port with
  | none => exact .op_bind trivial fun _ => calls_op trivial
  | some port =>
    refine .op_bind trivial fun _ => .ite ?_ (stays_respond _)
    exact .op_bind trivial fun _ => calls_op trivial

/-- A command of the dispatcher, after which the loop goes on. -/
theorem Stays.thenTrue {s : ClientScript Unit} (hs : Stays s) : Stays (do s; return true) :=
  hs.bind fun _ => calls_pure _

theorem stays_handleCommand (cfg : LuftpdConfig) {command : Bytes} (argument : Bytes)
    (h : command ≠ textBytes "CWD") : Stays (luftpdHandleCommand cfg command argument) := by
  have hpwd : Stays (do
      let currentDir ← doOp .currentDir
      luftpdRespond (textBytes "257 \"" ++ currentDir ++ textBytes "\"")) :=
    .op_bind trivial fun _ => stays_respond _
  refine .ite (stays_reply _).thenTrue ?_
  refine .ite (stays_reply _).thenTrue ?_
  refine .ite (stays_reply _).thenTrue ?_
  refine .ite stays_handleFeat.thenTrue ?_
  refine .ite hpwd.thenTrue ?_
  rw [if_neg h]
  refine .ite (stays_handleType argument).thenTrue ?_
  refine .ite (stays_enterPasvMode cfg).thenTrue ?_
  refine .ite (stays_handleList cfg argument).thenTrue ?_
  refine .ite (stays_handleRetr cfg argument).thenTrue ?_
  refine .ite (stays_handleSize cfg argument).thenTrue ?_
  refine .ite ?_ (stays_reply _).thenTrue
  exact (stays_reply _).bind fun _ => calls_pure _

theorem handleCommand_cwd (cfg : LuftpdConfig) (argument : Bytes) :
    luftpdHandleCommand cfg (textBytes "CWD") argument
      = (do luftpdHandleCwd cfg argument; return true) := by
  rw [luftpdHandleCommand, if_neg (by decide), if_neg (by decide), if_neg (by decide),
    if_neg (by decide), if_neg (by decide), if_pos rfl]

end Stays

/-! ## What holds of `current_dir` -/

section CurrentDir

variable {cfg : LuftpdConfig} {fs : FileSystem} {J : Bytes → Prop}

/-- What does not write `current_dir` keeps every property of it. -/
theorem keeps_of_stays {α : Type} {script : ClientScript α} (h : Stays script) :
    Keeps fs (fun c => J c.currentDir) script := by
  intro c hc
  refine h.ensures (fun o ho st os hst => ?_) hc
  rwa [ho.currentDir_exec]

theorem Keeps.bind {α β : Type} {I : LuftpdClient → Prop} {s : ClientScript α}
    {f : α → ClientScript β} (hs : Keeps fs I s) (hf : ∀ a, Keeps fs I (f a)) :
    Keeps fs I (s >>= f) :=
  fun c hc => (hs c hc).bind fun a st hst => hf a st hst

theorem Keeps.ite {α : Type} {I : LuftpdClient → Prop} {b : Prop} [Decidable b]
    {s t : ClientScript α} (hs : Keeps fs I s) (ht : Keeps fs I t) :
    Keeps fs I (if b then s else t) := by
  split
  · exact hs
  · exact ht

theorem keeps_handleCommand
    (hcwd : ∀ arg, Keeps fs (fun c => J c.currentDir) (luftpdHandleCwd cfg arg))
    (command argument : Bytes) :
    Keeps fs (fun c => J c.currentDir) (luftpdHandleCommand cfg command argument) := by
  by_cases hcommand : command = textBytes "CWD"
  · subst hcommand
    rw [handleCommand_cwd]
    exact (hcwd argument).bind fun _ _ hc => hc
  · exact keeps_of_stays (stays_handleCommand cfg argument hcommand)

theorem keeps_serve
    (hcwd : ∀ arg, Keeps fs (fun c => J c.currentDir) (luftpdHandleCwd cfg arg)) :
    Keeps fs (fun c => J c.currentDir) (luftpdServe cfg) := by
  have hactive : Keeps fs (fun c => J c.currentDir) (doOp .isActive) :=
    keeps_of_stays (Script.calls_op trivial)
  have hrecv : Keeps fs (fun c => J c.currentDir) (doOp (.sys .control .recv)) :=
    keeps_of_stays (Script.calls_op trivial)
  refine hactive.bind fun _ => .ite (fun _ hc => hc) ?_
  refine hrecv.bind fun _ => .ite (fun _ hc => hc) ?_
  exact keeps_handleCommand hcwd _ _

/-- **The invariant rule for `current_dir`**: only `luftpd_handle_cwd` has to be looked at. -/
theorem FtpSession.currentDir_invariant (hnew : J [slash])
    (hcwd : ∀ arg, Keeps fs (fun c => J c.currentDir) (luftpdHandleCwd cfg arg)) {s : FtpSession}
    (h : (ftpSession cfg fs).Reachable s) : J s.client.currentDir :=
  FtpSession.invariant (fun _ _ => hnew)
    (keeps_of_stays ((stays_reply _).bind fun _ => Script.calls_pure _)) (keeps_serve hcwd)
    (keeps_of_stays stays_closeClient) h

end CurrentDir

end Lucp.Luftpd
