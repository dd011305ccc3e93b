import Lucp.Luftpd.Isolation
import Lucp.Luftpd.Transfer

/-!
# The replies of a turn

Every command is to be answered by one completion reply on the control connection.  Most of what a
handler does has nothing to do with this (`ClientOp.Quiet`), and such calls can be skipped at its
beginning (`Yields.after`); what is left of each handler is the reply it ends with.

Three things can go wrong.  `LIST` and `RETR` hang up before they answer when the file or directory
cannot be opened, and `PASV` does not answer at all when it does not get a listening socket.  And as
nothing in the server sees to `SIGPIPE`, a `send()` on a data connection that the client has closed
ends the process, in the middle of the turn.  A run goes on behind such a call as if the signal had
been ignored; what really happens is the part of it up to there (`lived`).  `one_completion_iff`
says that nothing else goes wrong.
-/

set_option autoImplicit false

namespace Lucp.Luftpd

/-! ## Replies -/

/-- A digit in a reply code. -/
def isDigit (b : UInt8) : Bool := 0x30 ≤ b && b ≤ 0x39

/-- The text is a completion reply: it begins with a code from 200 to 599 and a blank.  A
preliminary reply begins with 1, and in the first lines of a longer reply there is no blank behind
the code. -/
def completes : Bytes → Bool
  | d :: e :: f :: blank :: _ =>
    0x32 ≤ d && d ≤ 0x35 && isDigit e && isDigit f && blank == 0x20
  | _ => false

/-- The call sends a completion reply on an open control connection. -/
def answers (e : ClientEntry) : Bool :=
  e.state.controlSock != -1 &&
    match e.op with
    | .reply buffer => completes buffer
    | _ => false

/-- How many completion replies have been sent. -/
def completions (tr : ClientTrace) : ℕ := tr.countP answers

/-- The call is a `send()` on the data connection that ends the process. -/
def kills (e : ClientEntry) : Bool :=
  e.env.sigpipe &&
    match e.op with
    | .sys .data (.send _) => true
    | _ => false

/-- Some call ends the process. -/
def Killed (tr : ClientTrace) : Prop := ∃ e ∈ tr, kills e = true

instance (tr : ClientTrace) : Decidable (Killed tr) :=
  inferInstanceAs (Decidable (∃ e ∈ tr, kills e = true))

/-- The calls that the process lives to make. -/
def lived : ClientTrace → ClientTrace
  | [] => []
  | e :: tr => if kills e then [e] else e :: lived tr

/-- An `opendir()` or `fopen()` has failed. -/
def FileRefused (tr : ClientTrace) : Prop :=
  ∃ e ∈ tr, e.env.ret < 0 ∧
    ((∃ path, e.op = .host (.opendir path)) ∨ ∃ path, e.op = .host (.fopen path))

/-- The call opens a file or a directory. -/
def ClientOp.opens : ClientOp → Bool
  | .host (.opendir _) => true
  | .host (.fopen _) => true
  | _ => false

theorem ClientOp.opens_iff (o : ClientOp) :
    o.opens = true ↔ (∃ path, o = .host (.opendir path)) ∨ ∃ path, o = .host (.fopen path) := by
  constructor
  · intro h
    cases o with
    | host call =>
      cases call with
      | opendir path => exact .inl ⟨path, rfl⟩
      | fopen path => exact .inr ⟨path, rfl⟩
      | _ => cases h
    | _ => cases h
  · rintro (⟨path, rfl⟩ | ⟨path, rfl⟩) <;> rfl

instance (tr : ClientTrace) : Decidable (FileRefused tr) :=
  decidable_of_iff (∃ e ∈ tr, e.env.ret < 0 ∧ e.op.opens = true) (by
    simp only [FileRefused, ClientOp.opens_iff])

/-- A `listen()` has succeeded. -/
def Listening (tr : ClientTrace) : Prop := ∃ e ∈ tr, 0 ≤ e.env.ret ∧ e.op = .sys .pasv .listen

instance (tr : ClientTrace) : Decidable (Listening tr) :=
  inferInstanceAs (Decidable (∃ e ∈ tr, 0 ≤ e.env.ret ∧ e.op = .sys .pasv .listen))

/-- The call closes the control connection, which has been open. -/
def ClientOp.closesAt (o : ClientOp) (control : Int) : Bool :=
  decide (o = .sys .control .close) && control != -1

/-- How often the control connection has been closed. -/
def closings (tr : ClientTrace) : ℕ := tr.countP fun e => e.op.closesAt e.state.controlSock

/-- What the first `recv()` with a result has delivered on the control connection. -/
def received (tr : ClientTrace) : Option Bytes :=
  (tr.find? fun e => e.op = .sys .control .recv ∧ 0 < e.env.ret).map fun e => e.env.bytes

theorem closings_append (tr tr' : ClientTrace) :
    closings (tr ++ tr') = closings tr + closings tr' := List.countP_append

theorem closings_eq_zero {tr : ClientTrace} (h : ∀ e ∈ tr, e.op ≠ .sys .control .close) :
    closings tr = 0 :=
  List.countP_eq_zero.2 fun e he => by simp [ClientOp.closesAt, h e he]

/-- A text of four characters and more shows at once whether it is a completion reply. -/
theorem completes_append {a : Bytes} (b : Bytes) (h : completes a = true) :
    completes (a ++ b) = true := by
  match a, h with
  | d :: e :: f :: blank :: a, h => exact h

/-- Neither the limit on the length nor the end of the line makes a difference. -/
theorem completes_sendResponse (text : Bytes) (h : completes text = true) :
    completes (luftpdSendResponse text) = true := by
  match text, h with
  | d :: e :: f :: blank :: text, h =>
    have hcut : completes ((d :: e :: f :: blank :: text).take 1021) = true := h
    unfold luftpdSendResponse
    dsimp only
    split
    · exact hcut
    · exact completes_append _ hcut

/-! ## What the process lives to do -/

theorem lived_of_not_killed {tr : ClientTrace} (h : ¬ Killed tr) : lived tr = tr := by
  induction tr with
  | nil => rfl
  | cons e tr ih =>
    have hlast : ¬ Killed tr := fun ⟨x, hx, hk⟩ => h ⟨x, List.mem_cons_of_mem _ hx, hk⟩
    have hfirst : ¬ kills e = true := fun hk => h ⟨e, List.mem_cons_self, hk⟩
    rw [lived, if_neg hfirst, ih hlast]

theorem lived_append_of_killed {tr : ClientTrace} (tr' : ClientTrace) (h : Killed tr) :
    lived (tr ++ tr') = lived tr := by
  induction tr with
  | nil => exact absurd h (by simp [Killed])
  | cons e tr ih =>
    rw [List.cons_append, lived, lived]
    split
    · rfl
    · next hfirst =>
      obtain ⟨x, hx, hk⟩ := h
      rcases List.mem_cons.1 hx with rfl | hx
      · exact absurd hk hfirst
      · rw [ih ⟨x, hx, hk⟩]

theorem lived_append_of_not_killed {tr : ClientTrace} (tr' : ClientTrace) (h : ¬ Killed tr) :
    lived (tr ++ tr') = tr ++ lived tr' := by
  induction tr with
  | nil => rfl
  | cons e tr ih =>
    have hlast : ¬ Killed tr := fun ⟨x, hx, hk⟩ => h ⟨x, List.mem_cons_of_mem _ hx, hk⟩
    have hfirst : ¬ kills e = true := fun hk => h ⟨e, List.mem_cons_self, hk⟩
    rw [List.cons_append, lived, if_neg hfirst, ih hlast]
    rfl

theorem lived_subset (tr : ClientTrace) : lived tr ⊆ tr := by
  induction tr with
  | nil => exact List.Subset.refl _
  | cons e tr ih =>
    rw [lived]
    split
    · exact fun x hx => List.mem_singleton.1 hx ▸ List.mem_cons_self
    · exact List.cons_subset_cons e ih

theorem killed_append_iff {tr tr' : ClientTrace} :
    Killed (tr ++ tr') ↔ Killed tr ∨ Killed tr' := by
  simp only [Killed, List.mem_append, or_and_right, exists_or]

/-! ## What has nothing to do with replies -/

/-- The call neither sends a completion reply nor opens a file nor listens, and it does not close
the control connection. -/
def ClientOp.Quiet : ClientOp → Prop
  | .clear f => f ≠ .control
  | .deactivate => False
  | .reply buffer => completes buffer = false
  | .sys f call => call ≠ .listen ∧ ¬ (f = .control ∧ call = .close)
  | .host (.opendir _) => False
  | .host (.fopen _) => False
  | _ => True

/-- The same control connection. -/
structure SameConnection (c c' : LuftpdClient) : Prop where
  control : c'.controlSock = c.controlSock
  active : c'.isActive = c.isActive

theorem SameConnection.refl (c : LuftpdClient) : SameConnection c c := ⟨rfl, rfl⟩

theorem SameConnection.trans {c c' c'' : LuftpdClient} (h : SameConnection c c')
    (h' : SameConnection c' c'') : SameConnection c c'' :=
  ⟨h'.control.trans h.control, h'.active.trans h.active⟩

theorem ClientOp.Inner.quiet {o : ClientOp} (h : o.Inner) : o.Quiet := by
  cases o with
  | reply buffer => exact h.elim
  | setCurrentDir dir => exact h.elim
  | host call => cases call <;> exact h
  | _ => exact h

theorem quiet_of_inner {α : Type} {s : ClientScript α} (h : s.Calls ClientOp.Inner) :
    s.Calls ClientOp.Quiet :=
  h.mono fun _ ho => ho.quiet

theorem ClientOp.Quiet.exec {o : ClientOp} (h : o.Quiet) (c : LuftpdClient) (os : OsAnswer) :
    SameConnection c (o.exec c os).1 := by
  cases o with
  | clear f =>
    cases f with
    | control => exact absurd rfl h
    | data => exact ⟨rfl, rfl⟩
    | pasv => exact ⟨rfl, rfl⟩
  | deactivate => exact h.elim
  | _ => exact ⟨rfl, rfl⟩

/-- Calls that are all quiet. -/
structure Silent (c : LuftpdClient) (tr : ClientTrace) (c' : LuftpdClient) : Prop where
  quiet : ∀ e ∈ tr, e.op.Quiet
  same : SameConnection c c'

theorem silent_of_calls {α : Type} {s : ClientScript α} (hs : s.Calls ClientOp.Quiet)
    {c c' : LuftpdClient} {tr : ClientTrace} {a : α} (h : s.Runs ClientOp.exec c tr a c') :
    Silent c tr c' where
  quiet := hs.of_runs h
  same := hs.keeps (SameConnection c) (fun _ ho st e hst => hst.trans (ho.exec st e)) h (.refl c)

section Silent

variable {c c' : LuftpdClient} {tr tr' : ClientTrace}

theorem Silent.answers (h : Silent c tr c') : ∀ e ∈ tr, answers e = false := by
  intro e he
  have hquiet := h.quiet e he
  rw [Luftpd.answers]
  cases hop : e.op with
  | reply buffer =>
    rw [hop] at hquiet
    have hno : completes buffer = false := hquiet
    simp [hno]
  | _ => simp

/-- A call that is looked for is not among the first ones. -/
theorem exists_append_iff {P : ClientEntry → Prop} (h : ∀ e ∈ tr, ¬ P e) :
    (∃ e ∈ tr ++ tr', P e) ↔ ∃ e ∈ tr', P e := by
  simp only [List.mem_append, or_and_right, exists_or]
  exact or_iff_right fun ⟨e, he, hp⟩ => h e he hp

theorem Silent.completions_append (h : Silent c tr c') :
    completions (tr ++ tr') = completions tr' := by
  have hzero : tr.countP Luftpd.answers = 0 :=
    List.countP_eq_zero.2 fun e he => by simp [h.answers e he]
  rw [completions, List.countP_append, hzero, Nat.zero_add, completions]

/-- The process does not live to send a completion reply in these calls. -/
theorem Silent.completions_lived (h : Silent c tr c') : completions (lived tr) = 0 :=
  List.countP_eq_zero.2 fun e he => by simp [h.answers e (lived_subset tr he)]

theorem Silent.completions_lived_append (h : Silent c tr c')
    (hrest : Killed tr' → completions (lived tr') = 0) (hk : Killed (tr ++ tr')) :
    completions (lived (tr ++ tr')) = 0 := by
  by_cases hfirst : Killed tr
  · rw [lived_append_of_killed tr' hfirst]
    exact h.completions_lived
  · rw [lived_append_of_not_killed tr' hfirst, h.completions_append]
    exact hrest ((killed_append_iff.1 hk).resolve_left hfirst)

theorem Silent.fileRefused_append (h : Silent c tr c') :
    FileRefused (tr ++ tr') ↔ FileRefused tr' := by
  refine exists_append_iff fun e he ⟨_, hop⟩ => ?_
  have hquiet := h.quiet e he
  obtain ⟨path, hop⟩ | ⟨path, hop⟩ := hop
  · rw [hop] at hquiet
    exact hquiet
  · rw [hop] at hquiet
    exact hquiet

theorem Silent.closings_append (h : Silent c tr c') : closings (tr ++ tr') = closings tr' := by
  rw [Luftpd.closings_append, closings_eq_zero, Nat.zero_add]
  intro e he hop
  have hquiet := h.quiet e he
  rw [hop] at hquiet
  exact hquiet.2 ⟨rfl, rfl⟩

theorem Silent.listening_append (h : Silent c tr c') :
    Listening (tr ++ tr') ↔ Listening tr' := by
  refine exists_append_iff fun e he ⟨_, hop⟩ => ?_
  have hquiet := h.quiet e he
  rw [hop] at hquiet
  exact hquiet.1 rfl

end Silent

/-! ## What a part of a turn comes to -/

/-- All runs of the script on an open control connection come to `Q`. -/
def Yields (Q : LuftpdClient → ClientTrace → LuftpdClient → Prop) {α : Type}
    (s : ClientScript α) : Prop :=
  ∀ c tr a c', c.controlSock ≠ -1 → s.Runs ClientOp.exec c tr a c' → Q c tr c'

/-- Quiet calls in front make no difference. -/
def Skips (Q : LuftpdClient → ClientTrace → LuftpdClient → Prop) : Prop :=
  ∀ {c c₁ c' : LuftpdClient} {tr tr' : ClientTrace},
    Silent c tr c₁ → Q c₁ tr' c' → Q c (tr ++ tr') c'

/-- So many completion replies, and the connection is as before.  A process that is killed does not
live to send any. -/
structure Answered (n : ℕ) (c : LuftpdClient) (tr : ClientTrace) (c' : LuftpdClient) : Prop where
  replies : completions tr = n
  killed : Killed tr → completions (lived tr) = 0
  files : ¬ FileRefused tr
  closings : closings tr = 0
  same : SameConnection c c'

/-- The client has been hung up on, because a file or directory could not be opened. -/
structure Dropped (tr : ClientTrace) (c' : LuftpdClient) : Prop where
  files : FileRefused tr
  closings : closings tr = 1
  control : c'.controlSock = -1
  active : c'.isActive = false

theorem skips_answered (n : ℕ) : Skips (Answered n) := fun hs h =>
  ⟨hs.completions_append.trans h.replies, hs.completions_lived_append h.killed,
    fun hf => h.files (hs.fileRefused_append.1 hf), hs.closings_append.trans h.closings,
    hs.same.trans h.same⟩

/-- One more call in front, which need not be a quiet one. -/
theorem Answered.cons {n : ℕ} {c c' : LuftpdClient} {tr : ClientTrace} {e : ClientEntry}
    (h : Answered n c tr c') (hans : answers e = false) (hkills : kills e = false)
    (hfile : ¬ FileRefused [e]) (hclose : e.op.closesAt e.state.controlSock = false) :
    Answered n c (e :: tr) c' where
  replies := by
    rw [completions, List.countP_cons_of_neg (by simp [hans])]
    exact h.replies
  killed := by
    rintro ⟨x, hx, hk⟩
    have hrest : Killed tr := by
      rcases List.mem_cons.1 hx with rfl | hx
      · rw [hkills] at hk
        cases hk
      · exact ⟨x, hx, hk⟩
    rw [lived, if_neg (by simp [hkills]), completions, List.countP_cons_of_neg (by simp [hans])]
    exact h.killed hrest
  files := by
    rintro ⟨x, hx, hneg, hop⟩
    obtain _ | ⟨_, hx⟩ := hx
    · exact hfile ⟨e, List.mem_singleton.2 rfl, hneg, hop⟩
    · exact h.files ⟨x, hx, hneg, hop⟩
  closings := by
    rw [Luftpd.closings, List.countP_cons_of_neg (by simp [hclose])]
    exact h.closings
  same := h.same

/-- What `LIST` and `RETR` come to. -/
def Transferred (c : LuftpdClient) (tr : ClientTrace) (c' : LuftpdClient) : Prop :=
  Answered 1 c tr c' ∨ Dropped tr c'

theorem skips_transferred : Skips Transferred := fun hs h =>
  h.imp (skips_answered 1 hs) fun h =>
    ⟨hs.fileRefused_append.2 h.files, hs.closings_append.trans h.closings, h.control, h.active⟩

/-- What `PASV` comes to. -/
def Passive (c : LuftpdClient) (tr : ClientTrace) (c' : LuftpdClient) : Prop :=
  Listening tr ∧ Answered 1 c tr c' ∨ ¬ Listening tr ∧ Answered 0 c tr c'

theorem skips_passive : Skips Passive := fun hs h =>
  h.imp (fun h => ⟨hs.listening_append.2 h.1, skips_answered 1 hs h.2⟩)
    fun h => ⟨fun hl => h.1 (hs.listening_append.1 hl), skips_answered 0 hs h.2⟩

section Yields

variable {Q : LuftpdClient → ClientTrace → LuftpdClient → Prop} {α β : Type}

/-- **The rule for quiet calls at the beginning.** -/
theorem Yields.after (hQ : Skips Q) {s : ClientScript β} {f : β → ClientScript α}
    (hs : s.Calls ClientOp.Quiet) (hf : ∀ b, Yields Q (f b)) : Yields Q (s >>= f) := by
  intro c tr a c' hopen h
  obtain ⟨tr₁, b, c₁, tr₂, rfl, h₁, h₂⟩ := Script.runs_bind_iff.1 h
  have hsilent := silent_of_calls hs h₁
  exact hQ hsilent (hf b c₁ tr₂ a c' (by rwa [hsilent.same.control]) h₂)

theorem Yields.ite {b : Prop} [Decidable b] {s t : ClientScript α} (hs : Yields Q s)
    (ht : Yields Q t) : Yields Q (if b then s else t) := by
  split
  · exact hs
  · exact ht

theorem Yields.mono {Q' : LuftpdClient → ClientTrace → LuftpdClient → Prop} {s : ClientScript α}
    (h : Yields Q s) (hQ : ∀ {c tr c'}, Q c tr c' → Q' c tr c') : Yields Q' s :=
  fun c tr a c' hopen hrun => hQ (h c tr a c' hopen hrun)

/-- Quiet calls and nothing else. -/
theorem yields_quiet {s : ClientScript α} (hs : s.Calls ClientOp.Quiet) :
    Yields (Answered 0) s := by
  intro c tr a c' _ h
  have hsilent := silent_of_calls hs h
  refine ⟨?_, fun _ => hsilent.completions_lived, ?_, ?_, hsilent.same⟩
  · rw [← List.append_nil tr, hsilent.completions_append]
    rfl
  · rw [← List.append_nil tr, hsilent.fileRefused_append]
    simp [FileRefused]
  · rw [← List.append_nil tr, hsilent.closings_append]
    rfl

/-- The reply at the end of a handler. -/
theorem yields_respond {text : Bytes} (h : completes text = true) :
    Yields (Answered 1) (luftpdRespond text) := by
  intro c tr a c' hopen hrun
  obtain ⟨e, rfl, -, rfl⟩ := Script.runs_op_iff.1 hrun
  refine ⟨?_, ?_, ?_, rfl, .refl _⟩
  · simp [completions, answers, hopen, completes_sendResponse text h]
  · simp [Killed, kills]
  · simp [FileRefused]

theorem yields_reply {text : String} (h : completes (textBytes text) = true) :
    Yields (Answered 1) (reply text) := yields_respond h

end Yields

/-! ## The handlers -/

section Handlers

open Script

theorem yields_withFile (cfg : LuftpdConfig) (arg : Bytes) (kind : FileKind) {notFound : String}
    {work : Bytes → OsAnswer → ClientScript Unit}
    {Q : LuftpdClient → ClientTrace → LuftpdClient → Prop} (hQ : Skips Q)
    (hanswered : ∀ {c tr c'}, Answered 1 c tr c' → Q c tr c')
    (hnotFound : completes (textBytes notFound) = true) (h : ∀ path st, Yields Q (work path st)) :
    Yields Q (withFile cfg arg kind notFound work) := by
  refine .after hQ (quiet_of_inner (inner_resolve cfg arg)) fun r => ?_
  cases r with
  | error e => exact (yields_reply (by decide)).mono hanswered
  | ok path =>
    refine .after hQ (calls_op trivial) fun st => .ite ?_ (h path st)
    exact (yields_reply hnotFound).mono hanswered

theorem yields_handleCwd (cfg : LuftpdConfig) (arg : Bytes) :
    Yields (Answered 1) (luftpdHandleCwd cfg arg) := by
  refine yields_withFile cfg arg _ (skips_answered 1) id (by decide) fun path st => ?_
  refine .after (skips_answered 1) (calls_op trivial) fun stack => .ite ?_ ?_
  · exact .after (skips_answered 1) (calls_op trivial) fun _ => yields_reply (by decide)
  · exact .after (skips_answered 1) (calls_op trivial) fun _ => yields_reply (by decide)

theorem yields_handleSize (cfg : LuftpdConfig) (arg : Bytes) :
    Yields (Answered 1) (luftpdHandleSize cfg arg) := by
  refine yields_withFile cfg arg _ (skips_answered 1) id (by decide) fun path st => ?_
  refine yields_respond ?_
  rw [textBytes, String.toList_append, List.map_append]
  exact completes_append _ (by decide)

theorem yields_handleType (arg : Bytes) : Yields (Answered 1) (luftpdHandleType arg) := by
  refine .ite (.after (skips_answered 1) (calls_op trivial) fun _ => yields_reply (by decide)) ?_
  refine .ite (.after (skips_answered 1) (calls_op trivial) fun _ => yields_reply (by decide)) ?_
  exact yields_reply (by decide)

/-- The first lines are not counted. -/
theorem yields_handleFeat : Yields (Answered 1) luftpdHandleFeat := by
  refine .after (skips_answered 1) (calls_op ?_) fun _ => ?_
  · exact (by decide : completes (luftpdSendResponse (textBytes "211-Features:")) = false)
  refine .after (skips_answered 1) (calls_op ?_) fun _ => ?_
  · exact (by decide : completes (luftpdSendResponse (textBytes " PASV")) = false)
  refine .after (skips_answered 1) (calls_op ?_) fun _ => yields_reply (by decide)
  exact (by decide : completes (luftpdSendResponse (textBytes " SIZE")) = false)

/-- No part of a thread opens a closed control connection again. -/
theorem controlSock_of_runs {α : Type} {s : ClientScript α} {c c' : LuftpdClient}
    {tr : ClientTrace} {a : α} (h : s.Runs ClientOp.exec c tr a c') (hc : c.controlSock = -1) :
    c'.controlSock = -1 := by
  have hall : s.Calls fun _ => True := calls_true s
  refine hall.keeps (fun c => c.controlSock = -1) (fun o _ st e hst => ?_) h hc
  rw [ClientOp.controlSock_exec, hst, ite_self]

theorem closeControl_runs {c c' : LuftpdClient} {tr : ClientTrace} {u : Unit}
    (h : (closeSock .control).Runs ClientOp.exec c tr u c') :
    c'.controlSock = -1 ∧ closings tr = if c.controlSock = -1 then 0 else 1 := by
  obtain ⟨e, tr', rfl, htest⟩ := runs_op_bind_iff.1 h
  obtain ⟨hopen, hclose⟩ | ⟨hno, hend⟩ := runs_ite_iff.1 htest
  · obtain ⟨os, tr', rfl, hclear⟩ := runs_op_bind_iff.1 hclose
    obtain ⟨e, rfl, -, rfl⟩ := runs_op_iff.1 hclear
    have hopen' : c.controlSock ≠ -1 := hopen
    exact ⟨rfl, by simp [closings, ClientOp.closesAt, ClientOp.exec, hopen']⟩
  · obtain ⟨rfl, -, rfl⟩ := runs_pure_iff.1 hend
    have hno' : c'.controlSock = -1 := not_not.1 hno
    exact ⟨hno', by simp [closings, ClientOp.closesAt, hno']⟩

/-- Hanging up. -/
theorem closeClient_runs {c c' : LuftpdClient} {tr : ClientTrace} {u : Unit}
    (h : lufptdCloseClient.Runs ClientOp.exec c tr u c') :
    c'.controlSock = -1 ∧ c'.isActive = false ∧
      closings tr = if c.controlSock = -1 then 0 else 1 := by
  obtain ⟨tr₁, _, c₁, tr₂, rfl, h₁, h₂⟩ := runs_bind_iff.1 h
  obtain ⟨hclosed, hcount⟩ := closeControl_runs h₁
  have hrest : (do closeSock .data; closeSock .pasv; doOp .deactivate).Calls
      fun o => o ≠ ClientOp.sys .control .close := by
    have hsock : ∀ f, f ≠ .control →
        (closeSock f).Calls fun o => o ≠ ClientOp.sys .control .close :=
      fun f hf => .op_bind (by simp) fun _ =>
        .ite (.op_bind (by simp [hf]) fun _ => calls_op (by simp)) (calls_pure _)
    exact (hsock .data (by simp)).bind fun _ => (hsock .pasv (by simp)).bind fun _ =>
      calls_op (by simp)
  refine ⟨controlSock_of_runs h₂ hclosed, ?_, ?_⟩
  · obtain ⟨_, _, _, _, -, -, h₃⟩ := runs_bind_iff.1 h₂
    obtain ⟨_, _, _, _, -, -, h₄⟩ := runs_bind_iff.1 h₃
    obtain ⟨e, -, -, rfl⟩ := runs_op_iff.1 h₄
    rfl
  · rw [closings_append, hcount, closings_eq_zero (hrest.of_runs h₂), Nat.add_zero]

theorem yields_transfer {opening failed : String} {call : HostCall}
    {sendAll : OsAnswer → ClientScript Unit}
    (hopening : completes (luftpdSendResponse (textBytes opening)) = false)
    (hcall : (∃ path, call = .opendir path) ∨ ∃ path, call = .fopen path)
    (hsend : ∀ os, (sendAll os).Calls ClientOp.Quiet) :
    Yields Transferred (transfer opening call failed sendAll) := by
  refine .after skips_transferred (quiet_of_inner inner_createDataConnection) fun _ => .ite ?_ ?_
  · refine .after skips_transferred (calls_op hopening) fun _ c tr a c' hopen h => ?_
    obtain ⟨file, tr', rfl, hrest⟩ := runs_op_bind_iff.1 h
    obtain ⟨hret, hrest⟩ | ⟨hret, hrest⟩ := runs_ite_iff.1 hrest
    · -- the connection is closed before the reply
      obtain ⟨tr₁, _, c₁, tr₂, rfl, hclose, hreply⟩ := runs_bind_iff.1 hrest
      obtain ⟨hcontrol, hactive, hcount⟩ := closeClient_runs hclose
      have hopen' : (ClientOp.exec c file (.host call)).1.controlSock ≠ -1 := hopen
      rw [if_neg hopen'] at hcount
      obtain ⟨-, rfl, -, rfl⟩ := runs_op_iff.1 hreply
      refine .inr ⟨⟨_, List.mem_cons_self, hret, ?_⟩, ?_, hcontrol, hactive⟩
      on_goal 2 =>
        rw [← List.singleton_append, closings_append, closings_append, hcount]
        rfl
      exact hcall.imp (fun ⟨path, h⟩ => ⟨path, by rw [h]⟩) fun ⟨path, h⟩ => ⟨path, by rw [h]⟩
    · have hend : Yields (Answered 1) (do
          sendAll file
          let _ ← doOp (.sys .data .close)
          doOp (.clear .data)
          reply "226 Transfer complete") := by
        refine .after (skips_answered 1) (hsend file) fun _ => ?_
        refine .after (skips_answered 1) (calls_op (by simp [ClientOp.Quiet])) fun _ => ?_
        refine .after (skips_answered 1) (calls_op (by simp [ClientOp.Quiet])) fun _ => ?_
        exact yields_reply (by decide)
      refine .inl ((hend c tr' a c' hopen hrest).cons (by simp [answers]) (by simp [kills]) ?_ rfl)
      rintro ⟨e, he, hneg, -⟩
      obtain rfl := List.mem_singleton.1 he
      exact hret hneg
  · exact (yields_reply (by decide)).mono .inl

theorem yields_handleList (cfg : LuftpdConfig) (arg : Bytes) :
    Yields Transferred (luftpdHandleList cfg arg) :=
  yields_withFile cfg arg _ skips_transferred .inl (by decide) fun path _ =>
    yields_transfer (by decide) (.inl ⟨path, rfl⟩) fun _ =>
      .forEach fun name => quiet_of_inner (inner_listEntry path name)

theorem yields_handleRetr (cfg : LuftpdConfig) (arg : Bytes) :
    Yields Transferred (luftpdHandleRetr cfg arg) :=
  yields_withFile cfg arg _ skips_transferred .inl (by decide) fun path _ =>
    yields_transfer (by decide) (.inr ⟨path, rfl⟩) fun _ =>
      .forEach fun piece => quiet_of_inner (inner_retrPiece piece)

theorem not_listening_of_quiet {α : Type} {s : ClientScript α} (hs : s.Calls ClientOp.Quiet)
    {c c' : LuftpdClient} {tr : ClientTrace} {a : α} (h : s.Runs ClientOp.exec c tr a c') :
    ¬ Listening tr := by
  rintro ⟨e, he, -, hop⟩
  have hquiet := (silent_of_calls hs h).quiet e he
  rw [hop] at hquiet
  exact hquiet.1 rfl

theorem passive_quiet {s : ClientScript Unit} (hs : s.Calls ClientOp.Quiet) : Yields Passive s :=
  fun c tr a c' hopen h => .inr ⟨not_listening_of_quiet hs h, yields_quiet hs c tr a c' hopen h⟩

theorem completes_pasvReply (cfg : LuftpdConfig) (port : Int) :
    completes (textBytes (pasvReply cfg port)) = true := by
  unfold pasvReply
  dsimp only
  simp only [textBytes, String.toList_append, List.map_append, List.append_assoc]
  exact completes_append _ (by decide)

theorem yields_enterPasvMode (cfg : LuftpdConfig) : Yields Passive (luftpdEnterPasvMode cfg) := by
  have hclose : (do
      let _ ← doOp (.sys .pasv .close)
      doOp (.clear .pasv)).Calls ClientOp.Quiet :=
    .op_bind (by simp [ClientOp.Quiet]) fun _ => calls_op (by simp [ClientOp.Quiet])
  refine .after skips_passive (quiet_of_inner (inner_closeSock (by simp))) fun _ => ?_
  refine .after skips_passive (calls_op trivial) fun sock => ?_
  refine .after skips_passive (calls_op trivial) fun _ => ?_
  refine .after skips_passive (calls_op trivial) fun fd => .ite (passive_quiet (calls_pure _)) ?_
  refine .after skips_passive (quiet_of_inner (inner_bindLoop _ _)) fun port => ?_
  cases port with
  | none => exact passive_quiet hclose
  | some port =>
    intro c tr a c' hopen h
    obtain ⟨os, tr', rfl, hrest⟩ := runs_op_bind_iff.1 h
    have hfile : ¬ FileRefused [⟨c, .sys .pasv .listen, os⟩] := by simp [FileRefused]
    obtain ⟨hret, hrest⟩ | ⟨hret, hrest⟩ := runs_ite_iff.1 hrest
    · have hans := yields_quiet hclose c tr' a c' hopen hrest
      refine .inr ⟨?_, hans.cons (by simp [answers]) (by simp [kills]) hfile rfl⟩
      rintro ⟨e, he, hpos, hop⟩
      obtain _ | ⟨_, he⟩ := he
      · exact absurd hpos (Int.not_le.2 hret)
      · exact not_listening_of_quiet hclose hrest ⟨e, he, hpos, hop⟩
    · have hans := yields_respond (completes_pasvReply cfg port) c tr' a c' hopen hrest
      exact .inl ⟨⟨_, List.mem_cons_self, Int.not_lt.1 hret, rfl⟩,
        hans.cons (by simp [answers]) (by simp [kills]) hfile rfl⟩

end Handlers

/-! ## A turn -/

/-- A part of a turn, after which the loop goes on or not. -/
def Handles (Q : LuftpdClient → ClientTrace → LuftpdClient → Prop) (goesOn : Bool)
    (s : ClientScript Bool) : Prop :=
  ∀ c tr more c', c.controlSock ≠ -1 → s.Runs ClientOp.exec c tr more c' →
    more = goesOn ∧ Q c tr c'

/-- A handler, and what it means for the loop. -/
theorem Handles.of_yields {Q : LuftpdClient → ClientTrace → LuftpdClient → Prop}
    {s : ClientScript Unit} (h : Yields Q s) (goesOn : Bool) :
    Handles Q goesOn (do s; return goesOn) := by
  intro c tr more c' hopen hrun
  obtain ⟨tr₁, a, c₁, tr₂, rfl, h₁, h₂⟩ := Script.runs_bind_iff.1 hrun
  obtain ⟨rfl, rfl, rfl⟩ := Script.runs_pure_iff.1 h₂
  rw [List.append_nil]
  exact ⟨rfl, h c tr₁ a c' hopen h₁⟩

theorem handles_pasv (cfg : LuftpdConfig) (argument : Bytes) :
    Handles Passive true (luftpdHandleCommand cfg (textBytes "PASV") argument) :=
  .of_yields (yields_enterPasvMode cfg) true

theorem handles_quit (cfg : LuftpdConfig) (argument : Bytes) :
    Handles (Answered 1) false (luftpdHandleCommand cfg (textBytes "QUIT") argument) :=
  .of_yields (yields_reply (by decide)) false

/-- The other commands. -/
theorem handles_command {cfg : LuftpdConfig} {command : Bytes} (argument : Bytes)
    (hpasv : command ≠ textBytes "PASV") (hquit : command ≠ textBytes "QUIT") :
    Handles Transferred true (luftpdHandleCommand cfg command argument) := by
  have hanswered : ∀ {s : ClientScript Unit}, Yields (Answered 1) s →
      Handles Transferred true (do s; return true) :=
    fun h => .of_yields (h.mono .inl) true
  have hreply : ∀ {text : String}, completes (textBytes text) = true →
      Handles Transferred true (do reply text; return true) :=
    fun h => hanswered (yields_reply h)
  have hpwd : Yields (Answered 1) (do
      let currentDir ← doOp .currentDir
      luftpdRespond (textBytes "257 \"" ++ currentDir ++ textBytes "\"")) := by
    refine .after (skips_answered 1) (Script.calls_op trivial) fun dir => yields_respond ?_
    rw [List.append_assoc]
    exact completes_append _ (by decide)
  refine iteInduction (fun _ => hreply (by decide)) fun _ => ?_
  refine iteInduction (fun _ => hreply (by decide)) fun _ => ?_
  refine iteInduction (fun _ => hreply (by decide)) fun _ => ?_
  refine iteInduction (fun _ => hanswered yields_handleFeat) fun _ => ?_
  refine iteInduction (fun _ => hanswered hpwd) fun _ => ?_
  refine iteInduction (fun _ => hanswered (yields_handleCwd cfg _)) fun _ => ?_
  refine iteInduction (fun _ => hanswered (yields_handleType _)) fun _ => ?_
  refine iteInduction (fun h => absurd h hpasv) fun _ => ?_
  refine iteInduction (fun _ => .of_yields (yields_handleList cfg _) true) fun _ => ?_
  refine iteInduction (fun _ => .of_yields (yields_handleRetr cfg _) true) fun _ => ?_
  refine iteInduction (fun _ => hanswered (yields_handleSize cfg _)) fun _ => ?_
  exact iteInduction (fun h => absurd h hquit) fun _ => hreply (by decide)

/-- The reply a command is owed, and the connection kept. -/
structure Completed (command : Bytes) (tr : ClientTrace) (more : Bool) (c' : LuftpdClient) :
    Prop where
  once : completions (lived tr) = 1
  stays : command = textBytes "QUIT" ∨
    ¬ Killed tr ∧ more = true ∧ c'.isActive = true ∧ c'.controlSock ≠ -1

/-- A command with its own reply. -/
theorem Answered.completed_iff {command : Bytes} {c c' : LuftpdClient} {tr : ClientTrace}
    {more : Bool} (h : Answered 1 c tr c') (hactive : c.isActive = true)
    (hopen : c.controlSock ≠ -1) (hmore : command ≠ textBytes "QUIT" → more = true) :
    Completed command tr more c' ↔ ¬ Killed tr := by
  constructor
  · intro hc hk
    exact absurd ((h.killed hk).symm.trans hc.once) (by decide)
  · intro hk
    refine ⟨by rw [lived_of_not_killed hk]; exact h.replies, ?_⟩
    by_cases hquit : command = textBytes "QUIT"
    · exact .inl hquit
    · exact .inr ⟨hk, hmore hquit, h.same.active.trans hactive, by rwa [h.same.control]⟩

/-- A command is answered once and the connection kept, unless a file cannot be opened, `PASV` gets
no socket, or the process is killed. -/
theorem completed_iff {cfg : LuftpdConfig} {command argument : Bytes} {c c' : LuftpdClient}
    {tr : ClientTrace} {more : Bool} (hactive : c.isActive = true) (hopen : c.controlSock ≠ -1)
    (h : (luftpdHandleCommand cfg command argument).Runs ClientOp.exec c tr more c') :
    Completed command tr more c' ↔
      ¬ FileRefused tr ∧ ¬ Killed tr ∧ (command = textBytes "PASV" → Listening tr) := by
  by_cases hpasv : command = textBytes "PASV"
  · subst hpasv
    obtain ⟨rfl, ⟨hl, hans⟩ | ⟨hl, hans⟩⟩ := handles_pasv cfg argument c tr more c' hopen h
    · rw [hans.completed_iff hactive hopen fun _ => rfl]
      exact ⟨fun hk => ⟨hans.files, hk, fun _ => hl⟩, fun hc => hc.2.1⟩
    · refine iff_of_false (fun hc => ?_) fun hc => hl (hc.2.2 rfl)
      have hzero : completions (lived tr) = 0 := by
        by_cases hk : Killed tr
        · exact hans.killed hk
        · rw [lived_of_not_killed hk]
          exact hans.replies
      exact absurd (hzero.symm.trans hc.once) (by decide)
  by_cases hquit : command = textBytes "QUIT"
  · subst hquit
    obtain ⟨-, hans⟩ := handles_quit cfg argument c tr more c' hopen h
    rw [hans.completed_iff hactive hopen fun hno => absurd rfl hno]
    exact ⟨fun hk => ⟨hans.files, hk, fun h => absurd h hpasv⟩, fun hc => hc.2.1⟩
  obtain ⟨hmore, hans | hdrop⟩ := handles_command argument hpasv hquit c tr more c' hopen h
  · rw [hans.completed_iff hactive hopen fun _ => hmore]
    exact ⟨fun hk => ⟨hans.files, hk, fun h => absurd h hpasv⟩, fun hc => hc.2.1⟩
  · refine iff_of_false (fun hc => ?_) fun hc => hc.1 hdrop.files
    obtain h | ⟨-, -, -, hstays⟩ := hc.stays
    · exact hquit h
    · exact hstays hdrop.control

/-! ## Sessions -/

/-- Without a refused file the connection is kept, and with one it is given up. -/
theorem kept_or_dropped {cfg : LuftpdConfig} {command argument : Bytes} {c c' : LuftpdClient}
    {tr : ClientTrace} {more : Bool} (hopen : c.controlSock ≠ -1)
    (h : (luftpdHandleCommand cfg command argument).Runs ClientOp.exec c tr more c') :
    (∃ n, Answered n c tr c') ∨ Dropped tr c' := by
  by_cases hpasv : command = textBytes "PASV"
  · subst hpasv
    obtain ⟨-, ⟨-, hans⟩ | ⟨-, hans⟩⟩ := handles_pasv cfg argument c tr more c' hopen h
    · exact .inl ⟨1, hans⟩
    · exact .inl ⟨0, hans⟩
  by_cases hquit : command = textBytes "QUIT"
  · subst hquit
    exact .inl ⟨1, (handles_quit cfg argument c tr more c' hopen h).2⟩
  obtain ⟨-, hans | hdrop⟩ := handles_command argument hpasv hquit c tr more c' hopen h
  · exact .inl ⟨1, hans⟩
  · exact .inr hdrop

/-- A turn that has received something has handled it as a command. -/
theorem serve_received {cfg : LuftpdConfig} {c c' : LuftpdClient} {tr : ClientTrace} {more : Bool}
    {line : Bytes} (hturn : (luftpdServe cfg).Runs ClientOp.exec c tr more c')
    (hline : received tr = some line) :
    c.isActive = true ∧ ∃ tr₀ tr', tr = tr₀ ++ tr' ∧ Silent c tr₀ c ∧ ¬ Killed tr₀ ∧
      (luftpdHandleCommand cfg (commandOf line).1 (commandOf line).2).Runs ClientOp.exec c tr' more
        c' := by
  obtain ⟨-, -, -, e, rfl⟩ | ⟨hactive, e, os, tr', rfl, hkind⟩ := serve_runs_iff.1 hturn
  · simp [received] at hline
  obtain ⟨hret, -, -, rfl⟩ | ⟨hret, hcommand⟩ := hkind
  · simp [received, Int.not_lt.2 hret] at hline
  obtain rfl : os.bytes = line := by simpa [received, hret] using hline
  exact ⟨hactive, [⟨c, .isActive, e⟩, ⟨c, .sys .control .recv, os⟩], tr', rfl,
    ⟨by simp [ClientOp.Quiet], .refl c⟩, by simp [Killed, kills], hcommand⟩

/-- At the head of the loop an active session has an open control connection. -/
theorem Awaits.open {cfg : LuftpdConfig} {c : LuftpdClient} (h : Awaits cfg c)
    (hactive : c.isActive = true) : c.controlSock ≠ -1 := by
  refine h.invariant (fun c => c.isActive = true → c.controlSock ≠ -1) ?_ ?_ hactive
  · intro sock threadId hsock _
    simp only [newClient]
    omega
  · intro c tr c' hc hrun hactive'
    obtain ⟨-, hmore, -⟩ | ⟨hactive, e, os, tr', -, ⟨-, hmore, -⟩ | ⟨-, hcommand⟩⟩ :=
      serve_runs_iff.1 hrun
    · cases hmore
    · cases hmore
    · obtain ⟨n, hans⟩ | hdrop := kept_or_dropped (hc hactive) hcommand
      · rw [hans.same.control]
        exact hc hactive
      · exact absurd (hdrop.active.symm.trans hactive') (by decide)

/-- What a turn that has received something does to the connection. -/
theorem Awaits.kept_or_dropped {cfg : LuftpdConfig} {c c' : LuftpdClient} {tr : ClientTrace}
    {more : Bool} {line : Bytes} (hsession : Awaits cfg c)
    (hturn : (luftpdServe cfg).Runs ClientOp.exec c tr more c') (hline : received tr = some line) :
    (∃ n, Answered n c tr c') ∨ Dropped tr c' := by
  obtain ⟨hactive, tr₀, tr', rfl, hquiet, -, hcommand⟩ := serve_received hturn hline
  obtain ⟨n, hans⟩ | hdrop := Luftpd.kept_or_dropped (hsession.open hactive) hcommand
  · exact .inl ⟨n, skips_answered n hquiet hans⟩
  · exact .inr ⟨hquiet.fileRefused_append.2 hdrop.files,
      hquiet.closings_append.trans hdrop.closings, hdrop.control, hdrop.active⟩

/-- **A turn of a session answers its command exactly once and keeps the connection, if and only if
no `opendir()` or `fopen()` fails in it, no `send()` on the data connection ends the process and,
for `PASV`, a `listen()` succeeds.** -/
theorem one_completion_iff (cfg : LuftpdConfig) {c c' : LuftpdClient} {tr : ClientTrace}
    {more : Bool} {line : Bytes} (hsession : Awaits cfg c)
    (hturn : (luftpdServe cfg).Runs ClientOp.exec c tr more c') (hline : received tr = some line) :
    Completed (commandOf line).1 tr more c' ↔
      ¬ FileRefused tr ∧ ¬ Killed tr ∧
        ((commandOf line).1 = textBytes "PASV" → Listening tr) := by
  obtain ⟨hactive, tr₀, tr', rfl, hquiet, hcalls, hcommand⟩ := serve_received hturn hline
  have hkilled : Killed (tr₀ ++ tr') ↔ Killed tr' :=
    killed_append_iff.trans (or_iff_right hcalls)
  have hskip : Completed (commandOf line).1 (tr₀ ++ tr') more c' ↔
      Completed (commandOf line).1 tr' more c' := by
    have honce : completions (lived (tr₀ ++ tr')) = completions (lived tr') := by
      rw [lived_append_of_not_killed tr' hcalls, hquiet.completions_append]
    constructor
    · exact fun h => ⟨honce.symm.trans h.once,
        h.stays.imp_right fun hs => ⟨mt hkilled.2 hs.1, hs.2⟩⟩
    · exact fun h => ⟨honce.trans h.once,
        h.stays.imp_right fun hs => ⟨mt hkilled.1 hs.1, hs.2⟩⟩
  exact hskip.trans ((completed_iff hactive (hsession.open hactive) hcommand).trans
    (and_congr (not_congr hquiet.fileRefused_append.symm)
      (and_congr (not_congr hkilled.symm)
        (imp_congr_right fun _ => hquiet.listening_append.symm))))

/-- A client that sends one line, and nothing else that matters: all the other calls return
`ret`. -/
def oneLine (line : Bytes) (ret : Int) (calls : ℕ) : List OsAnswer :=
  { ret := 0, fs := .ofTable [] } :: { ret := line.length, fs := .ofTable [], bytes := line } ::
    List.replicate calls { ret := ret, fs := .ofTable [] }

/-- `PASV`, the first command of a client. -/
def passiveAnswers : List OsAnswer :=
  let quiet : OsAnswer := { ret := 0, fs := oneFile }
  [quiet, { ret := 6, fs := oneFile, bytes := textBytes "PASV\r\n" }, quiet,
    { ret := 5, fs := oneFile }, quiet, quiet, quiet, quiet, quiet]

/-- `RETR f`, after `PASV`; a `send()` that returns -1 raises `SIGPIPE`. -/
def retrTurnAnswers (sent : Int) : List OsAnswer :=
  { ret := 0, fs := oneFile } :: { ret := 8, fs := oneFile, bytes := textBytes "RETR f\r\n" } ::
    (retrAnswers sent).map fun os => { os with sigpipe := decide (os.ret < 0) }

theorem pasv_turn : ∃ tr : ClientTrace,
    (luftpdServe rootConfig).Runs ClientOp.exec (newClient 4 0) tr true passiveClient ∧
      received tr = some (textBytes "PASV\r\n") ∧ ¬ FileRefused tr ∧ ¬ Killed tr ∧
      Listening tr := by
  obtain ⟨tr, more, c', hrun, hp⟩ := Script.exists_runs ClientOp.exec
    (luftpdServe rootConfig) (newClient 4 0) passiveAnswers
    (fun tr more c' => decide (more = true ∧ c' = passiveClient ∧
      received tr = some (textBytes "PASV\r\n") ∧ ¬ FileRefused tr ∧ ¬ Killed tr ∧ Listening tr))
    (by decide +kernel)
  obtain ⟨rfl, rfl, hturn⟩ := of_decide_eq_true hp
  exact ⟨tr, hrun, hturn⟩

/-- `PASV` and `RETR f`: both are answered, unless the client closes the data connection before it
has got the file. -/
theorem one_completion_iff_retr :
    (∃ tr, Completed (textBytes "PASV") tr true passiveClient) ∧
      (∃ (tr : ClientTrace) (more : Bool) (c' : LuftpdClient),
        (luftpdServe rootConfig).Runs ClientOp.exec passiveClient tr more c' ∧
          Completed (textBytes "RETR") tr more c') ∧
      ∃ (tr : ClientTrace) (more : Bool) (c' : LuftpdClient),
        (luftpdServe rootConfig).Runs ClientOp.exec passiveClient tr more c' ∧
          ¬ FileRefused tr ∧ ¬ Completed (textBytes "RETR") tr more c' := by
  have hpasv : commandOf (textBytes "PASV\r\n") = (textBytes "PASV", []) := by decide
  have hretr : commandOf (textBytes "RETR f\r\n") = (textBytes "RETR", textBytes "f") := by decide
  obtain ⟨tr₀, hrun₀, hline₀, hfiles₀, hlives₀, hlistening⟩ := pasv_turn
  have hnew : Awaits rootConfig (newClient 4 0) := awaits_new 0 (by decide)
  have hpassive : Awaits rootConfig passiveClient := hnew.turn hrun₀
  refine ⟨⟨tr₀, ?_⟩, ?_, ?_⟩
  · have hiff := one_completion_iff rootConfig hnew hrun₀ hline₀
    rw [hpasv] at hiff
    exact hiff.2 ⟨hfiles₀, hlives₀, fun _ => hlistening⟩
  · obtain ⟨tr, more, c', hrun, hp⟩ := Script.exists_runs ClientOp.exec
      (luftpdServe rootConfig) passiveClient (retrTurnAnswers 4)
      (fun tr _ _ => decide (received tr = some (textBytes "RETR f\r\n") ∧ ¬ FileRefused tr ∧
        ¬ Killed tr)) (by decide +kernel)
    obtain ⟨hline, hfiles, hlives⟩ := of_decide_eq_true hp
    have hiff := one_completion_iff rootConfig hpassive hrun hline
    rw [hretr] at hiff
    exact ⟨tr, more, c', hrun, hiff.2 ⟨hfiles, hlives, fun h => absurd h (by decide)⟩⟩
  · obtain ⟨tr, more, c', hrun, hp⟩ := Script.exists_runs ClientOp.exec
      (luftpdServe rootConfig) passiveClient (retrTurnAnswers (-1))
      (fun tr _ _ => decide (received tr = some (textBytes "RETR f\r\n") ∧ ¬ FileRefused tr ∧
        Killed tr)) (by decide +kernel)
    obtain ⟨hline, hfiles, hkilled⟩ := of_decide_eq_true hp
    have hiff := one_completion_iff rootConfig hpassive hrun hline
    rw [hretr] at hiff
    exact ⟨tr, more, c', hrun, hfiles, fun hc => (hiff.1 hc).2.1 hkilled⟩

/-- **`PASV` without an answer**: there is no socket for it, and the client waits for a reply that
does not come. -/
theorem pasv_unanswered : ∃ (c c' : LuftpdClient) (tr : ClientTrace),
    Awaits defaultConfig c ∧ (luftpdServe defaultConfig).Runs ClientOp.exec c tr true c' ∧
      received tr = some (textBytes "PASV\r\n") ∧ c'.controlSock = 4 ∧ completions tr = 0 := by
  obtain ⟨tr, more, c', hrun, hp⟩ := Script.exists_runs ClientOp.exec
    (luftpdServe defaultConfig) (newClient 4 0) (oneLine (textBytes "PASV\r\n") (-1) 4)
    (fun tr more c' => decide (received tr = some (textBytes "PASV\r\n") ∧ c'.controlSock = 4 ∧
      completions tr = 0 ∧ more = true)) (by decide +kernel)
  obtain ⟨hline, hcontrol, hnone, rfl⟩ := of_decide_eq_true hp
  exact ⟨_, c', tr, awaits_new 0 (by decide), hrun, hline, hcontrol, hnone⟩

end Lucp.Luftpd
