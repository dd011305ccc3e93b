import Lucp.General.Ledger
import Lucp.Luftpd.Transfer
import Mathlib.Algebra.Order.Group.Multiset
import Mathlib.Tactic.Abel

/-!
# The descriptors of a session

A client thread owns the descriptor of its connection from the start; `accept()` and `socket()` give
it others.  The books say which descriptors a session has been given and which it has closed, and
which listener the last successful `PASV` has opened.

## What is here

* `Books`, `bookedSession` — a session with its books; `exists_booked` says that they do not get in
  its way.
* `Tallies` — what the books say is owned is what is in the record.  The lemmas named `guards_…`
  say that each part of a thread keeps it that way.
* `descriptor_life_cycle` — **every descriptor is closed once**, and none that is not owned.
-/

set_option autoImplicit false

namespace Lucp.Luftpd

open Script

/-! ## The books -/

/-- What a session has been given and has given back. -/
structure Books where
  log : List (Ledger.Entry Int)
  /-- The listener of the last successful `PASV`, until a connection is accepted from it. -/
  listener : Option Int

/-- A descriptor that a call returns is entered, a failure is not. -/
def Books.acquire (b : Books) (fd : Int) : Books :=
  if 0 ≤ fd then { b with log := b.log ++ [.acquired fd] } else b

/-- The books after an operation on the record `c`. -/
def Books.note (b : Books) (c : LuftpdClient) (os : OsAnswer) : ClientOp → Books
  | .host .socket => b.acquire os.ret
  | .sys _ .accept => { b.acquire os.ret with listener := none }
  | .sys f .listen => if 0 ≤ os.ret then { b with listener := some (c.sock f) } else b
  | .sys f .close => { b with log := b.log ++ [.released (c.sock f)] }
  | _ => b

/-- The books after what a thread does next, which need not be an operation. -/
def Books.after (b : Books) (c : LuftpdClient) (os : OsAnswer) : Option ClientOp → Books
  | none => b
  | some o => b.note c os o

/-- A session and its books. -/
structure BookedSession where
  session : FtpSession
  books : Books

/-- The runs of a session, with the books. -/
def bookedSession (cfg : LuftpdConfig) : System BookedSession OsAnswer where
  init s := (clientSession cfg).init s.session ∧
    s.books = ⟨[.acquired s.session.client.controlSock], none⟩
  step s os s' := (clientSession cfg).step s.session os s'.session ∧
    s'.books = s.books.after s.session.client os s.session.pc.next

/-- **Every run of a session can be booked.** -/
theorem exists_booked {cfg : LuftpdConfig} {s s' : FtpSession} {es : List OsAnswer}
    (h : (clientSession cfg).Run s es s') (b : Books) :
    ∃ b', (bookedSession cfg).Run ⟨s, b⟩ es ⟨s', b'⟩ := by
  induction h generalizing b with
  | nil s => exact ⟨b, .nil _⟩
  | cons hs _ ih =>
    obtain ⟨b', hrun⟩ := ih _
    exact ⟨b', .cons ⟨hs, rfl⟩ hrun⟩

/-! ## What is owned -/

/-- The descriptor in a field, if there is one. -/
def descriptor (fd : Int) : Multiset Int := if fd = -1 then 0 else {fd}

/-- The descriptors in the fields of a record. -/
def descriptors (sock : SockField → Int) : Multiset Int :=
  descriptor (sock .control) + descriptor (sock .data) + descriptor (sock .pasv)

/-- What is owned is what is in the record. -/
def Tallies (sock : SockField → Int) (b : Books) : Prop :=
  Ledger.held b.log = some (descriptors sock)

/-- Nothing has been closed that was not owned. -/
def Books.Sound (b : Books) : Prop := (Ledger.held b.log).isSome

/-- Nothing is owned any more. -/
def Books.Settled (b : Books) : Prop := Ledger.held b.log = some 0

/-- Between two commands there is no data connection, and no listener but that of the last
successful `PASV`. -/
structure AtRest (sock : SockField → Int) (b : Books) : Prop where
  tallies : Tallies sock b
  data : sock .data = -1
  pasv : sock .pasv = -1 ∨ b.listener = some (sock .pasv)

variable {sock : SockField → Int} {b : Books}

theorem Tallies.sound (h : Tallies sock b) : b.Sound := by
  rw [Books.Sound, show Ledger.held b.log = _ from h]
  rfl

theorem Books.Settled.sound (h : b.Settled) : b.Sound := by
  rw [Books.Sound, show Ledger.held b.log = _ from h]
  rfl

theorem AtRest.sound (h : AtRest sock b) : b.Sound := h.tallies.sound

/-- A field is filled. -/
theorem descriptors_update {f : SockField} (h : sock f = -1) (fd : Int) :
    descriptors (Function.update sock f fd) = descriptor fd + descriptors sock := by
  have hempty : descriptor (-1) = 0 := rfl
  cases f <;> simp [descriptors, h, hempty] <;> abel

/-- A field is emptied. -/
theorem descriptors_of_ne {f : SockField} (h : sock f ≠ -1) :
    descriptors sock = sock f ::ₘ descriptors (Function.update sock f (-1)) := by
  have hempty : Function.update sock f (-1) f = -1 := Function.update_self f (-1) sock
  have hback := descriptors_update hempty (sock f)
  rw [Function.update_idem, Function.update_eq_self] at hback
  rw [hback, descriptor, if_neg h, Multiset.singleton_add]

theorem Tallies.acquire {f : SockField} (h : Tallies sock b) (hf : sock f = -1) {fd : Int}
    (hfd : -1 ≤ fd) : Tallies (Function.update sock f fd) (b.acquire fd) := by
  rw [Tallies, Books.acquire, descriptors_update hf]
  by_cases hpos : 0 ≤ fd
  · rw [if_pos hpos, descriptor, if_neg (by omega), Multiset.singleton_add]
    exact Ledger.held_acquire h fd
  · obtain rfl : fd = -1 := by omega
    rw [if_neg hpos, descriptor, if_pos rfl, zero_add]
    exact h

theorem Tallies.release {f : SockField} (h : Tallies sock b) (hf : sock f ≠ -1) :
    Tallies (Function.update sock f (-1)) { b with log := b.log ++ [.released (sock f)] } := by
  rw [Tallies, descriptors_of_ne hf] at h
  exact Ledger.held_release h

/-! ## The parts of a thread -/

/-- An operation, with the books kept. -/
def booked (st : LuftpdClient × Books) (os : OsAnswer) (o : ClientOp) :
    (LuftpdClient × Books) × o.Ans :=
  (((o.exec st.1 os).1, st.2.note st.1 os o), (o.exec st.1 os).2)

/-- In a world where a call that fails returns -1, the script closes nothing that is not owned, and
ends with `Q` of the sockets and the books. -/
abbrev Guards {α : Type} (script : ClientScript α) (Q : α → (SockField → Int) → Books → Prop)
    (st : LuftpdClient × Books) : Prop :=
  script.Ensures booked (fun os => -1 ≤ os.ret) (fun st => st.2.Sound)
    (fun a st => Q a st.1.sock st.2) st

/-- The operation neither opens nor closes anything, and leaves the sockets alone. -/
def ClientOp.Neutral : ClientOp → Prop
  | .setDataSock _ => False
  | .setPasvSock _ => False
  | .clear _ => False
  | .sys _ .close => False
  | .sys _ .listen => False
  | .sys _ .accept => False
  | .host .socket => False
  | _ => True

theorem sock_clear (c : LuftpdClient) (f : SockField) :
    (c.clear f).sock = Function.update c.sock f (-1) := by
  funext g
  cases f <;> cases g <;> rfl

theorem sock_setDataSock (c : LuftpdClient) (fd : Int) :
    LuftpdClient.sock { c with dataSock := fd } = Function.update c.sock .data fd := by
  funext g
  cases g <;> rfl

theorem sock_setPasvSock (c : LuftpdClient) (fd : Int) :
    LuftpdClient.sock { c with pasvSock := fd } = Function.update c.sock .pasv fd := by
  funext g
  cases g <;> rfl

theorem ClientOp.Neutral.booked_eq {o : ClientOp} (h : o.Neutral) (st : LuftpdClient × Books)
    (os : OsAnswer) :
    (booked st os o).1.1.sock = st.1.sock ∧ (booked st os o).1.2 = st.2 := by
  cases o with
  | setDataSock fd => exact h.elim
  | setPasvSock fd => exact h.elim
  | clear f => exact h.elim
  | sys f what =>
    cases what with
    | close => exact h.elim
    | listen => exact h.elim
    | accept => exact h.elim
    | _ => exact ⟨rfl, rfl⟩
  | host what =>
    cases what with
    | socket => exact h.elim
    | _ => exact ⟨rfl, rfl⟩
  | _ => exact ⟨funext fun g => by cases g <;> rfl, rfl⟩

/-- **What is true of the sockets and the books stays true while nothing is opened or closed.** -/
theorem guards_of_neutral {α : Type} {J : (SockField → Int) → Books → Prop}
    (hJ : ∀ sock b, J sock b → b.Sound) {script : ClientScript α}
    (hscript : script.Calls ClientOp.Neutral) {st : LuftpdClient × Books} (h : J st.1.sock st.2) :
    Guards script (fun _ => J) st := by
  have hkeep : script.Ensures booked (fun os => -1 ≤ os.ret)
      (fun st => J st.1.sock st.2) (fun _ st => J st.1.sock st.2) st := by
    refine Calls.ensures hscript (fun o ho st os hst => ?_) h
    rw [(ho.booked_eq st os).1, (ho.booked_eq st os).2]
    exact hst
  exact hkeep.weaken fun st => hJ _ _

/-- The sockets and the books of `st`, but that the descriptor in field `f` has been closed. -/
def Closed (st : LuftpdClient × Books) (f : SockField) (sock : SockField → Int) (b : Books) :
    Prop :=
  sock = Function.update st.1.sock f (-1) ∧ Tallies sock b ∧ b.listener = st.2.listener

/-- The rule for closing a descriptor that is there. -/
theorem guards_close {α : Type} {f : SockField} (rest : ClientScript α)
    {Q : α → (SockField → Int) → Books → Prop} {st : LuftpdClient × Books}
    (h : Tallies st.1.sock st.2) (hf : st.1.sock f ≠ -1)
    (hrest : ∀ st', Closed st f st'.1.sock st'.2 → Guards rest Q st') :
    Guards (do let _ ← doOp (.sys f .close); doOp (.clear f); rest) Q st := by
  have hclosed := h.release hf
  refine fun os _ => ⟨hclosed.sound, fun os' _ => ⟨hclosed.sound, ?_⟩⟩
  refine hrest _ ⟨sock_clear st.1 f, ?_, rfl⟩
  rw [← sock_clear] at hclosed
  exact hclosed

theorem guards_closeSock (f : SockField) {st : LuftpdClient × Books}
    (h : Tallies st.1.sock st.2) : Guards (closeSock f) (fun _ => Closed st f) st := by
  refine .op_bind fun os _ => ⟨h.sound, .ite (fun hf => ?_) fun hf => ?_⟩
  · exact guards_close (pure ()) (Q := fun _ => Closed st f) h hf fun st' hclosed => hclosed
  · have hsock : st.1.sock f = -1 := not_not.1 hf
    have hsame : Function.update st.1.sock f (-1) = st.1.sock := by
      rw [← hsock, Function.update_eq_self]
    exact ⟨hsame.symm, h, rfl⟩

/-- The cleanup. -/
theorem guards_closeClient {st : LuftpdClient × Books} (h : Tallies st.1.sock st.2) :
    Guards lufptdCloseClient (fun _ sock b => (∀ f, sock f = -1) ∧ b.Settled) st := by
  refine (guards_closeSock .control h).bind fun _ st₁ h₁ => ?_
  refine (guards_closeSock .data h₁.2.1).bind fun _ st₂ h₂ => ?_
  refine (guards_closeSock .pasv h₂.2.1).bind fun _ st₃ h₃ => ?_
  obtain ⟨hsock₁, -, -⟩ := h₁
  obtain ⟨hsock₂, -, -⟩ := h₂
  obtain ⟨hsock₃, htallies, -⟩ := h₃
  have hall : ∀ f, st₃.1.sock f = -1 := by
    rw [hsock₃, hsock₂, hsock₁]
    intro f
    cases f <;> rfl
  have hsettled : st₃.2.Settled := by
    rw [Tallies, descriptors, hall, hall, hall] at htallies
    exact htallies
  have hneutral : (doOp .deactivate).Calls ClientOp.Neutral := calls_op trivial
  exact guards_of_neutral (J := fun sock b => (∀ f, sock f = -1) ∧ b.Settled)
    (fun _ _ h => h.2.sound) hneutral ⟨hall, hsettled⟩

/-- Closing the listener. -/
theorem Closed.atRest {st : LuftpdClient × Books} (h : Closed st .pasv sock b)
    (hdata : st.1.sock .data = -1) : AtRest sock b := by
  obtain ⟨rfl, htallies, -⟩ := h
  exact ⟨htallies, by simpa using hdata, .inl (by simp)⟩

/-- A listener that is given up again. -/
theorem guards_closeListener {st : LuftpdClient × Books} (h : Tallies st.1.sock st.2)
    (hdata : st.1.sock .data = -1) (hpasv : st.1.sock .pasv ≠ -1) :
    Guards (do let _ ← doOp (.sys .pasv .close); doOp (.clear .pasv)) (fun _ => AtRest) st :=
  guards_close (pure ()) (Q := fun _ => AtRest) h hpasv fun _ hclosed => hclosed.atRest hdata

/-- What `lufptd_create_data_connection` leaves. -/
structure Connected (ok : Bool) (sock : SockField → Int) (b : Books) : Prop where
  tallies : Tallies sock b
  atRest : ok = false → AtRest sock b
  connected : ok = true → sock .data ≠ -1 ∧ sock .pasv = -1

theorem guards_createDataConnection {st : LuftpdClient × Books} (h : AtRest st.1.sock st.2) :
    Guards lufptdCreateDataConnection Connected st := by
  have hno : Connected false st.1.sock st.2 := ⟨h.tallies, fun _ => h, fun h => (nomatch h)⟩
  refine .op_bind fun _ _ => ⟨h.sound, .ite (fun _ => hno) fun hpasv => ?_⟩
  refine .op_bind fun result _ => ⟨h.sound, .ite (fun _ => hno) fun _ => ?_⟩
  refine .op_bind fun conn hconn => ?_
  -- the connection is in the books before it is in the record
  have haccepted := h.tallies.acquire h.data hconn
  refine ⟨haccepted.sound, .op_bind fun _ _ => ⟨haccepted.sound, ?_⟩⟩
  rw [← sock_setDataSock] at haccepted
  refine guards_close _ haccepted hpasv fun st' hclosed => ?_
  obtain ⟨hsock', htallies, -⟩ := hclosed
  refine .op_bind fun _ _ => ⟨htallies.sound, ?_⟩
  have hdata : -1 ≤ st'.1.sock .data := by
    rw [hsock']
    exact hconn
  have hpasv' : st'.1.sock .pasv = -1 := by rw [hsock']; rfl
  refine ⟨htallies, fun hfail => ?_, fun hok => ⟨fun hnone => ?_, hpasv'⟩⟩
  · have hneg : ¬ 0 ≤ st'.1.sock .data := of_decide_eq_false hfail
    have hnone : st'.1.sock .data = -1 := by omega
    exact ⟨htallies, hnone, .inl hpasv'⟩
  · have hpos : 0 ≤ st'.1.sock .data := of_decide_eq_true hok
    rw [show st'.1.sock .data = -1 from hnone] at hpos
    exact absurd hpos (by decide)

/-! ## The handlers -/

theorem guards_neutral {α : Type} {script : ClientScript α}
    (hscript : script.Calls ClientOp.Neutral) {st : LuftpdClient × Books}
    (h : AtRest st.1.sock st.2) : Guards script (fun _ => AtRest) st :=
  guards_of_neutral (fun _ _ => AtRest.sound) hscript h

theorem neutral_respond (text : Bytes) : (luftpdRespond text).Calls ClientOp.Neutral :=
  calls_op trivial

theorem neutral_reply (text : String) : (reply text).Calls ClientOp.Neutral := neutral_respond _

theorem guards_reply (text : String) {st : LuftpdClient × Books} (h : AtRest st.1.sock st.2) :
    Guards (reply text) (fun _ => AtRest) st :=
  guards_neutral (neutral_reply text) h

theorem guards_withFile {cfg : LuftpdConfig} (arg : Bytes) (kind : FileKind) (notFound : String)
    {work : Bytes → OsAnswer → ClientScript Unit} {st : LuftpdClient × Books}
    (h : AtRest st.1.sock st.2) (hwork : ∀ path file st, AtRest st.1.sock st.2 →
      Guards (work path file) (fun _ => AtRest) st) :
    Guards (withFile cfg arg kind notFound work) (fun _ => AtRest) st := by
  refine (guards_neutral (calls_resolve cfg arg trivial trivial) h).bind fun r st₁ h₁ => ?_
  cases r with
  | error e => exact guards_reply _ h₁
  | ok path =>
    refine .op_bind fun file _ => ⟨h₁.sound, .ite (fun _ => guards_reply _ h₁) fun _ => ?_⟩
    exact hwork path file _ h₁

theorem guards_transfer (opening : String) {what : HostCall} (hwhat : what ≠ .socket)
    (failed : String) {sendAll : OsAnswer → ClientScript Unit}
    (hsend : ∀ file, (sendAll file).Calls ClientOp.Neutral) {st : LuftpdClient × Books}
    (h : AtRest st.1.sock st.2) :
    Guards (transfer opening what failed sendAll) (fun _ => AtRest) st := by
  refine (guards_createDataConnection h).bind fun ok st₁ h₁ => ?_
  refine .ite (fun hok => ?_) fun hno => guards_reply _ (h₁.atRest (by simpa using hno))
  obtain ⟨hdata, hpasv⟩ := h₁.connected hok
  -- while the data connection is open, it is in the record and the listener is gone
  let J (sock : SockField → Int) (b : Books) : Prop :=
    Tallies sock b ∧ sock .data ≠ -1 ∧ sock .pasv = -1
  have hJ : ∀ sock b, J sock b → b.Sound := fun _ _ h => h.1.sound
  refine (guards_of_neutral hJ (neutral_reply opening) ⟨h₁.tallies, hdata, hpasv⟩).bind
    fun _ st₂ h₂ => ?_
  have hfile (os : OsAnswer) : J (booked st₂ os (.host what)).1.1.sock
      (booked st₂ os (.host what)).1.2 := by
    cases what with
    | socket => exact absurd rfl hwhat
    | _ => exact h₂
  refine .op_bind fun file _ => ⟨(hfile file).1.sound, .ite (fun _ => ?_) fun _ => ?_⟩
  · refine (guards_closeClient (hfile file).1).bind fun _ st₃ h₃ => ?_
    refine guards_reply _ ⟨?_, h₃.1 .data, .inl (h₃.1 .pasv)⟩
    rw [Tallies, descriptors, h₃.1, h₃.1, h₃.1]
    exact h₃.2
  · refine (guards_of_neutral hJ (hsend file) (hfile file)).bind fun _ st₃ h₃ => ?_
    refine guards_close _ h₃.1 h₃.2.1 fun st₄ hclosed => ?_
    obtain ⟨hsock, htallies, -⟩ := hclosed
    refine guards_reply _ ⟨htallies, ?_, .inl ?_⟩
    · rw [hsock, Function.update_self]
    · rw [hsock, Function.update_of_ne (by decide), h₃.2.2]

theorem neutral_bindLoop (left : ℕ) (port : Int) : (bindLoop left port).Calls ClientOp.Neutral :=
  calls_bindLoop left port (fun _ => trivial) trivial

theorem guards_enterPasvMode (cfg : LuftpdConfig) {st : LuftpdClient × Books}
    (h : AtRest st.1.sock st.2) : Guards (luftpdEnterPasvMode cfg) (fun _ => AtRest) st := by
  refine (guards_closeSock .pasv h.tallies).bind fun _ st₁ hclosed => ?_
  have h₁ : AtRest st₁.1.sock st₁.2 := hclosed.atRest h.data
  have hnone : st₁.1.sock .pasv = -1 := by rw [hclosed.1, Function.update_self]
  refine .op_bind fun opened hopened => ?_
  -- the new listener is in the books before it is in the record
  have htallies := h₁.tallies.acquire hnone hopened
  refine ⟨htallies.sound, .op_bind fun os _ => ⟨htallies.sound, ?_⟩⟩
  rw [← sock_setPasvSock] at htallies
  refine .op_bind fun _ _ => ⟨htallies.sound, .ite (fun hneg => ?_) fun hpos => ?_⟩
  · have hret : opened.ret < 0 := hneg
    have hret' : -1 ≤ opened.ret := hopened
    exact ⟨htallies, h₁.data, .inl (show opened.ret = -1 by omega)⟩
  · let J (sock : SockField → Int) (b : Books) : Prop :=
      Tallies sock b ∧ sock .data = -1 ∧ sock .pasv ≠ -1
    have hJ : ∀ sock b, J sock b → b.Sound := fun _ _ h => h.1.sound
    have hpasv : opened.ret ≠ -1 := fun heq => hpos (show opened.ret < 0 by omega)
    refine Ensures.bind (guards_of_neutral (J := J) hJ (neutral_bindLoop _ _) ?_)
      fun port st₂ h₂ => ?_
    · exact ⟨htallies, h₁.data, hpasv⟩
    cases port with
    | none => exact guards_closeListener h₂.1 h₂.2.1 h₂.2.2
    | some port =>
      refine .op_bind fun listening _ => ?_
      by_cases hfail : listening.ret < 0
      · have hbooks : (booked st₂ listening (.sys .pasv .listen)).1 = st₂ := by
          have hnot : ¬ 0 ≤ listening.ret := by omega
          simp [booked, ClientOp.exec, Books.note, hnot]
        rw [hbooks]
        refine ⟨h₂.1.sound, .ite (fun _ => ?_) fun hno => absurd hfail hno⟩
        exact guards_closeListener h₂.1 h₂.2.1 h₂.2.2
      · have hbooks : (booked st₂ listening (.sys .pasv .listen)).1
            = (st₂.1, { st₂.2 with listener := some (st₂.1.sock .pasv) }) := by
          have hpos : 0 ≤ listening.ret := by omega
          simp [booked, ClientOp.exec, Books.note, hpos]
        rw [hbooks]
        refine ⟨h₂.1.sound, .ite (fun h => absurd h hfail) fun _ => ?_⟩
        exact guards_neutral (neutral_respond _) ⟨h₂.1, h₂.2.1, .inr rfl⟩

theorem neutral_handleType (arg : Bytes) : (luftpdHandleType arg).Calls ClientOp.Neutral :=
  calls_handleType arg (fun _ => trivial) fun _ => trivial

theorem neutral_handleFeat : luftpdHandleFeat.Calls ClientOp.Neutral :=
  calls_handleFeat fun _ => trivial

theorem neutral_listEntry (path name : Bytes) : (listEntry path name).Calls ClientOp.Neutral :=
  calls_listEntry path name (fun _ => trivial) fun _ => trivial

theorem neutral_retrPiece (piece : Bytes) : (retrPiece piece).Calls ClientOp.Neutral :=
  calls_retrPiece piece trivial

theorem guards_handleCwd (cfg : LuftpdConfig) (arg : Bytes) {st : LuftpdClient × Books}
    (h : AtRest st.1.sock st.2) : Guards (luftpdHandleCwd cfg arg) (fun _ => AtRest) st := by
  refine guards_withFile arg _ _ h fun path file st h => ?_
  refine .op_bind fun stack _ => ⟨h.sound, guards_neutral (.ite ?_ ?_) h⟩
  · exact .op_bind trivial fun _ => neutral_reply _
  · exact .op_bind trivial fun _ => neutral_reply _

theorem guards_handleList (cfg : LuftpdConfig) (arg : Bytes) {st : LuftpdClient × Books}
    (h : AtRest st.1.sock st.2) : Guards (luftpdHandleList cfg arg) (fun _ => AtRest) st :=
  guards_withFile arg _ _ h fun path _ _ h =>
    guards_transfer _ (by simp) _ (fun _ => .forEach fun name => neutral_listEntry path name) h

theorem guards_handleRetr (cfg : LuftpdConfig) (arg : Bytes) {st : LuftpdClient × Books}
    (h : AtRest st.1.sock st.2) : Guards (luftpdHandleRetr cfg arg) (fun _ => AtRest) st :=
  guards_withFile arg _ _ h fun _ _ _ h =>
    guards_transfer _ (by simp) _ (fun _ => .forEach neutral_retrPiece) h

theorem guards_handleSize (cfg : LuftpdConfig) (arg : Bytes) {st : LuftpdClient × Books}
    (h : AtRest st.1.sock st.2) : Guards (luftpdHandleSize cfg arg) (fun _ => AtRest) st :=
  guards_withFile arg _ _ h fun _ _ _ h => guards_neutral (neutral_respond _) h

theorem guards_thenTrue {script : ClientScript Unit} {st : LuftpdClient × Books}
    (h : Guards script (fun _ => AtRest) st) :
    Guards (do script; return true) (fun _ => AtRest) st :=
  h.bind fun _ _ h => h

/-- **A command.** -/
theorem guards_handleCommand (cfg : LuftpdConfig) (command argument : Bytes)
    {st : LuftpdClient × Books} (h : AtRest st.1.sock st.2) :
    Guards (luftpdHandleCommand cfg command argument) (fun _ => AtRest) st := by
  have hpwd : (do
      let currentDir ← doOp .currentDir
      luftpdRespond (textBytes "257 \"" ++ currentDir ++ textBytes "\"")).Calls
        ClientOp.Neutral := .op_bind trivial fun _ => neutral_respond _
  refine .ite (fun _ => guards_thenTrue (guards_reply _ h)) fun _ => ?_
  refine .ite (fun _ => guards_thenTrue (guards_reply _ h)) fun _ => ?_
  refine .ite (fun _ => guards_thenTrue (guards_reply _ h)) fun _ => ?_
  refine .ite (fun _ => guards_thenTrue (guards_neutral neutral_handleFeat h)) fun _ => ?_
  refine .ite (fun _ => guards_thenTrue (guards_neutral hpwd h)) fun _ => ?_
  refine .ite (fun _ => guards_thenTrue (guards_handleCwd cfg argument h)) fun _ => ?_
  refine .ite (fun _ => guards_thenTrue (guards_neutral (neutral_handleType _) h)) fun _ => ?_
  refine .ite (fun _ => guards_thenTrue (guards_enterPasvMode cfg h)) fun _ => ?_
  refine .ite (fun _ => guards_thenTrue (guards_handleList cfg argument h)) fun _ => ?_
  refine .ite (fun _ => guards_thenTrue (guards_handleRetr cfg argument h)) fun _ => ?_
  refine .ite (fun _ => guards_thenTrue (guards_handleSize cfg argument h)) fun _ => ?_
  refine .ite (fun _ => ?_) fun _ => guards_thenTrue (guards_reply _ h)
  exact (guards_reply _ h).bind fun _ _ h => h

/-- **A turn of the loop.** -/
theorem guards_serve (cfg : LuftpdConfig) {st : LuftpdClient × Books} (h : AtRest st.1.sock st.2) :
    Guards (luftpdServe cfg) (fun _ => AtRest) st := by
  refine .op_bind fun _ _ => ⟨h.sound, .ite (fun _ => h) fun _ => ?_⟩
  refine .op_bind fun _ _ => ⟨h.sound, .ite (fun _ => h) fun _ => ?_⟩
  exact guards_handleCommand cfg _ _ h

/-! ## The life of a descriptor -/

/-- What is left of the present part of the thread guards the descriptors. -/
def BookedSession.Guarded (s : BookedSession) : Prop :=
  s.books.Sound ∧
    match s.session.pc with
    | .serving rest => Guards rest (fun _ => AtRest) (s.session.client, s.books)
    | .closing rest => Guards rest (fun _ _ b => b.Settled) (s.session.client, s.books)
    | .removing => s.books.Settled
    | .finished => True

theorem BookedSession.Guarded.init {cfg : LuftpdConfig} {s : BookedSession}
    (h : (bookedSession cfg).init s) : s.Guarded := by
  obtain ⟨⟨c, pc⟩, b⟩ := s
  obtain ⟨⟨sock, threadId, hsock, heq⟩, hbooks⟩ := h
  cases heq
  obtain rfl : b = ⟨[.acquired sock], none⟩ := hbooks
  have hrest : AtRest (newClient sock threadId).sock ⟨[.acquired sock], none⟩ := by
    refine ⟨?_, rfl, .inl rfl⟩
    have hne : sock ≠ -1 := by omega
    simp [Tallies, descriptors, descriptor, LuftpdClient.sock, newClient, hne, Ledger.held,
      Ledger.step]
  have hneutral : luftpdWelcome.Calls ClientOp.Neutral :=
    (neutral_reply _).bind fun _ => calls_pure _
  exact ⟨hrest.sound, guards_neutral hneutral hrest⟩

theorem BookedSession.Guarded.step {cfg : LuftpdConfig} {s s' : BookedSession} {os : OsAnswer}
    (h : s.Guarded) (hos : -1 ≤ os.ret) (hs : (bookedSession cfg).step s os s') : s'.Guarded := by
  obtain ⟨⟨c, pc⟩, b⟩ := s
  obtain ⟨⟨c', pc'⟩, b'⟩ := s'
  obtain ⟨hsound, hrest⟩ := h
  obtain ⟨⟨hrun, heq⟩, hbooks⟩ := hs
  cases heq
  cases hbooks
  cases pc with
  | serving rest =>
    match rest with
    | .done true => exact ⟨hsound, guards_serve cfg hrest⟩
    | .done false =>
      refine ⟨hsound, (guards_closeClient hrest.tallies).mono fun _ _ h => h.2⟩
    | .call o k => exact hrest os hos
  | closing rest =>
    match rest with
    | .done () => exact ⟨hsound, hrest⟩
    | .call o k => exact hrest os hos
  | removing => cases hrun
  | finished => cases hrun

/-- **The life cycle of descriptors**, in a world where a call that fails returns -1: at no time has
anything been closed that was not owned; between two commands there is no data connection, and no
listener but that of the last successful `PASV`; and after the cleanup every descriptor has been
closed as often as it was given. -/
theorem descriptor_life_cycle {cfg : LuftpdConfig} {s₀ s : BookedSession} {es : List OsAnswer}
    (hinit : (bookedSession cfg).init s₀) (hret : ∀ os ∈ es, -1 ≤ os.ret)
    (hrun : (bookedSession cfg).Run s₀ es s) :
    s.books.Sound ∧
      (∀ more, s.session.pc = .serving (.done more) → AtRest s.session.client.sock s.books) ∧
      (s.session.pc = .removing → s.books.Settled ∧
        ∀ fd, s.books.log.count (.acquired fd) = s.books.log.count (.released fd)) := by
  have hguarded : s.Guarded := by
    refine hrun.invariant_of (fun _ os => -1 ≤ os.ret) (fun _ => BookedSession.Guarded)
      (.init hinit) (fun _ _ _ _ _ h hos hs => h.step hos hs) ?_
    rintro fs os gs - rfl -
    exact hret os (by simp)
  obtain ⟨hsound, hrest⟩ := hguarded
  refine ⟨hsound, fun more hpc => ?_, fun hpc => ?_⟩
  · rw [hpc] at hrest
    exact hrest
  · rw [hpc] at hrest
    exact ⟨hrest, fun fd => by simpa using Ledger.count_of_held hrest fd⟩

/-- What a client gets that sends `PASV` and hangs up. -/
def pasvAnswers : List OsAnswer :=
  let quiet : OsAnswer := { ret := 0, fs := .ofTable [] }
  [quiet, quiet, quiet, { ret := 6, fs := .ofTable [], bytes := textBytes "PASV\r\n" }, quiet,
    { ret := 5, fs := .ofTable [] }] ++ List.replicate 18 quiet

theorem descriptor_life_cycle_pasv : ∃ s₀ s : BookedSession,
    (bookedSession rootConfig).Run s₀ pasvAnswers s ∧
      s.books.log = [.acquired 4, .acquired 5, .released 4, .released 5] ∧ s.books.Settled := by
  let advance (s : BookedSession) (os : OsAnswer) : Option BookedSession :=
    if s.session.pc.running then
      some ⟨⟨(s.session.pc.advance rootConfig s.session.client os).1,
        (s.session.pc.advance rootConfig s.session.client os).2⟩,
        s.books.after s.session.client os s.session.pc.next⟩
    else none
  have hadvance : ∀ s os t, advance s os = some t → (bookedSession rootConfig).step s os t := by
    intro s os t h
    by_cases hrunning : s.session.pc.running = true
    · simp only [advance, hrunning, if_true, Option.some.injEq] at h
      rw [← h]
      exact ⟨⟨hrunning, rfl⟩, rfl⟩
    · simp [advance, hrunning] at h
  let start : BookedSession := ⟨⟨newClient 4 1001, .serving luftpdWelcome⟩, ⟨[.acquired 4], none⟩⟩
  obtain ⟨s, hrun, hp⟩ := System.Run.of_exec advance hadvance
    (fun s => (s.session.pc.alive && !s.session.pc.running) &&
      decide (s.books.log = [.acquired 4, .acquired 5, .released 4, .released 5]))
    start pasvAnswers (by decide +kernel)
  rw [Bool.and_eq_true] at hp
  have hpc : s.session.pc = .removing := by
    cases hcase : s.session.pc with
    | removing => rfl
    | _ => simp [hcase, FtpPc.alive, FtpPc.running] at hp
  have hinit : (bookedSession rootConfig).init start := ⟨⟨4, 1001, by decide, rfl⟩, rfl⟩
  exact ⟨start, s, hrun, of_decide_eq_true hp.2,
    ((descriptor_life_cycle hinit (by decide) hrun).2.2 hpc).1⟩

end Lucp.Luftpd
