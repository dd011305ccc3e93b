import Lucp.ServerStage
import Lucp.RetryReply

/-!
# Request and acknowledgement agree

A client that sends one `UPLOAD_REQUEST`, as often as it takes, and one session that answers it.
Two facts carry everything.  What the client has put into its channel is copies of one frame, so
every message the server finds is that request (`wireDecode_framed`).  What the server has handed to
`lucp_net_send` is one of three short lists (`Server.Stage`), and what the client finds is that list
from its beginning (`wireDecode_flatMap`).

`Connection.Inv` says how the bytes in the buffers, in the channels and not yet written add up to
these; `Connection.inv_step` is its step lemma, and `request_ack_agreement` is read off it.
-/

set_option autoImplicit false

namespace Lucp

open Framing

variable {a : RetryArgs}

/-! ## The client's steps -/

theorem accept_flatten (bs : Bytes) (copies : List Bytes) :
    (accept bs copies).reverse.flatten = copies.reverse.flatten ++ bs := by
  cases copies <;> simp [accept]

theorem RetryArgs.loop_sent (recv : RecvState) (copies : List Bytes) (left : ℕ) :
    (a.loop recv copies left).sent = copies.reverse.flatten := by
  rcases a.loop_cases recv copies left with ⟨h, -⟩ | ⟨buf, left', -, -, h⟩ <;>
    simp [h, RetryCall.sent]

theorem RetryArgs.loop_pc (recv : RecvState) (copies : List Bytes) (left : ℕ) :
    (a.loop recv copies left).pc ≠ .returned 0 := by
  rcases a.loop_cases recv copies left with ⟨h, -⟩ | ⟨buf, left', -, -, h⟩ <;> simp [h]

theorem RetryCall.afterRecv_sent (c : RetryCall) (out : RecvState × Option RecvExit) :
    (a.afterRecv c out).sent = c.sent := by
  rw [RetryArgs.afterRecv]
  split
  · rfl
  · split
    · rfl
    · rw [RetryArgs.loop_sent, sent]

/-- A `write()` of the client that does not fail: it stays in its attempt, and the channel gets what
the kernel takes. -/
theorem RetryCall.afterWrite_eq (a : RetryArgs) (c : RetryCall) (buf : Bytes) (written : ℕ)
    {r : WriteResult} (hr : r.NoFailure) : let c' := a.afterWrite c buf written r
      c'.sent = c.sent ++ (buf.drop written).take r.count ∧ c'.recv = c.recv ∧
        c'.pc ≠ .returned 0 := by
  dsimp only
  rw [RetryArgs.afterWrite, fullWriteTurn_of_noFailure hr, fullWriteTest]
  split
  · next heq => split at heq <;> cases heq
  · exact ⟨accept_flatten _ _, rfl, by simp⟩
  · exact ⟨accept_flatten _ _, rfl, by simp⟩

/-- An answer of `write()` that is no failure tears nothing. -/
theorem WriteScan.next_of_noFailure {s : WriteScan} {len : ℕ} {r : WriteResult} (hr : r.NoFailure)
    (h : s.torn = false ∧ s.clean = true) :
    (s.next len (.write r)).torn = false ∧ (s.next len (.write r)).clean = true := by
  cases r with
  | eintr => exact h
  | error => exact absurd rfl hr.1
  | wrote n =>
    have hn : n ≠ 0 := fun hn => hr.2 (by rw [hn])
    simp [next, hn, h.1, h.2]

/-! ## The joint invariant -/

/-- The messages the client has taken off its stream: the reply its call returned with, and those of
its later calls.  (In the call, no message is passed over.) -/
def Connection.consumed (c : Connection) : List Msg :=
  (if c.call.pc = .returned 0 then [c.call.recv.frame.msg] else []) ++ c.received

/-- The bytes the client has not taken yet and the messages they are: those in its buffer, those in
the channel, and those the server has still to write. -/
def Connection.Replies (c : Connection) : Prop :=
  ∃ rest, c.server.sent = c.consumed ++ rest ∧
    c.call.recv.ctx.pending ++ c.s2c ++ c.server.unsent = rest.flatMap Msg.encode

/-- The invariant of the connection. -/
structure Connection.Inv (P : Parties) (c : Connection) : Prop where
  scanned : ∃ s, c.call.Scanned P.client.frame.encode s ∧ s.torn = false ∧ s.clean = true
  safe : c.call.Safe P.client
  later : c.reading = true → c.call.pc = .returned 0 ∧ wireDecode c.call.recv.ctx.pending = .need
  early : c.call.pc ≠ .returned 0 → c.received = []
  stage : c.server.Stage P.cfg P.client.frame
  ready : c.server.Ready P.client.frame.encode c.c2s c.call.sent
  replies : c.Replies

variable {P : Parties} {c : Connection}

/-- What the client has sent is copies of its request. -/
theorem Connection.Inv.framed (h : c.Inv P) : Framed P.client.frame.encode c.call.sent := by
  obtain ⟨s, hs, -, hclean⟩ := h.scanned
  have hne : P.client.frame.encode ≠ [] := by simp [LucpFrame.encode, be32]
  exact (hs.clean.1 hclean).framed hne hs.beginning

/-- A step of the retrying call that writes nothing. -/
theorem Connection.Inv.client (h : c.Inv P) {call : RetryCall} {e : RetryEvent} {s2c : Bytes}
    (hs : RetryStep P.client c.call e call) (hpc : c.call.pc ≠ .returned 0)
    (he : ∀ r, e ≠ .write r) (hsent : call.sent = c.call.sent)
    (hreplies : ({ c with call := call, s2c := s2c } : Connection).Replies) :
    ({ c with call := call, s2c := s2c } : Connection).Inv P := by
  obtain ⟨s, hscan, hclean⟩ := h.scanned
  refine ⟨⟨_, hscan.step hs, ?_⟩, (RetryCall.inTime_step h.safe hs).1,
    fun hr => absurd (h.later hr).1 hpc, fun _ => h.early hpc, h.stage, ?_, hreplies⟩
  · cases e with
    | write r => exact absurd rfl (he r)
    | select r => exact hclean
    | read r => exact hclean
  · dsimp only
    rw [hsent]
    exact h.ready

/-- The head of what the server sends is the reply the client waits for. -/
theorem Connection.Inv.awaited (h : c.Inv P) (hcmd : P.client.expectCmd = lucpMtypAckStart)
    {m : Msg} {ms : List Msg} (hsent : c.server.sent = m :: ms) : P.client.Awaited m = true := by
  obtain ⟨h1, h2⟩ := h.stage.head hsent
  simp [RetryArgs.Awaited, hcmd, h1, h2]

/-- **The call takes the first message of the server, and returns 0 with it.** -/
theorem Connection.Inv.replies_recv (h : c.Inv P) (hcmd : P.client.expectCmd = lucpMtypAckStart)
    (hpc : c.call.pc ≠ .returned 0) {out : RecvState × Option RecvExit} {s2c : Bytes}
    (hout : RecvOutcome c.call.recv c.s2c out s2c) :
    ({ c with call := P.client.afterRecv c.call out, s2c := s2c } : Connection).Replies := by
  obtain ⟨rest, hrest, hbytes⟩ := h.replies
  have hempty := h.early hpc
  rw [Connection.consumed, if_neg hpc, hempty] at hrest
  obtain rfl : c.server.sent = rest := hrest
  obtain ⟨hbad, hitem⟩ := wireDecode_flatMap hbytes
  have hsame : ∀ call : RetryCall, call.pc ≠ .returned 0 →
      call.recv.ctx.pending ++ s2c = c.call.recv.ctx.pending ++ c.s2c →
      ({ c with call := call, s2c := s2c } : Connection).Replies := fun call hne heq =>
    ⟨c.server.sent, by simp [Connection.consumed, hne, hempty], by dsimp only; rw [heq, hbytes]⟩
  rw [RetryArgs.afterRecv]
  cases hout with
  | waits hnone _ heq =>
    rw [hnone]
    exact hsame _ (by simp) heq
  | stops e hsome he heq =>
    rw [hsome]
    dsimp only
    rw [he, if_neg (by simp)]
    exact hsame _ (RetryArgs.loop_pc _ _ _) (by rw [RetryArgs.loop_recv, heq])
  | corrupted _ hdec => exact absurd hdec hbad
  | received m n hsome hmsg hdec heq =>
    obtain ⟨ms, hms, hrest'⟩ := hitem m n hdec
    have hyes := (P.client.awaited_iff out.1.frame).1 (by rw [hmsg]; exact h.awaited hcmd hms)
    rw [hsome]
    dsimp only
    rw [if_pos ⟨rfl, hyes⟩]
    refine ⟨ms, ?_, by dsimp only; rw [heq, hrest']⟩
    simp [Connection.consumed, hempty, hms, hmsg]

theorem Connection.inv_clientSelect (h : c.Inv P)
    (hcmd : P.client.expectCmd = lucpMtypAckStart) {call : RetryCall} {r : SelectResult}
    (hs : RetryStep P.client c.call (.select r) call) :
    ({ c with call := call } : Connection).Inv P := by
  have hstep := hs
  cases hs with
  | select _ hpc =>
    have hne : c.call.pc ≠ .returned 0 := by rw [hpc]; simp
    have hlook : ({ c with
        call := P.client.afterRecv c.call (lucpNetRecvBuffered P.client.host c.call.recv) } :
        Connection).Replies :=
      h.replies_recv hcmd hne (.of_buffered P.client.host h.safe.fits c.s2c)
    have hlost : ({ c with call := P.client.loop c.call.recv c.call.copies c.call.left } :
        Connection).Replies := by
      obtain ⟨rest, hrest, hbytes⟩ := h.replies
      refine ⟨rest, ?_, by dsimp only; rw [RetryArgs.loop_recv, hbytes]⟩
      rw [hrest, Connection.consumed, Connection.consumed, if_neg hne,
        if_neg (RetryArgs.loop_pc _ _ _)]
    cases r with
    | ready => exact h.client hstep hne (by simp) (RetryCall.afterRecv_sent _ _) hlook
    | eintr => exact h.client hstep hne (by simp) (RetryCall.afterRecv_sent _ _) hlook
    | timeout => exact h.client hstep hne (by simp) (RetryArgs.loop_sent _ _ _) hlost
    | error => exact h.client hstep hne (by simp) (RetryArgs.loop_sent _ _ _) hlost

theorem Connection.inv_clientRead (h : c.Inv P)
    (hcmd : P.client.expectCmd = lucpMtypAckStart) {call : RetryCall} {r : ReadResult} {s2c : Bytes}
    (hrule : ReadRule c.call.recv.ctx.room c.s2c r s2c)
    (hs : RetryStep P.client c.call (.read r) call) :
    ({ c with call := call, s2c := s2c } : Connection).Inv P := by
  have hstep := hs
  cases hs with
  | read _ hpc _ =>
    have hne : c.call.pc ≠ .returned 0 := by rw [hpc]; simp
    exact h.client hstep hne (by simp) (RetryCall.afterRecv_sent _ _)
      (h.replies_recv hcmd hne
        (.of_read P.client.host h.safe.fits (h.safe.need hpc) hrule))

theorem Connection.inv_clientWrite (h : c.Inv P) {call : RetryCall} {buf : Bytes} {written : ℕ}
    {r : WriteResult} (hr : r.NoFailure) (hpc : c.call.pc = .sending buf written)
    (hs : RetryStep P.client c.call (.write r) call) :
    ({ c with call := call, c2s := c.c2s ++ (buf.drop written).take r.count } :
      Connection).Inv P := by
  have hstep := hs
  cases hs with
  | write _ hpc' _ =>
    rw [hpc] at hpc'
    cases hpc'
    have hne : c.call.pc ≠ .returned 0 := by rw [hpc]; simp
    obtain ⟨hsent, hrecv, hne'⟩ := RetryCall.afterWrite_eq P.client c.call buf written hr
    obtain ⟨s, hscan, hclean⟩ := h.scanned
    refine ⟨⟨_, hscan.step hstep, WriteScan.next_of_noFailure hr hclean⟩,
      (RetryCall.inTime_step h.safe hstep).1, fun hr => absurd (h.later hr).1 hne,
      fun _ => h.early hne, h.stage, ⟨h.ready.fits, h.ready.need, fun herr => ?_⟩, ?_⟩
    · obtain ⟨k, hk⟩ := h.ready.stream herr
      exact ⟨k, by dsimp only; rw [hsent, hk]; simp only [List.append_assoc]⟩
    · obtain ⟨rest, hrest, hbytes⟩ := h.replies
      refine ⟨rest, ?_, by dsimp only; rw [hrecv, hbytes]⟩
      rw [hrest, Connection.consumed, Connection.consumed, if_neg hne, if_neg hne']

/-- A later call of the client takes the next message of the server. -/
theorem Connection.inv_laterRecv (h : c.Inv P) (hret : c.call.pc = .returned 0)
    {frame : LucpFrame} {out : RecvState × Option RecvExit} {s2c : Bytes} (hfit : out.1.Fits)
    (hout : RecvOutcome ⟨c.call.recv.ctx, frame⟩ c.s2c out s2c) :
    (({ c with s2c := s2c } : Connection).afterRecv out).Inv P := by
  obtain ⟨sc, hscan, hclean⟩ := h.scanned
  obtain ⟨rest, hrest, hbytes⟩ := h.replies
  rw [Connection.consumed, if_pos hret] at hrest
  obtain ⟨hbad, hitem⟩ := wireDecode_flatMap hbytes
  have hscan' : RetryCall.Scanned { c.call with recv := ⟨out.1.ctx, c.call.recv.frame⟩ }
      P.client.frame.encode sc := ⟨hscan.beginning, hscan.sending, hscan.idle⟩
  have hsafe : RetryCall.Safe P.client { c.call with recv := ⟨out.1.ctx, c.call.recv.frame⟩ } :=
    ⟨hfit, h.safe.packs, fun hpc => absurd (hret.symm.trans hpc) (by simp)⟩
  have hgoes : ∀ (reading : Bool) (received : List Msg) (rest : List Msg),
      (reading = true → wireDecode out.1.ctx.pending = .need) →
      c.server.sent = [c.call.recv.frame.msg] ++ received ++ rest →
      out.1.ctx.pending ++ s2c ++ c.server.unsent = rest.flatMap Msg.encode →
      Connection.Inv P { c with
        call := { c.call with recv := ⟨out.1.ctx, c.call.recv.frame⟩ }, frame := out.1.frame
        reading := reading, received := received, s2c := s2c } :=
    fun reading received rest hneed hsent hbytes =>
      ⟨⟨sc, hscan', hclean⟩, hsafe, fun hr => ⟨hret, hneed hr⟩, fun hne => absurd hret hne, h.stage,
        h.ready, rest, by rw [hsent, consumed, if_pos hret], hbytes⟩
  rw [afterRecv]
  dsimp only
  cases hout with
  | waits hnone hneed heq =>
    dsimp only at heq
    rw [hnone]
    exact hgoes _ _ rest (fun _ => hneed) hrest (by rw [heq, hbytes])
  | stops e hsome he heq =>
    dsimp only at heq
    rw [hsome]
    dsimp only
    rw [he, if_neg (by decide)]
    exact hgoes _ _ rest (fun hr => by cases hr) hrest (by rw [heq, hbytes])
  | corrupted _ hdec => exact absurd hdec hbad
  | received m n hsome hmsg hdec heq =>
    dsimp only at heq
    obtain ⟨ms, rfl, hrest'⟩ := hitem m n hdec
    rw [hsome]
    dsimp only
    rw [if_pos (by rfl), hmsg]
    exact hgoes _ _ ms (fun hr => by cases hr) (by rw [hrest]; simp) (by rw [heq, hrest'])

/-- A step of the server that writes nothing. -/
theorem Connection.inv_moved (h : c.Inv P) {srv : Server} {c2s : Bytes}
    (hidle : c.server.pc.isSending = false)
    (hmoved : c.server.Moved P.cfg P.client.frame c2s c.call.sent srv) :
    ({ c with server := srv, c2s := c2s } : Connection).Inv P := by
  obtain ⟨hstage, hready, new, hsent, hunsent⟩ := hmoved
  obtain ⟨rest, hrest, hbytes⟩ := h.replies
  have hun : c.server.unsent = [] := by
    rw [Server.unsent]
    split
    · next hpc => rw [hpc] at hidle; cases hidle
    · rfl
  rw [hun, List.append_nil] at hbytes
  refine ⟨h.scanned, h.safe, h.later, h.early, hstage, hready, rest ++ new, ?_, ?_⟩
  · rw [hsent, hrest, List.append_assoc]
    rfl
  · dsimp only
    rw [hbytes, hunsent, List.flatMap_append]

theorem Connection.inv_serverWrite (h : c.Inv P) {buf : Bytes} {written : ℕ} {after : LucpSession}
    {r : WriteResult} (hr : r.NoFailure) (hpc : c.server.pc = .sending buf written after) :
    ({ c with
        server := c.server.afterWrite buf written after r
        s2c := c.s2c ++ (buf.drop written).take r.count } : Connection).Inv P := by
  obtain ⟨hsent, hrecv, hpc', hunsent⟩ := Server.afterWrite_eq hpc hr
  obtain ⟨rest, hrest, hbytes⟩ := h.replies
  refine ⟨h.scanned, h.safe, h.later, h.early, Server.stage_write h.stage hpc hr,
    ⟨by rw [hrecv]; exact h.ready.fits, fun hp => absurd hp hpc', fun _ => ?_⟩, rest, ?_, ?_⟩
  · rw [hrecv]
    exact h.ready.stream (h.stage.state_of_sending hpc)
  · dsimp only
    rw [hsent, hrest]
    rfl
  · dsimp only
    rw [← hbytes, hunsent]
    simp only [List.append_assoc]

/-- **Every step of either party keeps the invariant.** -/
theorem Connection.inv_step (htype : P.client.frame.msgType = lucpMtypUploadRequest)
    (hcmd : P.client.expectCmd = lucpMtypAckStart) {c' : Connection} (h : c.Inv P)
    (hs : ConnectionStep P c c') : c'.Inv P := by
  cases hs with
  | clientWrite r hr hpc hs => exact inv_clientWrite h hr hpc hs
  | clientSelect r hs => exact inv_clientSelect h hcmd hs
  | clientRead r s2c hrule hs => exact inv_clientRead h hcmd hrule hs
  | clientRecv frame hret hidle =>
    have hfit : RecvState.Fits ⟨c.call.recv.ctx, frame⟩ := h.safe.fits
    exact inv_laterRecv h hret hfit.buffered (.of_buffered P.client.host hfit c.s2c)
  | clientRecvRead r s2c hreading hrule =>
    obtain ⟨hret, hneed⟩ := h.later hreading
    have hfit : c.laterRecv.Fits := h.safe.fits
    exact inv_laterRecv h hret (hfit.read (hrule.fits hfit))
      (.of_read P.client.host hfit hneed hrule)
  | serverTurn e hpc =>
    exact inv_moved h (by rw [hpc]; rfl)
      (Server.moved_turn htype h.stage h.ready h.framed hpc e)
  | serverRead r now c2s hpc hrule =>
    obtain ⟨hneed, hw⟩ := h.ready.need hpc
    have hidle : c.server.pc.isSending = false := by rw [hpc]; rfl
    exact inv_moved h hidle (Server.moved_afterRecv htype h.stage h.ready h.framed hw hidle
      (h.ready.fits.read (hrule.fits h.ready.fits))
      (.of_read P.server h.ready.fits hneed hrule) now)
  | serverWrite r hr hpc _ => exact inv_serverWrite h hr hpc

theorem Connection.inv_fresh (P : Parties) (fd fd' : Int)
    (reply frame srvFrame srvReply : LucpFrame) (nRetries : Int) (seqNum : UInt32) (now : UInt64) :
    (Connection.fresh P fd fd' reply frame srvFrame srvReply nRetries seqNum now).Inv P := by
  have hfits : ∀ fd frame, RecvState.Fits ⟨lucpNetCtxInit fd, frame⟩ := fun _ _ => Nat.zero_le _
  have hpc : (P.client.start (lucpNetCtxInit fd) reply nRetries).pc ≠ .returned 0 :=
    RetryArgs.loop_pc _ _ _
  have hsent : (P.client.start (lucpNetCtxInit fd) reply nRetries).sent = [] :=
    RetryArgs.loop_sent _ _ _
  have hpend : ∀ fd, (lucpNetCtxInit fd).pending = [] := pending_init
  refine ⟨⟨.zero, P.client.scanned_start _ _ _, rfl, rfl⟩, RetryArgs.safe_loop (hfits _ _),
    fun h => (by cases h), fun _ => rfl, .waiting rfl (.inl rfl) rfl,
    ⟨hfits _ _, fun h => (by cases h), fun _ => ⟨0, ?_⟩⟩, [], ?_, ?_⟩
  · simp [Connection.fresh, hsent, hpend]
  · simp [Connection.fresh, Connection.consumed, hpc]
  · simp [Connection.fresh, Server.unsent, RetryArgs.start, hpend]

/-! ## The result -/

/-- **Request and acknowledgement agree, however often the request is sent.**  In every state two
parties on a fresh connection can reach: if the client's call has returned 0, the reply it returned
with is the first message the server sent, and if that says success, the session has recorded the
sequence number of the request and left its first state; the server has sent at most one `ACK_START`
and at most one `NOTIFY_DONE`, and nothing else; and what the client has received since is nothing,
or that `NOTIFY_DONE` with the sequence number of the request. -/
theorem request_ack_agreement (h : (connectionSystem P).Reachable c)
    (htype : P.client.frame.msgType = lucpMtypUploadRequest)
    (hcmd : P.client.expectCmd = lucpMtypAckStart) :
    (c.call.pc = .returned 0 →
      (∃ ms, c.server.sent = c.call.recv.frame.msg :: ms) ∧
      (c.call.recv.frame.status = lucpStatSuccess →
        c.server.sess.seqNum = P.client.frame.seqNum ∧ c.server.sess.state ≠ .init)) ∧
    (c.server.sent.countP (·.msgType == lucpMtypAckStart) ≤ 1 ∧
      c.server.sent.countP (·.msgType == lucpMtypNotifyDone) ≤ 1 ∧
      ∀ m ∈ c.server.sent, m.msgType = lucpMtypAckStart ∨ m.msgType = lucpMtypNotifyDone) ∧
    (c.received = [] ∨ ∃ m, c.received = [m] ∧ m ∈ c.server.sent ∧
      m.msgType = lucpMtypNotifyDone ∧ m.seqNum = P.client.frame.seqNum) := by
  have hinv : c.Inv P := by
    refine h.invariant (Connection.Inv P) ?_ fun _ _ _ ht hs => Connection.inv_step htype hcmd ht hs
    rintro s ⟨fd, fd', reply, frame, srvFrame, srvReply, nRetries, seqNum, now, rfl⟩
    exact Connection.inv_fresh P fd fd' reply frame srvFrame srvReply nRetries seqNum now
  obtain ⟨rest, hsent, -⟩ := hinv.replies
  have hearly := hinv.early
  rw [Connection.consumed] at hsent
  refine ⟨fun hret => ?_, hinv.stage.counts, ?_⟩
  · rw [if_pos hret, List.singleton_append, List.cons_append] at hsent
    exact ⟨⟨_, hsent⟩, fun hsuccess => hinv.stage.recorded hsent hsuccess⟩
  · by_cases hret : c.call.pc = .returned 0
    · rw [if_pos hret, List.singleton_append, List.cons_append] at hsent
      exact hinv.stage.tail hsent
    · exact .inl (hearly hret)

/-- One request, acknowledged at once. -/
theorem request_ack_agreement_at_once : ∃ c : Connection, c.call.pc = .returned 0 ∧
    c.server.sess.seqNum = 7 := by
  have h0 : (connectionSystem ⟨.sample, .big, ⟨2000, true⟩⟩).Reachable
      (.fresh ⟨.sample, .big, ⟨2000, true⟩⟩ 3 4 .zero .zero .zero .zero 1 0 1000) :=
    .of_init ⟨_, _, _, _, _, _, _, _, _, rfl⟩
  have h1 := h0.step (e := ()) (@ConnectionStep.clientWrite _ _ _ RetryArgs.sample.frame.encode 0
    (.wrote 14) (by simp [WriteResult.NoFailure]) (by decide +kernel)
    (@RetryStep.write _ _ RetryArgs.sample.frame.encode 0 _ (by decide +kernel) (by decide)))
  have h2 := h1.step (e := ()) (.serverTurn ⟨true, 1000, 0, 1000⟩ rfl)
  have h3 := h2.step (e := ()) (.serverRead (.got RetryArgs.sample.frame.encode) 1000 []
    (by decide +kernel) (.got _ _ (by decide) (by decide +kernel) (by decide +kernel)))
  have h4 := h3.step (e := ()) (@ConnectionStep.serverWrite _ _ (ackAccepted 7).encode 0
    ⟨.waitingUploadRequest, 7, 1000⟩ (.wrote 14) (by simp [WriteResult.NoFailure])
    (by decide +kernel) (by decide))
  have h5 := h4.step (e := ()) (.clientSelect .ready (.select _ (by decide +kernel)))
  have h6 := h5.step (e := ()) (.clientRead (.got (ackAccepted 7).encode) []
    (.got _ _ (by decide) (by decide +kernel) (by decide +kernel))
    (.read _ (by decide +kernel) (by decide +kernel)))
  have hret := (request_ack_agreement h6 (by decide) (by decide)).1 (by decide +kernel)
  exact ⟨_, by decide +kernel, (hret.2 (by decide +kernel)).1⟩

end Lucp
