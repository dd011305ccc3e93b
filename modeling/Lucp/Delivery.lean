import Lucp.Reassembly
import Lucp.Send

/-!
# A sender and a receiver on one connection

`Lucp.Recv` is about a receiver and a stream that is already there.  Here the stream is being
written while it is read: a process makes frames with `lucp_frame_make` and hands each to
`lucp_net_send`, the bytes its `write()`s take go into a channel, and a `Receiver` reads from that
channel whatever it can get.  The two may run on hosts of different byte order, and take their steps
in any order.

## What is here

* `MakeCall` — the arguments of a call of `lucp_frame_make`, with the requirement on its pointer.
* `Sender`, `Link`, `linkSystem` — the sending process, and both of them with the channel between.
* `Link.InOrder` — **the invariant**: behind the messages that were delivered, what the receiver has
  buffered and what is in the channel are the messages still to come, as far as they are written.
* `delivery_in_order` — nothing is lost, duplicated or reordered.
-/

set_option autoImplicit false

namespace Lucp

open Framing

/-! ## The sender -/

/-- The arguments of a call of `lucp_frame_make`, besides the object. -/
structure MakeCall where
  seq : UInt32
  msgType : UInt8
  status : UInt8
  /-- The bytes readable at the pointer, or `NULL`. -/
  textInfo : Option Bytes
  textInfoLen : UInt16
  /-- With a positive length the pointer is not `NULL`, and gives as many bytes as are copied. -/
  readable : 0 < textInfoLen.toNat →
    ∃ text, textInfo = some text ∧ min textInfoLen.toNat lucpMaxTextinfoLen ≤ text.length

/-- The call, on a frame object. -/
def MakeCall.make (c : MakeCall) (obj : LucpFrame) : LucpFrame :=
  lucpFrameMake obj c.seq c.msgType c.status c.textInfo c.textInfoLen

/-- The message that is meant: the arguments, and the text cut to what the format has room for. -/
def MakeCall.msg (c : MakeCall) : Msg :=
  .made c.seq c.msgType c.status ((c.textInfo.getD []).take c.textInfoLen.toNat)

/-- The frame that is made carries the message that is meant. -/
theorem MakeCall.make_msg (c : MakeCall) (obj : LucpFrame) : (c.make obj).msg = c.msg := by
  rcases Nat.eq_zero_or_pos c.textInfoLen.toNat with hz | hpos
  · exact lucpFrameMake_text obj _ _ _ (.inr hz) (by rw [hz, Nat.zero_min]; exact Nat.zero_le _)
  · obtain ⟨text, htext, hread⟩ := c.readable hpos
    have hget : c.textInfo.getD [] = text := by rw [htext, Option.getD_some]
    rw [msg, hget]
    exact lucpFrameMake_text obj _ _ _ (.inl htext) hread

/-- Where the sender stands. -/
inductive SenderPc
  /-- Between two calls of `lucp_net_send`. -/
  | idle
  /-- In `full_write`, with `written` bytes of `buf` taken. -/
  | sending (buf : Bytes) (written : ℕ)
  deriving DecidableEq

/-- A process that makes frames and sends them. -/
structure Sender where
  /-- The frame object, which may be used again and again. -/
  frame : LucpFrame
  pc : SenderPc
  /-- The frames handed to `lucp_net_send`, oldest first. -/
  calls : List MakeCall
  /-- Those of them for which it has returned 0. -/
  completed : List MakeCall

namespace Sender

/-- Before the first call. -/
def fresh (frame : LucpFrame) : Sender := ⟨frame, .idle, [], []⟩

/-- Make a frame in `obj` and call `lucp_net_send`, up to the first `write()`. -/
def send (host : ByteOrder) (s : Sender) (call : MakeCall) (obj : LucpFrame) : Sender :=
  let frame := call.make obj
  match lucpNetSendPack host frame with
  | none => { s with frame := frame, calls := s.calls ++ [call] }
  | some buf => { s with frame := frame, pc := .sending buf 0, calls := s.calls ++ [call] }

/-- `write()` has answered. -/
def afterWrite (s : Sender) (buf : Bytes) (written : ℕ) (r : WriteResult) : Sender :=
  match fullWriteTurn buf.length written r with
  | .failed => { s with pc := .idle }
  | .more written => { s with pc := .sending buf written }
  | .done => { s with pc := .idle, completed := s.calls }

/-- The bytes of the present frame that are in the channel, or were. -/
def written (s : Sender) : Bytes :=
  match s.pc with
  | .sending buf written => buf.take written
  | .idle => []

end Sender

/-! ## The two parties and the channel -/

/-- The two processes.  The receiver's `unread` is the channel. -/
structure Link where
  sender : Sender
  receiver : Receiver

/-- Whose turn it is, and what the environment answers. -/
inductive LinkLabel
  | send (call : MakeCall) (obj : LucpFrame)
  | write (r : WriteResult)
  | receive (l : ReceiverLabel)

/-- The bytes that have been written and not been delivered. -/
def Link.undelivered (l : Link) : Bytes := l.receiver.recv.ctx.pending ++ l.receiver.unread

/-- One step of either party.  Frames may be made in any object; a `write()` takes any number of
bytes or is interrupted; the receiver may do what it can do on a stream that is as long as the
channel. -/
inductive LinkStep (sendHost recvHost : ByteOrder) : Link → LinkLabel → Link → Prop
  | send {l : Link} (call : MakeCall) (obj : LucpFrame) (hpc : l.sender.pc = .idle) :
      LinkStep sendHost recvHost l (.send call obj)
        { l with sender := l.sender.send sendHost call obj }
  | write {l : Link} {buf : Bytes} {written : ℕ} (r : WriteResult) (hr : r.NoFailure)
      (hpc : l.sender.pc = .sending buf written) (hle : r.count ≤ buf.length - written) :
      LinkStep sendHost recvHost l (.write r)
        { sender := l.sender.afterWrite buf written r
          receiver := { l.receiver with
            unread := l.receiver.unread ++ (buf.drop written).take r.count } }
  | receive {l : Link} {e : ReceiverLabel} {p : Receiver}
      (hs : (receiverSystem recvHost 0 []).step l.receiver e p) :
      LinkStep sendHost recvHost l (.receive e) { l with receiver := p }

/-- The runs of the two parties on a fresh connection. -/
def linkSystem (sendHost recvHost : ByteOrder) (fd : Int) : System Link LinkLabel where
  init l := ∃ frame, l = ⟨.fresh frame, .fresh fd []⟩
  step := LinkStep sendHost recvHost

/-! ## The invariant -/

/-- The bytes of an unfinished frame ask for more. -/
theorem Msg.need_take (m : Msg) {n : ℕ} (hn : n < m.encode.length) :
    wireDecode (m.encode.take n) = .need := by
  rw [← unpackDecoder_decode .little]
  refine (m.encodes .little).need (List.take_prefix _ _) ?_
  rw [List.length_take]
  omega

/-- Where the sender stands, and what it has sent. -/
inductive Sender.Consistent (s : Sender) : Prop
  | idle (hpc : s.pc = .idle) (hcalls : s.calls = s.completed)
  | sending (call : MakeCall) (written : ℕ) (hpc : s.pc = .sending call.msg.encode written)
      (hlt : written < call.msg.encode.length) (hcalls : s.calls = s.completed ++ [call])

theorem Sender.Consistent.need {s : Sender} (h : s.Consistent) : wireDecode s.written = .need := by
  cases h with
  | idle hpc _ => rw [written, hpc]; exact wireDecode_short (by simp)
  | sending call n hpc hlt _ => rw [written, hpc]; exact call.msg.need_take hlt

/-- **Delivered, under way and unwritten make up what was sent.** -/
structure Link.InOrder (l : Link) : Prop where
  safe : l.receiver.Safe
  sender : l.sender.Consistent
  /-- The completed frames that have not been delivered are under way, then the present one. -/
  bytes : ∃ ms, l.sender.completed.map MakeCall.msg = l.receiver.delivered ++ ms ∧
    l.undelivered = ms.flatMap Msg.encode ++ l.sender.written
  intact : ∀ o ∈ l.receiver.outcomes, o.1 ≠ .corrupted

variable {sendHost recvHost : ByteOrder} {fd : Int}

theorem Link.inOrder_fresh (frame : LucpFrame) :
    (⟨.fresh frame, .fresh fd []⟩ : Link).InOrder := by
  refine ⟨Receiver.safe_fresh, .idle rfl rfl, ⟨[], rfl, ?_⟩, fun o ho => by cases ho⟩
  rw [undelivered, Receiver.fresh, pending_init]
  rfl

/-- What the receiver still has to deliver never looks corrupted. -/
theorem Link.InOrder.not_bad {l : Link} (h : l.InOrder) : wireDecode l.undelivered ≠ .bad := by
  obtain ⟨ms, -, hbytes⟩ := h.bytes
  cases ms with
  | nil =>
    rw [hbytes, List.flatMap_nil, List.nil_append, h.sender.need]
    simp
  | cons m ms =>
    rw [hbytes, List.flatMap_cons, List.append_assoc, wireDecode_encode_append]
    simp

/-- The next message is the oldest completed one that was not delivered. -/
theorem Link.InOrder.next {l : Link} (h : l.InOrder) {m : Msg} {n : ℕ}
    (hitem : wireDecode l.undelivered = .item m n) :
    ∃ ms, l.sender.completed.map MakeCall.msg = l.receiver.delivered ++ m :: ms ∧
      l.undelivered.drop n = ms.flatMap Msg.encode ++ l.sender.written := by
  obtain ⟨ms, hcompleted, hbytes⟩ := h.bytes
  cases ms with
  | nil =>
    rw [hbytes, List.flatMap_nil, List.nil_append, h.sender.need] at hitem
    cases hitem
  | cons x ms =>
    rw [List.flatMap_cons, List.append_assoc] at hbytes
    rw [hbytes, wireDecode_encode_append, Verdict.item.injEq] at hitem
    obtain ⟨rfl, rfl⟩ := hitem
    exact ⟨ms, hcompleted, by rw [hbytes, ← x.length_encode, List.drop_left]⟩

/-- Making a frame and calling `lucp_net_send` keeps the order. -/
theorem Link.InOrder.send {l : Link} (h : l.InOrder) (hpc : l.sender.pc = .idle) (call : MakeCall)
    (obj : LucpFrame) : (⟨l.sender.send sendHost call obj, l.receiver⟩ : Link).InOrder := by
  have hvalid : (call.make obj).Valid := lucpFrameMake_valid _ _ _ _ _ _
  have hpack : lucpNetSendPack sendHost (call.make obj) = some call.msg.encode := by
    rw [lucpNetSendPack_eq, if_pos hvalid.len, hvalid.encode_eq, call.make_msg]
  have hsend : l.sender.send sendHost call obj
      = ⟨call.make obj, .sending call.msg.encode 0, l.sender.calls ++ [call],
        l.sender.completed⟩ := by
    rw [Sender.send, hpack]
  have hcalls : l.sender.calls = l.sender.completed := by
    cases h.sender with
    | idle _ hcalls => exact hcalls
    | sending _ _ hpc' _ _ => rw [hpc] at hpc'; cases hpc'
  have hwritten : l.sender.written = [] := by rw [Sender.written, hpc]
  obtain ⟨ms, hcompleted, hbytes⟩ := h.bytes
  rw [hsend]
  refine ⟨h.safe, .sending call 0 rfl ?_ ?_, ⟨ms, hcompleted, ?_⟩, h.intact⟩
  · rw [Msg.length_encode]
    omega
  · rw [hcalls]
  · rw [hwritten] at hbytes
    exact hbytes

/-- A `write()` keeps the order. -/
theorem Link.InOrder.write {l : Link} (h : l.InOrder) {buf : Bytes} {written : ℕ} {r : WriteResult}
    (hr : r.NoFailure) (hpc : l.sender.pc = .sending buf written)
    (hle : r.count ≤ buf.length - written) :
    (⟨l.sender.afterWrite buf written r, { l.receiver with
      unread := l.receiver.unread ++ (buf.drop written).take r.count }⟩ : Link).InOrder := by
  have hsafe : ({ l.receiver with
      unread := l.receiver.unread ++ (buf.drop written).take r.count } : Receiver).Safe :=
    ⟨h.safe.fits, h.safe.need⟩
  have hwritten : l.sender.written = buf.take written := by rw [Sender.written, hpc]
  have htake : buf.take written ++ (buf.drop written).take r.count
      = buf.take (written + r.count) := List.take_add.symm
  obtain ⟨ms, hcompleted, hbytes⟩ := h.bytes
  rw [undelivered, hwritten] at hbytes
  have hbytes' : l.receiver.recv.ctx.pending ++ (l.receiver.unread ++
      (buf.drop written).take r.count) = ms.flatMap Msg.encode ++ buf.take (written + r.count) := by
    rw [← List.append_assoc, hbytes, List.append_assoc, htake]
  cases h.sender with
  | idle hpc' _ => rw [hpc] at hpc'; cases hpc'
  | sending call n hpc' hlt hcalls =>
    rw [hpc, SenderPc.sending.injEq] at hpc'
    obtain ⟨rfl, rfl⟩ := hpc'
    rw [Sender.afterWrite, fullWriteTurn_of_noFailure hr, fullWriteTest]
    by_cases hmore : written + r.count < call.msg.encode.length
    · rw [if_pos hmore]
      exact ⟨hsafe, .sending call _ rfl hmore hcalls, ⟨ms, hcompleted, hbytes'⟩, h.intact⟩
    · rw [if_neg hmore]
      refine ⟨hsafe, .idle rfl rfl, ⟨ms ++ [call.msg], ?_, ?_⟩, h.intact⟩
      · show l.sender.calls.map MakeCall.msg = _
        rw [hcalls, List.map_append, hcompleted, List.append_assoc]
        rfl
      · -- the whole frame has been taken
        have hall : call.msg.encode.take (written + r.count) = call.msg.encode :=
          List.take_of_length_le (by omega)
        rw [hall] at hbytes'
        show _ = (ms ++ [call.msg]).flatMap Msg.encode ++ []
        rw [List.append_nil, List.flatMap_append, List.flatMap_singleton]
        exact hbytes'

/-- What a returned call of `lucp_net_recv` adds to the messages delivered. -/
theorem Receiver.delivered_enter {p : Receiver} {out : RecvState × Option RecvExit} {e : RecvExit}
    (h : out.2 = some e) : (p.enter out).delivered
      = p.delivered ++ (outcomeEvent (e, out.1.frame)).toList.filterMap Event.item? := by
  rw [delivered, events_enter_some h, List.filterMap_append, delivered]

theorem Receiver.delivered_enter_none {p : Receiver} {out : RecvState × Option RecvExit}
    (h : out.2 = none) : (p.enter out).delivered = p.delivered := by
  rw [delivered, events_enter_none h, delivered]

/-- Nothing is delivered by a call that fails. -/
theorem outcomeEvent_item_none {e : RecvExit} (he : e.ret = -1) (frame : LucpFrame) :
    (outcomeEvent (e, frame)).toList.filterMap Event.item? = [] := by
  cases e with
  | received => cases he
  | corrupted => rfl
  | readError => rfl
  | peerClosed => rfl
  | overflow => rfl

/-- The exits of the calls after a part of a call. -/
theorem Receiver.mem_outcomes_enter {p : Receiver} {out : RecvState × Option RecvExit}
    {o : RecvExit × LucpFrame} (ho : o ∈ (p.enter out).outcomes) :
    o ∈ p.outcomes ∨ out.2 = some o.1 := by
  rw [enter] at ho
  split at ho
  · next e he =>
    rcases List.mem_append.1 ho with ho | ho
    · exact .inl ho
    · rw [List.mem_singleton] at ho
      exact .inr (by rw [he, ho])
  · exact .inl ho

/-- **A part of a call of `lucp_net_recv` keeps the order**, whatever it is: it is seen from the
bytes that were not delivered before it. -/
theorem Link.InOrder.receive {l : Link} (h : l.InOrder) {s : RecvState} {unread : Bytes}
    {out : RecvState × Option RecvExit} (hs : s.ctx = l.receiver.recv.ctx)
    (hout : RecvOutcome s l.receiver.unread out unread)
    (hcor : out.2 = some .corrupted → wireDecode (s.ctx.pending ++ l.receiver.unread) = .bad)
    (hsafe : ({ l.receiver with unread := unread }.enter out).Safe) :
    (⟨l.sender, { l.receiver with unread := unread }.enter out⟩ : Link).InOrder := by
  have hun : s.ctx.pending ++ l.receiver.unread = l.undelivered := by rw [hs, undelivered]
  have hfine : out.2 ≠ some .corrupted := fun hbad => h.not_bad (hun ▸ hcor hbad)
  have hintact : ∀ o ∈ ({ l.receiver with unread := unread }.enter out).outcomes,
      o.1 ≠ .corrupted := by
    intro o ho hbad
    rcases Receiver.mem_outcomes_enter ho with ho | ho
    · exact h.intact o ho hbad
    · exact hfine (by rw [ho, hbad])
  refine ⟨hsafe, h.sender, ?_, hintact⟩
  obtain ⟨ms, hcompleted, hbytes⟩ := h.bytes
  simp only [undelivered, Receiver.enter_recv, Receiver.enter_unread]
  cases hout with
  | waits hnone _ hsame =>
    rw [Receiver.delivered_enter_none hnone, hsame, hun]
    exact ⟨ms, hcompleted, hbytes⟩
  | stops e hsome he hsame =>
    rw [Receiver.delivered_enter hsome, outcomeEvent_item_none he, List.append_nil, hsame, hun]
    exact ⟨ms, hcompleted, hbytes⟩
  | corrupted hsome _ => exact absurd hsome hfine
  | received m n hsome hmsg hitem hsame =>
    rw [hun] at hitem hsame
    obtain ⟨ms', hcompleted', hdrop⟩ := h.next hitem
    refine ⟨ms', ?_, by rw [hsame, hdrop]⟩
    rw [Receiver.delivered_enter hsome, outcomeEvent, hmsg, hcompleted', List.append_assoc]
    rfl

/-- Every step keeps the order. -/
theorem Link.inOrder_step {l l' : Link} {e : LinkLabel} (h : l.InOrder)
    (hs : (linkSystem sendHost recvHost fd).step l e l') : l'.InOrder := by
  cases hs with
  | send call obj hpc => exact h.send hpc call obj
  | write r hr hpc hle => exact h.write hr hpc hle
  | @receive e p hs =>
    have hsafe := Receiver.safe_step h.safe hs
    cases e with
    | call frame =>
      obtain ⟨-, rfl⟩ := hs
      have hfit : RecvState.Fits ⟨l.receiver.recv.ctx, frame⟩ := h.safe.fits
      have hout := RecvOutcome.of_buffered recvHost hfit l.receiver.unread
      exact h.receive (s := ⟨l.receiver.recv.ctx, frame⟩) rfl hout
        (fun hbad => wireDecode_bad_append _ (bad_of_buffered hfit hbad)) hsafe
    | read r =>
      obtain ⟨hread, unread, hrule, rfl⟩ := hs
      have hout := RecvOutcome.of_read recvHost h.safe.fits (h.safe.need hread) hrule
      exact h.receive rfl hout (bad_of_read h.safe.fits hrule) hsafe

theorem Link.inOrder_of_reachable {l : Link}
    (h : (linkSystem sendHost recvHost fd).Reachable l) : l.InOrder := by
  refine h.invariant Link.InOrder ?_ fun t e t' ht hs => inOrder_step ht hs
  rintro s ⟨frame, rfl⟩
  exact inOrder_fresh frame

/-! ## The result -/

/-- Of the completed frames none is missing once the receiver has seen the bytes of all of them. -/
theorem Link.InOrder.delivered_eq {l : Link} (h : l.InOrder)
    (hconsumed : l.undelivered.length ≤ l.sender.written.length ∨
      l.receiver.reading = true ∧ l.receiver.unread.length ≤ l.sender.written.length) :
    l.receiver.delivered = l.sender.completed.map MakeCall.msg := by
  obtain ⟨ms, hcompleted, hbytes⟩ := h.bytes
  cases ms with
  | nil => rw [hcompleted, List.append_nil]
  | cons m ms =>
    exfalso
    have hlen := congrArg List.length hbytes
    simp only [List.flatMap_cons, List.length_append, m.length_encode] at hlen
    rcases hconsumed with hle | ⟨hread, hle⟩
    · omega
    · -- the next frame would lie complete in a buffer that has to wait for more
      rw [undelivered, List.length_append] at hlen
      rw [undelivered, List.flatMap_cons, List.append_assoc] at hbytes
      have hfront : m.encode <+: l.receiver.recv.ctx.pending := by
        refine List.prefix_of_prefix_length_le ⟨_, hbytes.symm⟩ (List.prefix_append _ _) ?_
        rw [m.length_encode]
        omega
      obtain ⟨c, hc⟩ := hfront
      have hneed := h.safe.need hread
      rw [← hc, wireDecode_encode_append] at hneed
      cases hneed

/-- **Nothing is lost, duplicated or reordered.**  For all calls of `lucp_frame_make`, all ways of
cutting the writes and the reads and every order of the steps, at every moment: the messages
delivered are a beginning of those sent, and no call reports a corrupted frame.  Once the bytes that
were not delivered are at most those of the frame being written, or the receiver waits for a
`read()` and no more than these are in the channel, the messages delivered are those of the
completed sends; and between two sends all are completed. -/
theorem delivery_in_order {l : Link} (h : (linkSystem sendHost recvHost fd).Reachable l) :
    l.receiver.delivered <+: l.sender.calls.map MakeCall.msg ∧
      (∀ o ∈ l.receiver.outcomes, o.1 ≠ .corrupted) ∧
      (l.undelivered.length ≤ l.sender.written.length ∨
          l.receiver.reading = true ∧ l.receiver.unread.length ≤ l.sender.written.length →
        l.receiver.delivered = l.sender.completed.map MakeCall.msg) ∧
      (l.sender.pc = .idle → l.sender.completed = l.sender.calls) := by
  have hinv := Link.inOrder_of_reachable h
  refine ⟨?_, hinv.intact, hinv.delivered_eq, fun hidle => ?_⟩
  · obtain ⟨ms, hcompleted, -⟩ := hinv.bytes
    have hfront : l.receiver.delivered <+: l.sender.completed.map MakeCall.msg :=
      ⟨ms, hcompleted.symm⟩
    cases hinv.sender with
    | idle _ hcalls => rwa [hcalls]
    | sending call _ _ _ hcalls =>
      rw [hcalls, List.map_append]
      exact hfront.trans (List.prefix_append _ _)
  · cases hinv.sender with
    | idle _ hcalls => exact hcalls.symm
    | sending _ _ hpc _ _ => rw [hidle] at hpc; cases hpc

/-- A bare header, sent in two pieces from a little-endian host to a big-endian one that reads them
as they come. -/
theorem delivery_in_order_two_pieces :
    ∃ l, (linkSystem .little .big 3).Reachable l ∧ l.receiver.delivered.length = 1 ∧
      l.receiver.delivered <+: l.sender.calls.map MakeCall.msg := by
  have h0 : (linkSystem .little .big 3).Reachable ⟨.fresh .zero, .fresh 3 []⟩ :=
    .of_init ⟨.zero, rfl⟩
  have h1 := h0.step (.send ⟨7, lucpMtypAckStart, 1, none, 0, by decide⟩ .zero rfl)
  have h2 := h1.step (@LinkStep.write _ _ _ (Msg.made 7 lucpMtypAckStart 1 []).encode 0 (.wrote 5)
    (by simp [WriteResult.NoFailure]) (by decide +kernel) (by decide))
  have h3 := h2.step (.receive (e := .call .zero) ⟨by decide +kernel, rfl⟩)
  have h4 := h3.step (.receive
    (e := .read (.got ((Msg.made 7 lucpMtypAckStart 1 []).encode.take 5)))
    ⟨by decide +kernel, _, .got _ [] (by decide) (by decide +kernel) (by decide +kernel), rfl⟩)
  have h5 := h4.step (@LinkStep.write _ _ _ (Msg.made 7 lucpMtypAckStart 1 []).encode 5 (.wrote 9)
    (by simp [WriteResult.NoFailure]) (by decide +kernel) (by decide))
  have h6 := h5.step (.receive
    (e := .read (.got ((Msg.made 7 lucpMtypAckStart 1 []).encode.drop 5)))
    ⟨by decide +kernel, _, .got _ [] (by decide) (by decide +kernel) (by decide +kernel), rfl⟩)
  exact ⟨_, h6, by decide +kernel, (delivery_in_order h6).1⟩

end Lucp
