import Lucp.Retry

/-!
# The reply a retrying sender waits for

Each turn of the retry loop looks at one frame at most, and `select()` looks at the socket, not at
the frames that have already been read.  So a reply that came in one `read()` with other frames in
front of it can be in the buffer while the turns run out.

`RetryArgs.InReach` is the condition on a step under which this does not happen: no turn is lost,
and nothing is read, with the reply behind more frames than there are turns to come.
`reply_kept_iff` says that a call that fails has left no reply behind exactly if all its steps were
so.  The proof is one step lemma, `RetryCall.inTime_step`: what is in time before such a step is in
time after it, and a reply that has once fallen behind stays behind.
-/

set_option autoImplicit false

namespace Lucp

open Framing

variable {a : RetryArgs}

/-! ## What a call keeps -/

/-- The frame can be packed, or the call would have returned without a system call; the buffer is as
`lucp_net_recv` keeps it. -/
structure RetryCall.Safe (a : RetryArgs) (c : RetryCall) : Prop where
  fits : c.recv.Fits
  packs : (∀ ret, c.pc ≠ .returned ret) → lucpNetSendPack a.host a.frame ≠ none
  need : c.pc = .receiving → wireDecode c.recv.ctx.pending = .need

/-- The messages that lie in the buffer. -/
def RetryCall.buffered (a : RetryArgs) (c : RetryCall) : List Msg :=
  (unpackDecoder a.host).items c.recv.ctx.pending

/-- How many more messages the call can look at. -/
def RetryCall.turns (c : RetryCall) : ℕ :=
  match c.pc with
  | .returned _ => 0
  | _ => c.left + 1

/-- The call has its reply, or can still get to it if it is in the buffer. -/
def RetryCall.InTime (a : RetryArgs) (c : RetryCall) : Prop :=
  c.pc = .returned 0 ∨ ¬ Buried a.Awaited c.turns (c.buffered a)

/-- Does the answer end the present turn without a message being looked at? -/
def RetryEvent.losesTurn : RetryEvent → Bool
  | .write (.wrote 0) => true
  | .write .error => true
  | .select .timeout => true
  | .select .error => true
  | _ => false

/-- The reply, if it is in the buffer after this answer, does not lie behind more messages than the
call can still look at. -/
def RetryArgs.InReach (a : RetryArgs) (c : RetryCall) : RetryEvent → Prop
  | .read (.got bs) =>
    ¬ Buried a.Awaited (c.left + 1) ((unpackDecoder a.host).items (c.recv.ctx.pending ++ bs))
  | e => e.losesTurn = true → ¬ Buried a.Awaited c.left (c.buffered a)

/-! ## One step -/

theorem RetryArgs.safe_loop {recv : RecvState} {copies : List Bytes} {left : ℕ}
    (hfit : recv.Fits) : (a.loop recv copies left).Safe a := by
  rcases a.loop_cases recv copies left with ⟨hloop, -⟩ | ⟨buf, left', hpack, -, hloop⟩
  · rw [hloop]
    exact ⟨hfit, fun h => absurd rfl (h _), fun h => (by cases h)⟩
  · rw [hloop]
    exact ⟨hfit, fun _ => by rw [hpack]; simp, fun h => (by cases h)⟩

theorem RetryCall.Safe.afterRecv {c : RetryCall} (h : c.Safe a)
    (hpc : ∀ ret, c.pc ≠ .returned ret) {out : RecvState × Option RecvExit} (hfit : out.1.Fits)
    (hneed : out.2 = none → wireDecode out.1.ctx.pending = .need) :
    (a.afterRecv c out).Safe a := by
  rw [RetryArgs.afterRecv]
  split
  · next hout => exact ⟨hfit, fun _ => h.packs hpc, fun _ => hneed hout⟩
  · split
    · exact ⟨hfit, fun hret => absurd rfl (hret _), fun hret => (by cases hret)⟩
    · exact RetryArgs.safe_loop hfit

/-- What remains in time when a turn is over. -/
theorem RetryArgs.inTime_loop {recv : RecvState} {copies : List Bytes} {left : ℕ}
    (hpack : lucpNetSendPack a.host a.frame ≠ none) :
    (a.loop recv copies left).InTime a
      ↔ ¬ Buried a.Awaited left ((unpackDecoder a.host).items recv.ctx.pending) := by
  rcases a.loop_cases recv copies left with ⟨hloop, hleft⟩ | ⟨buf, left', -, rfl, hloop⟩
  · rw [hloop, hleft.resolve_right hpack, RetryCall.InTime, RetryCall.buffered, RetryCall.turns]
    simp
  · rw [hloop, RetryCall.InTime, RetryCall.buffered, RetryCall.turns]
    simp

/-- **The buffered part of `lucp_net_recv` looks at one message**: what is in time after it was
within reach of the turns left before it. -/
theorem RetryCall.inTime_buffered {c : RetryCall} {s : RecvState}
    (hpack : lucpNetSendPack a.host a.frame ≠ none) (hfit : s.Fits) :
    (a.afterRecv c (lucpNetRecvBuffered a.host s)).InTime a
      ↔ ¬ Buried a.Awaited (c.left + 1) ((unpackDecoder a.host).items s.ctx.pending) := by
  cases hd : wireDecode s.ctx.pending with
  | need =>
    obtain ⟨hout, hctx⟩ := lucpNetRecvBuffered_need a.host hd
    have hitems := Decoder.items_need ((unpackDecoder_decode a.host _).trans hd)
    simp [RetryArgs.afterRecv, hout, InTime, buffered, hctx, hitems]
  | bad =>
    obtain ⟨hout, hlen⟩ := lucpNetRecvBuffered_bad a.host hd
    have hitems := Decoder.items_bad ((unpackDecoder_decode a.host _).trans hd)
    have hempty : (lucpNetRecvBuffered a.host s).1.ctx.pending = [] := by
      rw [LucpNetCtx.pending, hlen, List.take_zero]
    have hnil : (unpackDecoder a.host).items [] = [] :=
      Decoder.items_need ((unpackDecoder_decode a.host _).trans (wireDecode_short (by simp)))
    have hret : ¬ RecvExit.corrupted.ret = 0 := by decide
    simp only [RetryArgs.afterRecv, hout, hret, false_and, if_false]
    rw [RetryArgs.inTime_loop hpack, hempty, hnil, hitems]
    simp
  | item m n =>
    obtain ⟨hout, hmsg, -, hpend, -⟩ := lucpNetRecvBuffered_item a.host hfit hd
    have hitems := Decoder.items_item ((unpackDecoder_decode a.host _).trans hd)
    have hret : RecvExit.received.ret = 0 := rfl
    have hawaited := a.awaited_iff (lucpNetRecvBuffered a.host s).1.frame
    rw [hmsg] at hawaited
    rw [hitems, buried_succ_cons]
    simp only [RetryArgs.afterRecv, hout, hret, true_and, ← hawaited]
    split
    · next hyes => simp [InTime, hyes]
    · next hno =>
      rw [RetryArgs.inTime_loop hpack, hpend]
      simp [hno]

theorem RetryCall.turns_of_ne {c : RetryCall} (hpc : ∀ ret, c.pc ≠ .returned ret) :
    c.turns = c.left + 1 := by
  rw [turns]
  split
  · next hret => exact absurd hret (hpc _)
  · rfl

/-- A `write()` that fails is one that loses the turn. -/
theorem losesTurn_write (len written : ℕ) (r : WriteResult) :
    (RetryEvent.write r).losesTurn = true ↔ fullWriteTurn len written r = .failed := by
  have htest : ∀ written, fullWriteTest len written ≠ .failed := fun written => by
    rw [fullWriteTest]; split <;> simp
  cases r with
  | eintr => simp [RetryEvent.losesTurn, fullWriteTurn, htest]
  | error => simp [RetryEvent.losesTurn, fullWriteTurn]
  | wrote n => cases n <;> simp [RetryEvent.losesTurn, fullWriteTurn, htest]

theorem RetryArgs.inReach_of_not_read (a : RetryArgs) (c : RetryCall) {e : RetryEvent}
    (hread : ∀ bs, e ≠ .read (.got bs)) :
    a.InReach c e ↔ (e.losesTurn = true → ¬ Buried a.Awaited c.left (c.buffered a)) := by
  rw [InReach]
  exact hread

/-- Losing a turn leaves the same buffer and one turn less. -/
theorem RetryCall.inTime_lost {c : RetryCall} (h : c.Safe a) (hpc : ∀ ret, c.pc ≠ .returned ret)
    {e : RetryEvent} (he : e.losesTurn = true) :
    (a.loop c.recv c.copies c.left).Safe a ∧
      ((a.loop c.recv c.copies c.left).InTime a ↔ c.InTime a ∧ a.InReach c e) := by
  have hread : ∀ bs, e ≠ .read (.got bs) := by rintro bs rfl; cases he
  refine ⟨RetryArgs.safe_loop h.fits, ?_⟩
  rw [RetryArgs.inTime_loop (h.packs hpc), a.inReach_of_not_read c hread, InTime, turns_of_ne hpc,
    ← buffered]
  exact ⟨fun hb => ⟨.inr fun hb' => hb hb'.of_succ, fun _ => hb⟩, fun hb => hb.2 he⟩

/-- Going on within a turn, with nothing read, changes nothing about the reply. -/
theorem RetryCall.inTime_goes_on {c c' : RetryCall} (h : c.Safe a)
    (hpc : ∀ ret, c.pc ≠ .returned ret) (hpc' : ∀ ret, c'.pc ≠ .returned ret)
    (hrecv : c'.recv.ctx = c.recv.ctx) (hleft : c'.left = c.left)
    (hneed : c'.pc = .receiving → c.pc = .receiving)
    {e : RetryEvent} (he : e.losesTurn = false) (hread : ∀ bs, e ≠ .read (.got bs)) :
    c'.Safe a ∧ (c'.InTime a ↔ c.InTime a ∧ a.InReach c e) := by
  refine ⟨⟨?_, fun _ => h.packs hpc, fun heq => ?_⟩, ?_⟩
  · rw [RecvState.Fits, hrecv]; exact h.fits
  · rw [hrecv]; exact h.need (hneed heq)
  · rw [a.inReach_of_not_read c hread, InTime, InTime, turns_of_ne hpc, turns_of_ne hpc', buffered,
      buffered, hrecv, hleft]
    simp [hpc 0, hpc' 0, he]

/-- Looking at the buffer uses the turn up. -/
theorem RetryCall.inTime_looks {c : RetryCall} {s : RecvState} (h : c.Safe a)
    (hpc : ∀ ret, c.pc ≠ .returned ret) (hfit : s.Fits) :
    (a.afterRecv c (lucpNetRecvBuffered a.host s)).Safe a ∧
      ((a.afterRecv c (lucpNetRecvBuffered a.host s)).InTime a
        ↔ ¬ Buried a.Awaited (c.left + 1) ((unpackDecoder a.host).items s.ctx.pending)) :=
  ⟨h.afterRecv hpc hfit.buffered fun hout => need_of_buffered hfit hout,
    inTime_buffered (h.packs hpc) hfit⟩

theorem RetryCall.inTime_write {c : RetryCall} {buf : Bytes} {written : ℕ} {r : WriteResult}
    (h : c.Safe a) (hpc : c.pc = .sending buf written) :
    (a.afterWrite c buf written r).Safe a ∧
      ((a.afterWrite c buf written r).InTime a ↔ c.InTime a ∧ a.InReach c (.write r)) := by
  have hne : ∀ ret, c.pc ≠ .returned ret := fun _ => by rw [hpc]; simp
  have hlost := losesTurn_write buf.length written r
  rw [RetryArgs.afterWrite]
  split
  · next hturn => exact inTime_lost h hne (hlost.2 hturn)
  · next hturn =>
    rw [hturn, ← Bool.not_eq_false] at hlost
    refine inTime_goes_on h hne ?_ ?_ ?_ ?_ (by simpa using hlost) ?_ <;> simp
  · next hturn =>
    rw [hturn, ← Bool.not_eq_false] at hlost
    refine inTime_goes_on h hne ?_ ?_ ?_ ?_ (by simpa using hlost) ?_ <;> simp

theorem RetryCall.inTime_select {c : RetryCall} {r : SelectResult} (h : c.Safe a)
    (hpc : c.pc = .selecting) : (a.afterSelect c r).Safe a ∧
      ((a.afterSelect c r).InTime a ↔ c.InTime a ∧ a.InReach c (.select r)) := by
  have hne : ∀ ret, c.pc ≠ .returned ret := fun _ => by rw [hpc]; simp
  have hlook : ∀ e : RetryEvent, e.losesTurn = false → (∀ bs, e ≠ .read (.got bs)) →
      (¬ Buried a.Awaited (c.left + 1) ((unpackDecoder a.host).items c.recv.ctx.pending)
        ↔ c.InTime a ∧ a.InReach c e) := fun e he hread => by
    rw [a.inReach_of_not_read c hread, InTime, turns_of_ne hne, ← buffered]
    simp [hne 0, he]
  cases r with
  | ready =>
    have hsame := inTime_looks h hne h.fits
    rwa [hlook (.select .ready) rfl fun _ => by simp] at hsame
  | eintr =>
    have hsame := inTime_looks h hne h.fits
    rwa [hlook (.select .eintr) rfl fun _ => by simp] at hsame
  | timeout => exact inTime_lost h hne (e := .select .timeout) rfl
  | error => exact inTime_lost h hne (e := .select .error) rfl

theorem RetryCall.inTime_read {c : RetryCall} {r : ReadResult} (h : c.Safe a)
    (hpc : c.pc = .receiving) (hr : r.count ≤ c.recv.ctx.room) :
    (a.afterRecv c (lucpNetRecvRead a.host c.recv r)).Safe a ∧
      ((a.afterRecv c (lucpNetRecvRead a.host c.recv r)).InTime a
        ↔ c.InTime a ∧ a.InReach c (.read r)) := by
  have hne : ∀ ret, c.pc ≠ .returned ret := fun _ => by rw [hpc]; simp
  have hfit := h.fits
  -- inside the loop of `lucp_net_recv` no message is complete, so there is none to lose
  have hitems := Decoder.items_need ((unpackDecoder_decode a.host _).trans (h.need hpc))
  have hin : c.InTime a := .inr (by rw [buffered, hitems]; simp)
  have hover : ∀ {e : RecvExit}, ¬ e.ret = 0 →
      lucpNetRecvRead a.host c.recv r = (c.recv, some e) →
      (a.afterRecv c (lucpNetRecvRead a.host c.recv r)).Safe a ∧
        (a.afterRecv c (lucpNetRecvRead a.host c.recv r)).InTime a := fun {e} he heq => by
    rw [heq]
    refine ⟨h.afterRecv hne hfit fun hnone => (by cases hnone), ?_⟩
    simp only [RetryArgs.afterRecv, he, false_and, if_false]
    rw [RetryArgs.inTime_loop (h.packs hne), hitems]
    simp
  cases r with
  | eintr =>
    refine inTime_goes_on h hne ?_ ?_ ?_ (fun _ => hpc) rfl (fun _ => by simp) <;>
      simp [RetryArgs.afterRecv, lucpNetRecvRead]
  | error =>
    obtain ⟨hsafe, htime⟩ := hover (e := .readError) (by decide) rfl
    exact ⟨hsafe, iff_of_true htime ⟨hin, fun hl => (by cases hl)⟩⟩
  | got bs =>
    rcases eq_or_ne bs [] with rfl | hbs
    · obtain ⟨hsafe, htime⟩ := hover (e := .peerClosed) (by decide) rfl
      refine ⟨hsafe, iff_of_true htime ⟨hin, ?_⟩⟩
      rw [RetryArgs.InReach, List.append_nil, hitems]
      simp
    · have hroom : c.recv.ctx.rbufLen + bs.length ≤ rbufSize := by
        rw [RecvState.Fits] at hfit
        rw [LucpNetCtx.room, ReadResult.count] at hr
        omega
      rw [lucpNetRecvRead_got hbs hroom, RetryArgs.InReach, ← RecvState.pending_push hroom,
        and_iff_right hin]
      exact inTime_looks h hne (RecvState.fits_push hroom)

/-- **A step keeps a reply in time exactly if it keeps it in reach.** -/
theorem RetryCall.inTime_step {c c' : RetryCall} {e : RetryEvent} (h : c.Safe a)
    (hs : RetryStep a c e c') : c'.Safe a ∧ (c'.InTime a ↔ c.InTime a ∧ a.InReach c e) := by
  cases hs with
  | write r hpc _ => exact inTime_write h hpc
  | select r hpc => exact inTime_select h hpc
  | read r hpc hr => exact inTime_read h hpc hr

/-! ## A whole call -/

/-- **A failed call leaves the reply it waited for in its buffer exactly if it had fallen out of
reach.**  For a call on an empty buffer that returned -1: no message in the buffer is the reply, if
and only if in no step of the run the reply came to lie behind more messages than there were turns
to look at them. -/
theorem reply_kept_iff {ctx : LucpNetCtx} {reply : LucpFrame} {nRetries : Int}
    {es : List RetryEvent} {c : RetryCall} (hbuf : ctx.rbufLen = 0)
    (hrun : (retrySystem a ctx reply nRetries).Run (a.start ctx reply nRetries) es c)
    (hret : c.pc = .returned (-1)) :
    (¬ ∃ m ∈ c.buffered a, a.Awaited m = true) ↔
      ((retrySystem a ctx reply nRetries).restrict a.InReach).Run
        (a.start ctx reply nRetries) es c := by
  have hfit : RecvState.Fits ⟨ctx, reply⟩ := by rw [RecvState.Fits, hbuf]; exact Nat.zero_le _
  have hempty : ctx.pending = [] := by rw [LucpNetCtx.pending, hbuf, List.take_zero]
  have hnil : (unpackDecoder a.host).items [] = [] :=
    Decoder.items_need ((unpackDecoder_decode a.host _).trans (wireDecode_short (by simp)))
  have hstart : (a.start ctx reply nRetries).InTime a := by
    refine .inr ?_
    rw [RetryCall.buffered, RetryArgs.start, RetryArgs.loop_recv, hempty, hnil]
    simp
  rw [← hrun.restrict_iff a.InReach (RetryCall.Safe a) (RetryCall.InTime a)
    (RetryArgs.safe_loop hfit) hstart fun _ _ _ ht hs => RetryCall.inTime_step ht hs]
  rw [RetryCall.InTime, RetryCall.turns, hret]
  simp

/-- One turn and no answer: nothing falls out of reach. -/
theorem reply_kept_iff_timeout : ∃ c,
    ((retrySystem .sample (lucpNetCtxInit 3) .zero 1).restrict RetryArgs.sample.InReach).Run
      (RetryArgs.sample.start (lucpNetCtxInit 3) .zero 1)
      [.write (.wrote 14), .select .timeout] c := by
  obtain ⟨c, hrun, hc⟩ := System.Run.of_exec
    (S := retrySystem .sample (lucpNetCtxInit 3) .zero 1) _ (fun _ _ _ => RetryStep.of_step)
    (fun c => decide (c.pc = .returned (-1)) && (c.buffered .sample).isEmpty)
    (RetryArgs.sample.start (lucpNetCtxInit 3) .zero 1)
    [.write (.wrote 14), .select .timeout] (by decide +kernel)
  rw [Bool.and_eq_true, List.isEmpty_iff] at hc
  exact ⟨c, (reply_kept_iff rfl hrun (of_decide_eq_true hc.1)).1 (by simp [hc.2])⟩

/-- With one turn to go, a `read()` brings another frame and the reply behind it.  The call looks at
the first, reports failure, and leaves the reply in the buffer. -/
theorem reply_left_behind : ¬ ∀ (a : RetryArgs) (ctx : LucpNetCtx) (reply : LucpFrame)
    (nRetries : Int) (es : List RetryEvent) (c : RetryCall), 1 ≤ nRetries → ctx.rbufLen = 0 →
    (retrySystem a ctx reply nRetries).Run (a.start ctx reply nRetries) es c →
      c.pc = .returned (-1) → ¬ ∃ m ∈ c.buffered a, a.Awaited m = true := by
  intro h
  obtain ⟨c, hrun, hc⟩ := System.Run.of_exec
    (S := retrySystem .sample (lucpNetCtxInit 3) .zero 1) _ (fun _ _ _ => RetryStep.of_step)
    (fun c => decide (c.pc = .returned (-1)) &&
      (c.buffered .sample).any RetryArgs.sample.Awaited)
    (RetryArgs.sample.start (lucpNetCtxInit 3) .zero 1)
    [.write (.wrote 14), .select .ready, .read (.got
      ((lucpFrameMake .zero 7 lucpMtypNotifyDone lucpStatSuccess none 0).encode ++
        (lucpFrameMake .zero 7 lucpMtypAckStart lucpStatSuccess none 0).encode))] (by decide +kernel)
  rw [Bool.and_eq_true, List.any_eq_true] at hc
  exact h _ _ _ _ _ _ (by decide) rfl hrun (of_decide_eq_true hc.1) hc.2

end Lucp
