import Lucp.Recv

/-!
# Reassembly: what a receiver reports does not depend on how the stream was cut

A receiving process sees the stream through `read()`s of any size, some of which fail.  What it
reports is compared with `Decoder.reference`, which applies `lucp_frame_unpack` to the whole
unconsumed rest of the stream.  `Receiver.Tracks` is the invariant: as long as no error has been
reported, the messages delivered so far, the buffered bytes and the unread bytes make up the stream,
and what the reference decoder still has to say about it is what it says about the buffered bytes
followed by the unread ones.

`reassembly_refines_reference` is the result.  A call that returned because `read()` itself failed
is no event: the caller may simply call again.
-/

set_option autoImplicit false

namespace Lucp

open Framing

/-! ## The events of a receiver -/

/-- What the caller of `lucp_net_recv` learns about the stream from one returned call. -/
def outcomeEvent : RecvExit × LucpFrame → Option (Event Msg)
  | (.received, frame) => some (.item frame.msg)
  | (.corrupted, _) => some .bad
  | (.overflow, _) => some .bad
  | (.peerClosed, _) => some .eof
  | (.readError, _) => none

/-- The events so far, oldest first. -/
def Receiver.events (p : Receiver) : List (Event Msg) := p.outcomes.filterMap outcomeEvent

/-- The messages delivered so far, oldest first. -/
def Receiver.delivered (p : Receiver) : List Msg := p.events.filterMap Event.item?

/-- A corrupted frame or the end of the stream has been reported. -/
def Receiver.Failed (p : Receiver) : Prop := ∃ e ∈ p.events, e.isError = true

theorem Receiver.events_enter_none {p : Receiver} {out : RecvState × Option RecvExit}
    (h : out.2 = none) : (p.enter out).events = p.events := by
  simp [events, enter, h]

theorem Receiver.events_enter_some {p : Receiver} {out : RecvState × Option RecvExit} {e : RecvExit}
    (h : out.2 = some e) :
    (p.enter out).events = p.events ++ (outcomeEvent (e, out.1.frame)).toList := by
  simp only [events, enter, h, List.filterMap_append]
  cases hev : outcomeEvent (e, out.1.frame) <;> simp [hev]

/-- What a part of a call adds to the events does not depend on those that are there. -/
theorem Receiver.events_enter_congr {p q : Receiver} (h : q.events = p.events)
    (out : RecvState × Option RecvExit) : (q.enter out).events = (p.enter out).events := by
  cases hout : out.2 with
  | none => rw [events_enter_none hout, events_enter_none hout, h]
  | some e => rw [events_enter_some hout, events_enter_some hout, h]

theorem Receiver.events_enter_append (p : Receiver) (out : RecvState × Option RecvExit) :
    ∃ es, (p.enter out).events = p.events ++ es := by
  cases hout : out.2 with
  | none => exact ⟨[], by rw [events_enter_none hout, List.append_nil]⟩
  | some e => exact ⟨_, events_enter_some hout⟩

theorem Receiver.not_failed_iff {p : Receiver} :
    ¬ p.Failed ↔ ∀ e ∈ p.events, e.isError = false := by
  simp [Failed]

/-- An error, once reported, stays reported. -/
theorem Receiver.Failed.of_prefix {p q : Receiver} (h : p.Failed) {es : List (Event Msg)}
    (heq : q.events = p.events ++ es) : q.Failed := by
  obtain ⟨e, he, herr⟩ := h
  exact ⟨e, by rw [heq]; exact List.mem_append_left _ he, herr⟩

theorem Receiver.failed_of_error {p q : Receiver} {e : Event Msg} (he : e.isError = true)
    (heq : q.events = p.events ++ [e]) : q.Failed :=
  ⟨e, by simp [heq], he⟩

theorem Receiver.not_failed_append {p q : Receiver} {m : Msg}
    (heq : q.events = p.events ++ [.item m]) (h : ¬ q.Failed) : ¬ p.Failed :=
  fun hp => h (hp.of_prefix heq)

/-! ## The invariant -/

variable {host : ByteOrder} {fd : Int} {stream : Bytes}

/-- How far a receiver has got through the stream. -/
structure Receiver.Tracks (host : ByteOrder) (stream : Bytes) (p : Receiver) : Prop where
  rest : ¬ p.Failed → stream = p.delivered.flatMap Msg.encode ++ p.recv.ctx.pending ++ p.unread
  reference : ¬ p.Failed → (unpackDecoder host).reference stream
    = p.events ++ (unpackDecoder host).reference (p.recv.ctx.pending ++ p.unread)
  error : p.Failed → cut p.events = (unpackDecoder host).reference stream

theorem Receiver.tracks_fresh : (Receiver.fresh fd stream).Tracks host stream := by
  have hev : (Receiver.fresh fd stream).events = [] := rfl
  have hpend : (Receiver.fresh fd stream).recv.ctx.pending = [] := pending_init fd
  refine ⟨fun _ => ?_, fun _ => ?_, fun hf => ?_⟩
  · rw [hpend, delivered, hev]; rfl
  · rw [hpend, hev]; rfl
  · obtain ⟨e, he, -⟩ := hf
    rw [hev] at he; cases he

/-- The invariant speaks of the events, of the buffered bytes followed by the unread ones, and of
nothing else. -/
theorem Receiver.Tracks.of_eq {p q : Receiver} (h : p.Tracks host stream)
    (hev : q.events = p.events)
    (hbytes : q.recv.ctx.pending ++ q.unread = p.recv.ctx.pending ++ p.unread) :
    q.Tracks host stream := by
  have hf : q.Failed ↔ p.Failed := by rw [Failed, Failed, hev]
  refine ⟨fun hq => ?_, fun hq => ?_, fun hq => ?_⟩
  · rw [h.rest (mt hf.2 hq), delivered, delivered, hev, List.append_assoc, List.append_assoc,
      hbytes]
  · rw [h.reference (mt hf.2 hq), hev, hbytes]
  · rw [hev, h.error (hf.1 hq)]

/-- Reporting the error the reference decoder ends in keeps the invariant. -/
theorem Receiver.Tracks.report_error {p q : Receiver} (h : p.Tracks host stream) {e : Event Msg}
    (he : e.isError = true) (heq : q.events = p.events ++ [e])
    (href : ¬ p.Failed →
      (unpackDecoder host).reference (p.recv.ctx.pending ++ p.unread) = [e]) :
    q.Tracks host stream := by
  have hq := failed_of_error he heq
  refine ⟨fun hn => absurd hq hn, fun hn => absurd hq hn, fun _ => ?_⟩
  by_cases hp : p.Failed
  · rw [heq, cut_append_of_error hp, h.error hp]
  · rw [heq, cut_append_of_items (not_failed_iff.1 hp), h.reference hp, href hp]
    simp [cut, he]

/-- Delivering the next message of the buffer keeps the invariant. -/
theorem Receiver.Tracks.report_item {p q : Receiver} (h : p.Tracks host stream) {m : Msg} {n : ℕ}
    (hdec : wireDecode p.recv.ctx.pending = .item m n) (heq : q.events = p.events ++ [.item m])
    (hpend : q.recv.ctx.pending = p.recv.ctx.pending.drop n) (hun : q.unread = p.unread) :
    q.Tracks host stream := by
  refine ⟨fun hq => ?_, fun hq => ?_, fun hq => ?_⟩
  · have hp := not_failed_append heq hq
    have hdel : q.delivered = p.delivered ++ [m] := by
      simp [delivered, heq, Event.item?]
    have hsplit := (encode_of_wireDecode hdec).2
    rw [hdel, List.flatMap_append, List.flatMap_singleton, hpend, hun, List.append_assoc _ m.encode,
      ← hsplit]
    exact h.rest hp
  · have hp := not_failed_append heq hq
    rw [h.reference hp, heq, hpend, hun,
      Decoder.reference_append_item ((unpackDecoder_decode host _).trans hdec), List.append_assoc]
    rfl
  · by_cases hp : p.Failed
    · rw [heq, cut_append_of_error hp, h.error hp]
    · obtain ⟨e, he, herr⟩ := hq
      rw [heq, List.mem_append, List.mem_singleton] at he
      rcases he with he | rfl
      · exact absurd ⟨e, he, herr⟩ hp
      · cases herr

/-- The buffered part of a call keeps the invariant. -/
theorem Receiver.Tracks.enter_buffered {p : Receiver} (h : p.Tracks host stream)
    (hfit : p.recv.Fits) : (p.enter (lucpNetRecvBuffered host p.recv)).Tracks host stream := by
  cases hd : wireDecode p.recv.ctx.pending with
  | need =>
    obtain ⟨hout, hctx⟩ := lucpNetRecvBuffered_need host hd
    exact h.of_eq (events_enter_none hout) (by rw [enter_recv, hctx, enter_unread])
  | bad =>
    have hout := (lucpNetRecvBuffered_bad host hd).1
    exact h.report_error rfl (events_enter_some hout)
      fun _ => Decoder.reference_append_bad ((unpackDecoder_decode host _).trans hd) _
  | item m n =>
    obtain ⟨hout, hmsg, -, hpend, -⟩ := lucpNetRecvBuffered_item host hfit hd
    have hev := events_enter_some (p := p) hout
    rw [outcomeEvent, hmsg] at hev
    exact h.report_item hd hev (by rw [enter_recv, hpend]) (enter_unread _ _)

/-- **What every step keeps.**  A property that speaks of the events and of the bytes still to come,
that the buffered part of a call keeps, and that reporting the end of the stream keeps, is kept by
every step. -/
theorem Receiver.step_keeps (P : Receiver → Prop)
    (hcongr : ∀ p q : Receiver, P p → q.events = p.events →
      q.recv.ctx.pending ++ q.unread = p.recv.ctx.pending ++ p.unread → P q)
    (hbuffered : ∀ p : Receiver, P p → p.recv.Fits →
      P (p.enter (lucpNetRecvBuffered host p.recv)))
    (heof : ∀ p q : Receiver, P p → wireDecode (p.recv.ctx.pending ++ p.unread) = .need →
      q.events = p.events ++ [.eof] →
      q.recv.ctx.pending ++ q.unread = p.recv.ctx.pending ++ p.unread → P q)
    {p q : Receiver} {l : ReceiverLabel} (hsafe : p.Safe) (h : P p)
    (hs : (receiverSystem host fd stream).step p l q) : P q := by
  cases l with
  | call frame =>
    obtain ⟨-, rfl⟩ := hs
    have h' : P { p with recv := ⟨p.recv.ctx, frame⟩ } := hcongr p _ h rfl rfl
    refine hcongr _ _ (hbuffered _ h' hsafe.fits) (events_enter_congr (by rfl) _) ?_
    simp only [enter_recv, enter_unread]
  | read r =>
    obtain ⟨hread, unread', hrule, rfl⟩ := hs
    have hroom : ¬ p.recv.ctx.room = 0 := by
      have := hsafe.rbufLen_lt hread
      rw [LucpNetCtx.room, rbufSize]
      omega
    cases hrule with
    | eintr => exact hcongr p _ h rfl rfl
    | error =>
      exact hcongr p _ h (by simp [events, enter, lucpNetRecvRead, outcomeEvent]) rfl
    | zero hz =>
      -- nothing was read, so this is the end of the stream, in the middle of a frame or not
      have hnil := hz.resolve_left hroom
      refine heof p _ h ?_ (by simp [events, enter, lucpNetRecvRead, outcomeEvent]) rfl
      rw [hnil, List.append_nil]
      exact hsafe.need hread
    | got bs rest hne hlen heq =>
      have hbs : p.recv.ctx.rbufLen + bs.length ≤ rbufSize := by
        have := hsafe.fits
        rw [RecvState.Fits] at this
        rw [LucpNetCtx.room] at hlen
        omega
      have h' : P { p with recv := p.recv.push bs, unread := unread' } := by
        refine hcongr p _ h rfl ?_
        simp only [RecvState.pending_push hbs, List.append_assoc]
        rw [heq]
      rw [lucpNetRecvRead_got hne hbs]
      refine hcongr _ _ (hbuffered _ h' (RecvState.fits_push hbs))
        (events_enter_congr (by rfl) _) ?_
      simp only [enter_recv, enter_unread]

theorem Receiver.tracks_step {p q : Receiver} {l : ReceiverLabel} (hsafe : p.Safe)
    (h : p.Tracks host stream) (hs : (receiverSystem host fd stream).step p l q) :
    q.Tracks host stream := by
  refine step_keeps (Receiver.Tracks host stream) (fun p q h => h.of_eq)
    (fun p h hfit => h.enter_buffered hfit) (fun p q h hneed hev _ => ?_) hsafe h hs
  exact h.report_error rfl hev
    fun _ => Decoder.reference_need ((unpackDecoder_decode host _).trans hneed)

/-! ## Enough reads reach the end -/

/-- Is this a `read()` that returned a byte count, zero included? -/
def ReceiverLabel.returns : ReceiverLabel → Bool
  | .read (.got _) => true
  | _ => false

/-- Every step only adds events. -/
theorem Receiver.events_step {p q : Receiver} {l : ReceiverLabel}
    (hs : (receiverSystem host fd stream).step p l q) : ∃ es, q.events = p.events ++ es := by
  cases l with
  | call frame =>
    obtain ⟨-, rfl⟩ := hs
    exact p.events_enter_append _
  | read r =>
    obtain ⟨-, unread', -, rfl⟩ := hs
    exact events_enter_append { p with unread := unread' } _

/-- Every byte count returned either uses up some of the stream or reports its end. -/
theorem Receiver.returns_le {es : List ReceiverLabel} {p : Receiver}
    (hrun : (receiverSystem host fd stream).Run (.fresh fd stream) es p) :
    p.Safe ∧ (p.Failed ∨ es.countP ReceiverLabel.returns + p.unread.length ≤ stream.length) := by
  refine hrun.invariant_of (fun _ _ => True)
    (fun es p => p.Safe ∧
      (p.Failed ∨ es.countP ReceiverLabel.returns + p.unread.length ≤ stream.length))
    ⟨safe_fresh, .inr (by simp [fresh])⟩ ?_ fun _ _ _ _ _ _ => trivial
  rintro fs t l t' - ⟨hsafe, hinv⟩ - hs
  refine ⟨safe_step hsafe hs, ?_⟩
  obtain ⟨evs, hev⟩ := events_step hs
  rcases hinv with hf | hle
  · exact .inl (hf.of_prefix hev)
  rw [List.countP_append, List.countP_singleton]
  cases l with
  | call frame =>
    obtain ⟨-, rfl⟩ := hs
    exact .inr (by simpa [ReceiverLabel.returns] using hle)
  | read r =>
    obtain ⟨hread, unread', hrule, rfl⟩ := hs
    cases hrule with
    | eintr => exact .inr (by simpa [ReceiverLabel.returns] using hle)
    | error => exact .inr (by simpa [ReceiverLabel.returns] using hle)
    | zero hz =>
      refine .inl (failed_of_error (p := t) (e := .eof) rfl ?_)
      simp [events, enter, lucpNetRecvRead, outcomeEvent]
    | got bs rest hne hroom heq =>
      have hpos := List.length_pos_of_ne_nil hne
      have hlen := congrArg List.length heq
      rw [List.length_append] at hlen
      refine .inr ?_
      simp only [ReceiverLabel.returns, if_true, enter_unread]
      omega

theorem Receiver.tracks_of_run {es : List ReceiverLabel} {p : Receiver}
    (hrun : (receiverSystem host fd stream).Run (.fresh fd stream) es p) :
    p.Tracks host stream :=
  (hrun.invariant (fun p => p.Safe ∧ p.Tracks host stream) ⟨safe_fresh, tracks_fresh⟩
    fun _ _ _ ht hs => ⟨safe_step ht.1 hs, tracks_step ht.1 ht.2 hs⟩).2

/-- **Stream reassembly refines the reference decoder.**  For every stream, every way of cutting it
into reads with interruptions and failures in between, and every moment of the run: the events
reported so far, up to the first error, are a beginning of what the reference decoder says about the
whole stream, and all of it once an error has been reported, which happens at the latest when more
byte counts have been returned than the stream is long; before that, the messages delivered, the
buffered bytes and the unread ones make up the stream.  So any two segmentations report the same;
and the two paths of the code do the same to the same bytes. -/
theorem reassembly_refines_reference {es : List ReceiverLabel} {p : Receiver}
    (hrun : (receiverSystem host fd stream).Run (.fresh fd stream) es p) :
    cut p.events <+: (unpackDecoder host).reference stream ∧
      (p.Failed → cut p.events = (unpackDecoder host).reference stream) ∧
      (¬ p.Failed →
        stream = p.delivered.flatMap Msg.encode ++ p.recv.ctx.pending ++ p.unread) ∧
      (stream.length < es.countP ReceiverLabel.returns → p.Failed) ∧
      (∀ (es' : List ReceiverLabel) (p' : Receiver),
        (receiverSystem host fd stream).Run (.fresh fd stream) es' p' →
          p.Failed → p'.Failed → cut p'.events = cut p.events) ∧
      ∀ (s : RecvState) (bs : Bytes), bs ≠ [] → s.ctx.rbufLen + bs.length ≤ rbufSize →
        lucpNetRecvRead host s (.got bs) = lucpNetRecvBuffered host (s.push bs) := by
  have htracks := Receiver.tracks_of_run hrun
  refine ⟨?_, htracks.error, htracks.rest, fun hlt => ?_, fun es' p' hrun' hf hf' => ?_,
    fun s bs hne hbs => lucpNetRecvRead_got hne hbs⟩
  · by_cases hf : p.Failed
    · exact ⟨[], by rw [htracks.error hf, List.append_nil]⟩
    · rw [cut_eq_self (Receiver.not_failed_iff.1 hf), htracks.reference hf]
      exact List.prefix_append _ _
  · rcases (Receiver.returns_le hrun).2 with hf | hle
    · exact hf
    · omega
  · rw [htracks.error hf, (Receiver.tracks_of_run hrun').error hf']

/-- A bare header that arrives in two pieces, with an interruption in between. -/
theorem reassembly_refines_reference_two_reads :
    ∃ p, (receiverSystem .little 3 [0x4C, 0x55, 0x43, 0x50, 1, 0, 0, 0, 0, 7, 1, 0, 0, 0]).Run
        (.fresh 3 [0x4C, 0x55, 0x43, 0x50, 1, 0, 0, 0, 0, 7, 1, 0, 0, 0])
        [.call .zero, .read (.got [0x4C, 0x55, 0x43, 0x50, 1]), .read .eintr,
          .read (.got [0, 0, 0, 0, 7, 1, 0, 0, 0])] p ∧
      cut p.events <+: (unpackDecoder .little).reference
        [0x4C, 0x55, 0x43, 0x50, 1, 0, 0, 0, 0, 7, 1, 0, 0, 0] := by
  have hrun : (receiverSystem .little 3 [0x4C, 0x55, 0x43, 0x50, 1, 0, 0, 0, 0, 7, 1, 0, 0, 0]).Run
      (.fresh 3 [0x4C, 0x55, 0x43, 0x50, 1, 0, 0, 0, 0, 7, 1, 0, 0, 0])
      [.call .zero, .read (.got [0x4C, 0x55, 0x43, 0x50, 1]), .read .eintr,
        .read (.got [0, 0, 0, 0, 7, 1, 0, 0, 0])] _ :=
    .cons ⟨rfl, rfl⟩ <|
    .cons ⟨by decide, _, .got _ [0, 0, 0, 0, 7, 1, 0, 0, 0] (by decide) (by decide) rfl, rfl⟩ <|
    .cons ⟨by decide, _, .eintr, rfl⟩ <|
    .cons ⟨by decide, _, .got _ [] (by decide) (by decide) rfl, rfl⟩ <| .nil _
  exact ⟨_, hrun, (reassembly_refines_reference hrun).1⟩

end Lucp
