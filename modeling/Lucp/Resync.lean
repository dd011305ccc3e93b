import Lucp.Reassembly
import Lucp.General.Lossy

/-!
# Behind a corrupted frame

`lucp_net_recv` reports a corrupted frame and empties its buffer, and its callers go on.  So what a
receiver reports behind the first corrupted frame depends on how much had been buffered when it was
noticed.  `Decoder.Lossy` says which reports are possible; here it is shown that they are those of
the code, in both directions: every run of a receiver to the end of the stream reports something
possible (`Receiver.lossy_of_run`), and everything possible is reported by some run
(`exists_run_of_lossy`).

`resume_independent_iff` then answers for which streams the way of cutting makes no difference.
-/

set_option autoImplicit false

namespace Lucp

open Framing Framing.Decoder

variable {host : ByteOrder} {fd : Int} {stream : Bytes}

/-! ## The header -/

theorem le_length_of_bad {b : Bytes} (h : wireDecode b = .bad) : 14 ≤ b.length := by
  by_contra hlt
  rw [wireDecode_short (Nat.lt_of_not_le hlt)] at h
  cases h

/-- Fourteen bytes are enough to see that a frame is corrupted. -/
theorem wireDecode_bad_take {b : Bytes} {k : ℕ} (hk : 14 ≤ k) (h : wireDecode b = .bad) :
    wireDecode (b.take k) = .bad := by
  obtain ⟨m0, m1, m2, m3, maj, min, s0, s1, s2, s3, typ, sta, l0, l1, rest, rfl⟩ :=
    exists_header (le_length_of_bad h)
  obtain ⟨j, rfl⟩ := Nat.exists_eq_add_of_le' hk
  rw [wireDecode] at h
  simp only [List.take_succ_cons, wireDecode]
  split at h
  · next hm => rw [if_pos hm]
  · next hm =>
    split at h
    · split at h <;> cases h
    · next hl => rw [if_neg hm, dif_neg hl]

/-- The first two bytes of the magic number. -/
theorem magic_bytes {m0 m1 m2 m3 : UInt8} (h : ofBe32 m0 m1 m2 m3 = lucpMagic) :
    m0 = 0x4C ∧ m1 = 0x55 := by
  have hbytes : [m0, m1, m2, m3] = be32 lucpMagic := by rw [← be32_ofBe32, h]
  have hmagic : be32 lucpMagic = [0x4C, 0x55, 0x43, 0x50] := by decide
  rw [hmagic] at hbytes
  simp only [List.cons.injEq] at hbytes
  exact ⟨hbytes.1, hbytes.2.1⟩

/-- No two frames begin at neighbouring bytes: the magic number does not overlap itself. -/
theorem wireDecode_drop_one {b : Bytes} (h : wireDecode b ≠ .bad) (hlen : 14 < b.length) :
    wireDecode (b.drop 1) = .bad := by
  obtain ⟨m0, m1, m2, m3, maj, min, s0, s1, s2, s3, typ, sta, l0, l1, rest, rfl⟩ :=
    exists_header (Nat.le_of_lt hlen)
  obtain ⟨x, rest, rfl⟩ : ∃ x rest', rest = x :: rest' := by
    cases rest with
    | nil => simp at hlen
    | cons x rest => exact ⟨x, rest, rfl⟩
  have hmagic : ofBe32 m0 m1 m2 m3 = lucpMagic := by
    by_contra hm
    exact h (by rw [wireDecode, if_pos hm])
  have hnext : ofBe32 m1 m2 m3 maj ≠ lucpMagic := by
    intro hm
    rw [(magic_bytes hmagic).2] at hm
    exact absurd (magic_bytes hm).1 (by decide)
  rw [List.drop_succ_cons, List.drop_zero, wireDecode, if_pos hnext]

/-- `lucp_frame_unpack` looks at a header of fourteen bytes first. -/
theorem unpackDecoder_headed (host : ByteOrder) : (unpackDecoder host).Headed 14 where
  pos := by omega
  short s hs := by rw [unpackDecoder_decode, wireDecode_short hs]
  bad_take s k hk h := by
    rw [unpackDecoder_decode] at h ⊢
    exact wireDecode_bad_take hk h
  overlap s h hlen := by
    rw [unpackDecoder_decode] at h ⊢
    exact wireDecode_drop_one h hlen

/-! ## Every run reports something possible -/

/-- What a receiver has reported is possible. -/
structure Receiver.Reports (host : ByteOrder) (stream : Bytes) (p : Receiver) : Prop where
  explains : Event.eof ∉ p.events → (unpackDecoder host).Explains rbufSize stream p.events
    (p.recv.ctx.pending ++ p.unread)
  eof : EndsAtEof p.events → (unpackDecoder host).Lossy rbufSize stream p.events

theorem Receiver.reports_fresh : (Receiver.fresh fd stream).Reports host stream := by
  have hev : (Receiver.fresh fd stream).events = [] := rfl
  refine ⟨fun _ => ?_, fun h => ?_⟩
  · rw [hev, show (Receiver.fresh fd stream).recv.ctx.pending = [] from pending_init fd]
    exact .start
  · exact absurd h (not_endsAtEof (by rw [hev]; simp))

variable {p q : Receiver}

theorem Receiver.Reports.of_eq (h : p.Reports host stream) (hev : q.events = p.events)
    (hbytes : q.recv.ctx.pending ++ q.unread = p.recv.ctx.pending ++ p.unread) :
    q.Reports host stream := by
  refine ⟨fun hq => ?_, fun hq => ?_⟩
  · rw [hev] at hq ⊢
    rw [hbytes]
    exact h.explains hq
  · rw [hev] at hq ⊢
    exact h.eof hq

/-- An event that is not the end of the stream. -/
theorem Receiver.Reports.report (h : p.Reports host stream) {e : Event Msg} (he : e ≠ .eof)
    (hev : q.events = p.events ++ [e])
    (hexplains : (unpackDecoder host).Explains rbufSize stream p.events
        (p.recv.ctx.pending ++ p.unread) →
      (unpackDecoder host).Explains rbufSize stream (p.events ++ [e])
        (q.recv.ctx.pending ++ q.unread)) : q.Reports host stream := by
  refine ⟨fun hq => ?_, fun hq => ?_⟩
  · rw [hev] at hq ⊢
    exact hexplains (h.explains fun hp => hq (List.mem_append_left _ hp))
  · obtain ⟨es', heq, -⟩ := hq
    rw [hev] at heq
    have := (List.append_inj' heq rfl).2
    exact absurd (List.head_eq_of_cons_eq this) he

/-- The buffered part of a call. -/
theorem Receiver.Reports.enter_buffered (h : p.Reports host stream) (hfit : p.recv.Fits) :
    (p.enter (lucpNetRecvBuffered host p.recv)).Reports host stream := by
  cases hd : wireDecode p.recv.ctx.pending with
  | need =>
    obtain ⟨hout, hctx⟩ := lucpNetRecvBuffered_need host hd
    exact h.of_eq (events_enter_none hout) (by rw [enter_recv, hctx, enter_unread])
  | bad =>
    obtain ⟨hout, hlen⟩ := lucpNetRecvBuffered_bad host hd
    refine h.report (e := .bad) (by simp) (events_enter_some hout) fun hex => ?_
    have hempty : (lucpNetRecvBuffered host p.recv).1.ctx.pending = [] := by
      rw [LucpNetCtx.pending, hlen, List.take_zero]
    have hk := hfit.length_pending
    have hnext := hex.bad (k := p.recv.ctx.pending.length) (hk ▸ hfit)
      (by rw [List.take_left, unpackDecoder_decode, hd])
    rw [List.drop_left] at hnext
    rwa [enter_recv, enter_unread, hempty, List.nil_append]
  | item m n =>
    obtain ⟨hout, hmsg, -, hpend, -⟩ := lucpNetRecvBuffered_item host hfit hd
    have hev := events_enter_some (p := p) hout
    rw [outcomeEvent, hmsg] at hev
    refine h.report (e := .item m) (by simp) hev fun hex => ?_
    have hdec := (unpackDecoder_decode host _).trans hd
    have hnext := hex.item ((unpackDecoder host).item_append p.unread hdec)
    rw [List.drop_append_of_le_length ((unpackDecoder host).item_le hdec)] at hnext
    rwa [enter_recv, enter_unread, hpend]

/-- The end of the stream. -/
theorem Receiver.Reports.report_eof (h : p.Reports host stream)
    (hneed : wireDecode (p.recv.ctx.pending ++ p.unread) = .need)
    (hev : q.events = p.events ++ [.eof]) : q.Reports host stream := by
  refine ⟨fun hq => ?_, fun hq => ?_⟩
  · rw [hev] at hq
    exact absurd (List.mem_append_right _ (List.mem_singleton.2 rfl)) hq
  · obtain ⟨es', heq, hnot⟩ := hq
    rw [hev] at heq ⊢
    obtain rfl := List.append_cancel_right heq
    exact (h.explains hnot).eof ((unpackDecoder_decode host _).trans hneed)

theorem Receiver.reports_step {l : ReceiverLabel} (hsafe : p.Safe) (h : p.Reports host stream)
    (hs : (receiverSystem host fd stream).step p l q) : q.Reports host stream :=
  step_keeps (Receiver.Reports host stream) (fun _ _ h => h.of_eq)
    (fun _ h hfit => h.enter_buffered hfit) (fun _ _ h hneed hev _ => h.report_eof hneed hev)
    hsafe h hs

/-- **What a run to the end of the stream reports is possible.** -/
theorem Receiver.lossy_of_run {es : List ReceiverLabel}
    (hrun : (receiverSystem host fd stream).Run (.fresh fd stream) es p)
    (heof : EndsAtEof p.events) : (unpackDecoder host).Lossy rbufSize stream p.events :=
  (hrun.invariant (fun p : Receiver => p.Safe ∧ p.Reports host stream) ⟨safe_fresh, reports_fresh⟩
    fun _ _ _ ht hs => ⟨safe_step ht.1 hs, reports_step ht.1 ht.2 hs⟩).2.eof heof

/-! ## Everything possible is reported by some run -/

section

variable (host fd stream)

/-- Between two calls, with nothing buffered. -/
structure Receiver.Drained (p : Receiver) : Prop where
  idle : p.reading = false
  empty : p.recv.ctx.rbufLen = 0

/-- A call finds nothing in an empty buffer, and goes on to `read()`. -/
theorem Receiver.Drained.call (h : p.Drained) :
    ∃ q : Receiver, (receiverSystem host fd stream).Run p [.call .zero] q ∧ q.reading = true ∧
      q.recv.ctx.rbufLen = 0 ∧ q.unread = p.unread ∧ q.events = p.events := by
  have hneed : wireDecode (LucpNetCtx.pending p.recv.ctx) = .need := by
    rw [LucpNetCtx.pending, h.empty, List.take_zero]
    exact wireDecode_short (by simp)
  obtain ⟨hout, hctx⟩ := @lucpNetRecvBuffered_need host ⟨p.recv.ctx, .zero⟩ hneed
  refine ⟨_, .single ⟨h.idle, rfl⟩, ?_, ?_, ?_, ?_⟩
  · rw [enter_reading, hout]; rfl
  · rw [enter_recv, hctx, h.empty]
  · rw [enter_unread]
  · rw [events_enter_none hout]

/-- The whole of `bs` in one `read()`, when nothing is buffered. -/
theorem Receiver.read_bytes (hread : p.reading = true) (hempty : p.recv.ctx.rbufLen = 0)
    {bs rest : Bytes} (hne : bs ≠ []) (hroom : bs.length ≤ rbufSize) (hun : p.unread = bs ++ rest) :
    ∃ (q : Receiver) (s : RecvState), s.ctx.pending = bs ∧ s.ctx.rbufLen = bs.length ∧ s.Fits ∧
      q.unread = rest ∧ q.events = p.events ∧
      (receiverSystem host fd stream).Run p [.read (.got bs)]
        (q.enter (lucpNetRecvBuffered host s)) := by
  have hbs : p.recv.ctx.rbufLen + bs.length ≤ rbufSize := by omega
  refine ⟨{ p with unread := rest }, p.recv.push bs, ?_, ?_, RecvState.fits_push hbs, rfl, rfl, ?_⟩
  · rw [RecvState.pending_push hbs, LucpNetCtx.pending, hempty, List.take_zero, List.nil_append]
  · rw [RecvState.push, hempty, Nat.zero_add]
  · refine .single ⟨hread, rest, .got bs rest hne ?_ hun, ?_⟩
    · rw [LucpNetCtx.room]
      omega
    · rw [lucpNetRecvRead_got hne hbs]

/-- A call that gets just the bytes of one frame, or a corrupted beginning: it returns with an empty
buffer. -/
theorem Receiver.Drained.call_read (h : p.Drained) {bs rest : Bytes} {e : Event Msg}
    (hroom : bs.length ≤ rbufSize) (hun : p.unread = bs ++ rest)
    (hdec : (∃ m, e = .item m ∧ wireDecode bs = .item m bs.length) ∨
      e = .bad ∧ wireDecode bs = .bad) :
    ∃ ls q, (receiverSystem host fd stream).Run p ls q ∧ q.Drained ∧ q.unread = rest ∧
      q.events = p.events ++ [e] := by
  have hne : bs ≠ [] := by
    rintro rfl
    rw [wireDecode_short (by simp)] at hdec
    rcases hdec with ⟨m, -, hd⟩ | ⟨-, hd⟩ <;> cases hd
  obtain ⟨p1, hcall, hread, hempty, hun1, hev1⟩ := h.call host fd stream
  obtain ⟨q, s, hpend, hlen, hfit, hunq, hevq, hrun⟩ :=
    read_bytes host fd stream hread hempty hne hroom (hun1.trans hun)
  refine ⟨_, _, hcall.append hrun, ?_⟩
  rw [← hpend] at hdec
  rcases hdec with ⟨m, rfl, hd⟩ | ⟨rfl, hd⟩
  · obtain ⟨hout, hmsg, -, -, hleft⟩ := lucpNetRecvBuffered_item host hfit hd
    refine ⟨⟨by rw [enter_reading, hout]; rfl, ?_⟩, by rw [enter_unread, hunq], ?_⟩
    · rw [enter_recv, hleft, hpend, hlen, Nat.sub_self]
    · rw [events_enter_some hout, outcomeEvent, hmsg, hevq, hev1]
      rfl
  · obtain ⟨hout, hleft⟩ := lucpNetRecvBuffered_bad host hd
    refine ⟨⟨by rw [enter_reading, hout]; rfl, by rw [enter_recv, hleft]⟩,
      by rw [enter_unread, hunq], ?_⟩
    rw [events_enter_some hout, outcomeEvent, hevq, hev1]
    rfl

/-- A `read()` at the end of the stream. -/
theorem Receiver.read_eof (hread : p.reading = true) (hun : p.unread = []) :
    ∃ q, (receiverSystem host fd stream).Run p [.read (.got [])] q ∧
      q.events = p.events ++ [.eof] :=
  ⟨_, .single ⟨hread, [], by rw [hun]; exact .zero (.inr rfl), rfl⟩,
    by simp [events, enter, lucpNetRecvRead, outcomeEvent]⟩

/-- A call that comes to the end of the stream. -/
theorem Receiver.Drained.call_eof (h : p.Drained) (hneed : wireDecode p.unread = .need) :
    ∃ ls q, (receiverSystem host fd stream).Run p ls q ∧ q.events = p.events ++ [.eof] := by
  obtain ⟨p1, hcall, hread, hempty, hun1, hev1⟩ := h.call host fd stream
  rcases eq_or_ne p.unread [] with hnil | hne
  · obtain ⟨q, hrun, hev⟩ :=
      read_eof host fd stream hread (hun1.trans hnil)
    exact ⟨_, q, hcall.append hrun, by rw [hev, hev1]⟩
  · have hroom : p.unread.length ≤ rbufSize := by
      have := length_lt_of_need hneed
      rw [rbufSize]
      omega
    obtain ⟨q, s, hpend, -, -, hunq, hevq, hrun⟩ := read_bytes host fd stream
      hread hempty hne hroom (hun1.trans (List.append_nil _).symm)
    rw [← hpend] at hneed
    obtain ⟨hout, -⟩ := lucpNetRecvBuffered_need host hneed
    obtain ⟨q', hrun', hev'⟩ := read_eof (p := q.enter (lucpNetRecvBuffered host s)) host fd
      stream (by rw [enter_reading, hout]; rfl) (by rw [enter_unread, hunq])
    exact ⟨_, q', (hcall.append hrun).append hrun',
      by rw [hev', events_enter_none hout, hevq, hev1]⟩

/-- **Everything possible is reported by some run**: one that gets each frame in a `read()` of its
own, and at each corrupted one as many bytes as are to be thrown away. -/
theorem Receiver.exists_run_of_lossy {s : Bytes} {es : List (Event Msg)}
    (hl : (unpackDecoder host).Lossy rbufSize s es) {p : Receiver} (h : p.Drained)
    (hun : p.unread = s) :
    ∃ ls q, (receiverSystem host fd stream).Run p ls q ∧ q.events = p.events ++ es := by
  induction hl generalizing p with
  | @eof s hneed =>
    rw [unpackDecoder_decode, ← hun] at hneed
    exact h.call_eof host fd stream hneed
  | @item s m n es hitem _ ih =>
    rw [unpackDecoder_decode] at hitem
    obtain ⟨hn, hs⟩ := encode_of_wireDecode hitem
    have hlen : m.encode.length = n := by rw [m.length_encode, hn]
    have hdec : wireDecode m.encode = .item m m.encode.length :=
      (unpackDecoder_decode host _).symm.trans (m.encodes host)
    have hroom : m.encode.length ≤ rbufSize := by
      have := m.text_le
      rw [lucpMaxTextinfoLen] at this
      rw [m.length_encode, rbufSize]
      omega
    obtain ⟨ls, q, hrun, hq, hunq, hev⟩ :=
      h.call_read host fd stream hroom (hun.trans hs) (.inl ⟨m, rfl, hdec⟩)
    obtain ⟨ls', q', hrun', hev'⟩ := ih hq hunq
    exact ⟨_, q', hrun.append hrun', by rw [hev', hev, List.append_assoc]; rfl⟩
  | @bad s es k hcap hbad _ ih =>
    rw [unpackDecoder_decode] at hbad
    have hroom : (s.take k).length ≤ rbufSize := by
      rw [List.length_take]
      omega
    obtain ⟨ls, q, hrun, hq, hunq, hev⟩ := h.call_read host fd stream hroom
      (hun.trans (List.take_append_drop k s).symm) (.inr ⟨rfl, hbad⟩)
    obtain ⟨ls', q', hrun', hev'⟩ := ih hq hunq
    exact ⟨_, q', hrun.append hrun', by rw [hev', hev, List.append_assoc]; rfl⟩

end

/-! ## When the way of cutting makes no difference -/

/-- All runs of a receiver to the end of the stream report the same. -/
def ResumeIndependent (host : ByteOrder) (fd : Int) (stream : Bytes) : Prop :=
  ∀ (es es' : List ReceiverLabel) (p p' : Receiver),
    (receiverSystem host fd stream).Run (.fresh fd stream) es p →
    (receiverSystem host fd stream).Run (.fresh fd stream) es' p' →
    EndsAtEof p.events → EndsAtEof p'.events → p.events = p'.events

theorem Receiver.drained_fresh : (Receiver.fresh fd stream).Drained := ⟨rfl, rfl⟩

/-- The runs report the same if only one report is possible. -/
theorem resumeIndependent_iff_steady :
    ResumeIndependent host fd stream ↔ (unpackDecoder host).Steady rbufSize stream := by
  constructor
  · intro h es es' hl hl'
    obtain ⟨ls, p, hrun, hev⟩ :=
      Receiver.exists_run_of_lossy host fd stream hl Receiver.drained_fresh rfl
    obtain ⟨ls', p', hrun', hev'⟩ :=
      Receiver.exists_run_of_lossy host fd stream hl' Receiver.drained_fresh rfl
    have hp : p.events = es := hev
    have hp' : p'.events = es' := hev'
    rw [← hp, ← hp']
    exact h ls ls' p p' hrun hrun' (hp ▸ hl.endsAtEof) (hp' ▸ hl'.endsAtEof)
  · intro h es es' p p' hrun hrun' heof heof'
    exact h _ _ (Receiver.lossy_of_run hrun heof) (Receiver.lossy_of_run hrun' heof')

/-- Frames in front make no difference. -/
theorem steady_flatMap (ms : List Msg) (tail : Bytes) :
    (unpackDecoder host).Steady rbufSize (ms.flatMap Msg.encode ++ tail) ↔
      (unpackDecoder host).Steady rbufSize tail := by
  induction ms with
  | nil => rfl
  | cons m ms ih =>
    rw [List.flatMap_cons, List.append_assoc, steady_item ((m.encodes host).append _),
      List.drop_left, ih]

/-- **Behind a corrupted frame the result depends on the segmentation, unless the stream is as good
as over.**  On a stream of frames followed by a corrupted header, all ways of cutting it lead to the
same frames and errors if and only if at most fourteen bytes follow the header and these are not a
frame and not another corrupted header. -/
theorem resume_independent_iff (ms : List Msg) {tail : Bytes} (hbad : wireDecode tail = .bad) :
    ResumeIndependent host fd (ms.flatMap Msg.encode ++ tail) ↔
      tail.length ≤ 28 ∧ wireDecode (tail.drop 14) = .need := by
  rw [resumeIndependent_iff_steady, steady_flatMap,
    (unpackDecoder_headed host).steady_bad_iff (by rw [rbufSize]; omega)
      ((unpackDecoder_decode host _).trans hbad), unpackDecoder_decode]

/-- A header with a wrong magic number, which announces a text of fourteen bytes. -/
def corruptedHeader : Bytes := [0x58, 0x55, 0x43, 0x50, 1, 0, 0, 0, 0, 9, 1, 0, 0, 14]

/-- Nothing but the corrupted header. -/
theorem resume_independent_iff_header : ResumeIndependent .little 3 ([] ++ corruptedHeader) :=
  (resume_independent_iff [] (by rfl)).2 ⟨by decide, by rfl⟩

/-- **The text of a corrupted frame is delivered as a frame, or not**: the text looks like a frame
itself, and is delivered if it comes in a `read()` of its own. -/
theorem inner_frame_delivered : ∃ es es' p p',
    (receiverSystem .little 3 (corruptedHeader ++ (Msg.made 7 1 0 []).encode)).Run
      (.fresh 3 (corruptedHeader ++ (Msg.made 7 1 0 []).encode)) es p ∧
    (receiverSystem .little 3 (corruptedHeader ++ (Msg.made 7 1 0 []).encode)).Run
      (.fresh 3 (corruptedHeader ++ (Msg.made 7 1 0 []).encode)) es' p' ∧
    p.events = [.bad, .item (.made 7 1 0 []), .eof] ∧ p'.events = [.bad, .eof] := by
  have hl : (unpackDecoder .little).Lossy rbufSize (corruptedHeader ++ (Msg.made 7 1 0 []).encode)
      [.bad, .item (.made 7 1 0 []), .eof] := by
    refine .bad 14 (by decide) (by rw [unpackDecoder_decode]; rfl) ?_
    refine .item ((Msg.made 7 1 0 []).encodes .little) (.eof ?_)
    rw [unpackDecoder_decode]
    rfl
  have hl' : (unpackDecoder .little).Lossy rbufSize (corruptedHeader ++ (Msg.made 7 1 0 []).encode)
      [.bad, .eof] := by
    refine .bad 28 (by decide) (by rw [unpackDecoder_decode]; rfl) (.eof ?_)
    rw [unpackDecoder_decode]
    rfl
  obtain ⟨es, p, hrun, hev⟩ := Receiver.exists_run_of_lossy _ 3 _ hl Receiver.drained_fresh rfl
  obtain ⟨es', p', hrun', hev'⟩ := Receiver.exists_run_of_lossy _ 3 _ hl' Receiver.drained_fresh rfl
  exact ⟨es, es', p, p', hrun, hrun', hev, hev'⟩

end Lucp
