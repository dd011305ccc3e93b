import Lucp.Wire
import Lucp.General.System

/-!
# Receiving: `lucp_net_recv` and its buffer

`lucp_net_recv` first tries the buffer of the context and then reads in a loop, and either part may
find a frame, shift the buffer and return.  A call may have to wait for several `read()`s, so it is
embedded by its two atomic parts: `lucpNetRecvBuffered`, what happens before the loop, and
`lucpNetRecvRead`, one turn of the loop, given what `read()` answered.  Both return the exit the
call takes, or `none` if it goes on to the next `read()`.  The two copies of the shifting code stay
two, as in the source, and `lucpNetRecvRead_got` shows that they do the same.

`Receiver` is a process that calls `lucp_net_recv` again and again on one connection, and
`receiverSystem` its runs against every way a kernel may hand out a given byte stream.

`receive_buffer_safe` collects what keeps the buffer from overflowing; it all comes from
`length_lt_of_need`: a buffer the decoder calls incomplete holds fewer than 1024 bytes.
-/

set_option autoImplicit false

namespace Lucp

open Framing

/-! ## The context and one call -/

/-- The size of `rbuf`. -/
def rbufSize : ℕ := 2048

/-- `lucp_net_ctx_t`. -/
structure LucpNetCtx where
  fd : Int
  rbuf : CArray UInt8 rbufSize
  rbufLen : ℕ

/-- `lucp_net_ctx_init`. -/
def lucpNetCtxInit (fd : Int) : LucpNetCtx := ⟨fd, CArray.fill _ 0, 0⟩

/-- The bytes received and not yet delivered: `rbuf[0..rbuf_len)`. -/
def LucpNetCtx.pending (ctx : LucpNetCtx) : Bytes := ctx.rbuf.toList.take ctx.rbufLen

/-- How many bytes the next `read()` asks for. -/
def LucpNetCtx.room (ctx : LucpNetCtx) : ℕ := rbufSize - ctx.rbufLen

/-- What `read()` answers: the bytes it stored (none of them if it returned 0), or `-1` with `EINTR`
or with another error. -/
inductive ReadResult
  | got (bs : Bytes)
  | eintr
  | error
  deriving DecidableEq

/-- The `return` statements of `lucp_net_recv`. -/
inductive RecvExit
  | received
  | corrupted
  | readError
  | peerClosed
  | overflow
  deriving DecidableEq

/-- The value returned. -/
def RecvExit.ret : RecvExit → Int
  | .received => 0
  | _ => -1

/-- The two objects a call works on: `*ctx` and `*frame`. -/
structure RecvState where
  ctx : LucpNetCtx
  frame : LucpFrame

/-- `lucp_net_recv` up to the loop: parse what is already buffered. -/
def lucpNetRecvBuffered (host : ByteOrder) (s : RecvState) : RecvState × Option RecvExit :=
  let (parsed, frame) := lucpFrameUnpack host s.frame s.ctx.pending
  if parsed > 0 then
    let remain := s.ctx.rbufLen - parsed.toNat
    let rbuf :=
      if remain > 0 then s.ctx.rbuf.write 0 ((s.ctx.rbuf.toList.drop parsed.toNat).take remain)
      else s.ctx.rbuf
    (⟨{ s.ctx with rbuf := rbuf, rbufLen := remain }, frame⟩, some .received)
  else if parsed < 0 then (⟨{ s.ctx with rbufLen := 0 }, frame⟩, some .corrupted)
  else (⟨s.ctx, frame⟩, none)

/-- The `read()` of the loop: the kernel stores the bytes behind the buffered ones, and `rbuf_len`
counts them. -/
def RecvState.push (s : RecvState) (bs : Bytes) : RecvState :=
  ⟨{ s.ctx with rbuf := s.ctx.rbuf.write s.ctx.rbufLen bs, rbufLen := s.ctx.rbufLen + bs.length },
    s.frame⟩

/-- One turn of the loop of `lucp_net_recv`, given the answer of `read()`. -/
def lucpNetRecvRead (host : ByteOrder) (s : RecvState) : ReadResult → RecvState × Option RecvExit
  | .eintr => (s, none)
  | .error => (s, some .readError)
  | .got bs =>
    if bs.length = 0 then (s, some .peerClosed)
    else
      let s := s.push bs
      if s.ctx.rbufLen > rbufSize then (⟨{ s.ctx with rbufLen := 0 }, s.frame⟩, some .overflow)
      else
        let (parsed, frame) := lucpFrameUnpack host s.frame s.ctx.pending
        if parsed > 0 then
          let remain := s.ctx.rbufLen - parsed.toNat
          let rbuf :=
            if remain > 0 then
              s.ctx.rbuf.write 0 ((s.ctx.rbuf.toList.drop parsed.toNat).take remain)
            else s.ctx.rbuf
          (⟨{ s.ctx with rbuf := rbuf, rbufLen := remain }, frame⟩, some .received)
        else if parsed < 0 then (⟨{ s.ctx with rbufLen := 0 }, frame⟩, some .corrupted)
        else (⟨s.ctx, frame⟩, none)

/-! ## What the two parts do to the buffered bytes -/

/-- `rbuf_len` stays within the array. -/
def RecvState.Fits (s : RecvState) : Prop := s.ctx.rbufLen ≤ rbufSize

theorem RecvState.Fits.length_pending {s : RecvState} (h : s.Fits) :
    s.ctx.pending.length = s.ctx.rbufLen := by
  rw [LucpNetCtx.pending, List.length_take, s.ctx.rbuf.length_eq]
  exact Nat.min_eq_left h

theorem pending_init (fd : Int) : (lucpNetCtxInit fd).pending = [] := by
  simp [LucpNetCtx.pending, lucpNetCtxInit]

/-- A read appends to the buffered bytes, if there is room for it. -/
theorem RecvState.pending_push {s : RecvState} {bs : Bytes}
    (h : s.ctx.rbufLen + bs.length ≤ rbufSize) :
    (s.push bs).ctx.pending = s.ctx.pending ++ bs := by
  have hlen := s.ctx.rbuf.length_eq
  rw [LucpNetCtx.pending, push, CArray.write_toList h, CArray.take_blit_add (by omega),
    LucpNetCtx.pending]

theorem RecvState.fits_push {s : RecvState} {bs : Bytes}
    (h : s.ctx.rbufLen + bs.length ≤ rbufSize) : (s.push bs).Fits := h

/-- **The two paths agree**: a turn of the loop that read something is the buffered part run on the
longer buffer. -/
theorem lucpNetRecvRead_got {host : ByteOrder} {s : RecvState} {bs : Bytes} (hne : bs ≠ [])
    (h : s.ctx.rbufLen + bs.length ≤ rbufSize) :
    lucpNetRecvRead host s (.got bs) = lucpNetRecvBuffered host (s.push bs) := by
  have hlen : ¬ bs.length = 0 := by simpa using hne
  have hfit : ¬ (s.push bs).ctx.rbufLen > rbufSize := Nat.not_lt.2 (RecvState.fits_push h)
  simp only [lucpNetRecvRead, if_neg hlen, if_neg hfit, lucpNetRecvBuffered]

/-- The shift leaves the bytes behind the parsed frame. -/
theorem take_shift {rbuf : CArray UInt8 rbufSize} {len parsed : ℕ} (hlen : len ≤ rbufSize) :
    (if len - parsed > 0 then rbuf.write 0 ((rbuf.toList.drop parsed).take (len - parsed))
      else rbuf).toList.take (len - parsed) = (rbuf.toList.take len).drop parsed := by
  have hsize := rbuf.length_eq
  have hdrop : (rbuf.toList.take len).drop parsed = (rbuf.toList.drop parsed).take (len - parsed) :=
    List.drop_take
  have hl : ((rbuf.toList.drop parsed).take (len - parsed)).length = len - parsed := by
    rw [List.length_take, List.length_drop]; omega
  split
  · have h := CArray.take_write_zero rbuf ((rbuf.toList.drop parsed).take (len - parsed)) (by omega)
    rw [hdrop]
    rwa [hl] at h
  · next hz =>
    have hz' : len - parsed = 0 := by omega
    rw [hdrop, hz', List.take_zero, List.take_zero]

/-- The three outcomes of the buffered part, by the verdict on the buffered bytes. -/
theorem lucpNetRecvBuffered_need (host : ByteOrder) {s : RecvState}
    (h : wireDecode s.ctx.pending = .need) :
    (lucpNetRecvBuffered host s).2 = none ∧ (lucpNetRecvBuffered host s).1.ctx = s.ctx := by
  simp [lucpNetRecvBuffered, lucpFrameUnpack_of_need host s.frame h]

theorem lucpNetRecvBuffered_bad (host : ByteOrder) {s : RecvState}
    (h : wireDecode s.ctx.pending = .bad) :
    (lucpNetRecvBuffered host s).2 = some .corrupted ∧
      (lucpNetRecvBuffered host s).1.ctx.rbufLen = 0 := by
  simp [lucpNetRecvBuffered, lucpFrameUnpack_of_bad host s.frame h]

theorem lucpNetRecvBuffered_item (host : ByteOrder) {s : RecvState} {m : Msg} {n : ℕ}
    (hfit : s.Fits) (h : wireDecode s.ctx.pending = .item m n) :
    (lucpNetRecvBuffered host s).2 = some .received ∧
      (lucpNetRecvBuffered host s).1.frame.msg = m ∧
      (lucpNetRecvBuffered host s).1.frame.Valid ∧
      (lucpNetRecvBuffered host s).1.ctx.pending = s.ctx.pending.drop n ∧
      (lucpNetRecvBuffered host s).1.ctx.rbufLen = s.ctx.rbufLen - n := by
  obtain ⟨hret, hmsg, hvalid, hn⟩ := lucpFrameUnpack_of_item host s.frame h
  have hpos : (n : ℤ) > 0 := by omega
  simp only [lucpNetRecvBuffered, hret, if_pos hpos, Int.toNat_natCast]
  exact ⟨trivial, hmsg, hvalid, take_shift hfit, trivial⟩

/-- The buffered part keeps `rbuf_len` within the array. -/
theorem RecvState.Fits.buffered {host : ByteOrder} {s : RecvState} (hfit : s.Fits) :
    (lucpNetRecvBuffered host s).1.Fits := by
  rw [Fits] at hfit ⊢
  cases h : wireDecode s.ctx.pending with
  | need => rw [(lucpNetRecvBuffered_need _ h).2]; exact hfit
  | bad => rw [(lucpNetRecvBuffered_bad _ h).2]; exact Nat.zero_le _
  | item m n => rw [(lucpNetRecvBuffered_item _ hfit h).2.2.2.2]; omega

/-- A call that has to read found an incomplete buffer, and left it as it was. -/
theorem lucpNetRecvBuffered_none {host : ByteOrder} {s : RecvState} (hfit : s.Fits)
    (h : (lucpNetRecvBuffered host s).2 = none) :
    wireDecode s.ctx.pending = .need ∧ (lucpNetRecvBuffered host s).1.ctx = s.ctx := by
  cases hd : wireDecode s.ctx.pending with
  | need => exact ⟨rfl, (lucpNetRecvBuffered_need _ hd).2⟩
  | bad => rw [(lucpNetRecvBuffered_bad _ hd).1] at h; cases h
  | item m n => rw [(lucpNetRecvBuffered_item _ hfit hd).1] at h; cases h

theorem need_of_buffered {host : ByteOrder} {s : RecvState} (hfit : s.Fits)
    (h : (lucpNetRecvBuffered host s).2 = none) :
    wireDecode (lucpNetRecvBuffered host s).1.ctx.pending = .need := by
  obtain ⟨hneed, hctx⟩ := lucpNetRecvBuffered_none hfit h
  rw [hctx, hneed]

theorem RecvState.Fits.read {host : ByteOrder} {s : RecvState} {r : ReadResult} (hfit : s.Fits)
    (hr : ∀ bs, r = .got bs → s.ctx.rbufLen + bs.length ≤ rbufSize) :
    (lucpNetRecvRead host s r).1.Fits := by
  cases r with
  | eintr => exact hfit
  | error => exact hfit
  | got bs =>
    rcases eq_or_ne bs [] with rfl | hne
    · exact hfit
    · rw [lucpNetRecvRead_got hne (hr bs rfl)]
      exact (RecvState.fits_push (hr bs rfl)).buffered

/-! ## A process that receives from a byte stream

`unread` is the part of the stream the kernel has not handed out yet.  A `read()` may return any
number of bytes up to what was asked for, fail, or be interrupted; it returns 0 at the end of the
stream, and also when it was asked for nothing. -/

/-- `ReadRule room unread r unread'`: a `read()` asking for `room` bytes may answer `r`, after which
`unread'` is left. -/
inductive ReadRule (room : ℕ) (unread : Bytes) : ReadResult → Bytes → Prop
  | got (bs rest : Bytes) (hne : bs ≠ []) (hroom : bs.length ≤ room) (h : unread = bs ++ rest) :
      ReadRule room unread (.got bs) rest
  | zero (h : room = 0 ∨ unread = []) : ReadRule room unread (.got []) unread
  | eintr : ReadRule room unread .eintr unread
  | error : ReadRule room unread .error unread

/-- What one part of a call can do to the stream that has not been delivered yet, which is the bytes
in the buffer followed by those the kernel still holds. -/
inductive RecvOutcome (s : RecvState) (unread : Bytes) (out : RecvState × Option RecvExit)
    (unread' : Bytes) : Prop
  | waits (hout : out.2 = none) (hneed : wireDecode out.1.ctx.pending = .need)
      (hbytes : out.1.ctx.pending ++ unread' = s.ctx.pending ++ unread)
  | stops (e : RecvExit) (hout : out.2 = some e) (he : e.ret = -1)
      (hbytes : out.1.ctx.pending ++ unread' = s.ctx.pending ++ unread)
  | corrupted (hout : out.2 = some .corrupted) (hbad : wireDecode (s.ctx.pending ++ unread) = .bad)
  | received (m : Msg) (n : ℕ) (hout : out.2 = some .received) (hmsg : out.1.frame.msg = m)
      (hitem : wireDecode (s.ctx.pending ++ unread) = .item m n)
      (hbytes : out.1.ctx.pending ++ unread' = (s.ctx.pending ++ unread).drop n)

theorem RecvOutcome.of_buffered (host : ByteOrder) {s : RecvState} (hfit : s.Fits)
    (unread : Bytes) : RecvOutcome s unread (lucpNetRecvBuffered host s) unread := by
  cases hd : wireDecode s.ctx.pending with
  | need =>
    obtain ⟨hout, hctx⟩ := lucpNetRecvBuffered_need host hd
    exact .waits hout (by rw [hctx, hd]) (by rw [hctx])
  | bad =>
    exact .corrupted (lucpNetRecvBuffered_bad host hd).1 (wireDecode_bad_append unread hd)
  | item m n =>
    obtain ⟨hout, hmsg, -, hpend, -⟩ := lucpNetRecvBuffered_item host hfit hd
    have hle := (unpackDecoder host).item_le ((unpackDecoder_decode host _).trans hd)
    refine .received m n hout hmsg (wireDecode_item_append unread hd) ?_
    rw [hpend, List.drop_append_of_le_length hle]

/-- **A turn of the loop, seen from the stream.** -/
theorem RecvOutcome.of_read (host : ByteOrder) {s : RecvState} (hfit : s.Fits)
    (hneed : wireDecode s.ctx.pending = .need) {r : ReadResult} {unread unread' : Bytes}
    (hrule : ReadRule s.ctx.room unread r unread') :
    RecvOutcome s unread (lucpNetRecvRead host s r) unread' := by
  have hfits := hfit
  rw [RecvState.Fits] at hfits
  cases hrule with
  | got bs rest hne hroom h =>
    have hbs : s.ctx.rbufLen + bs.length ≤ rbufSize := by
      rw [LucpNetCtx.room] at hroom
      omega
    have hpush : (s.push bs).ctx.pending ++ unread' = s.ctx.pending ++ unread := by
      rw [RecvState.pending_push hbs, h, List.append_assoc]
    rw [lucpNetRecvRead_got hne hbs]
    cases of_buffered host (RecvState.fits_push hbs) unread' with
    | waits hout hneed' hbytes => exact .waits hout hneed' (hbytes.trans hpush)
    | stops e hout he hbytes => exact .stops e hout he (hbytes.trans hpush)
    | corrupted hout hbad => exact .corrupted hout (by rw [← hpush, hbad])
    | received m n hout hmsg hitem hbytes =>
      exact .received m n hout hmsg (by rw [← hpush, hitem]) (by rw [hbytes, hpush])
  | zero h => exact .stops .peerClosed rfl rfl rfl
  | eintr => exact .waits rfl hneed rfl
  | error => exact .stops .readError rfl rfl rfl

/-- A corrupted frame is reported by the buffered part only where there is one. -/
theorem bad_of_buffered {host : ByteOrder} {s : RecvState} (hfit : s.Fits)
    (h : (lucpNetRecvBuffered host s).2 = some .corrupted) : wireDecode s.ctx.pending = .bad := by
  cases hd : wireDecode s.ctx.pending with
  | need => rw [(lucpNetRecvBuffered_need _ hd).1] at h; cases h
  | bad => rfl
  | item m n => rw [(lucpNetRecvBuffered_item _ hfit hd).1] at h; cases h

/-- The same for a turn of the loop. -/
theorem bad_of_read {host : ByteOrder} {s : RecvState} {r : ReadResult} {unread unread' : Bytes}
    (hfit : s.Fits) (hrule : ReadRule s.ctx.room unread r unread')
    (h : (lucpNetRecvRead host s r).2 = some .corrupted) :
    wireDecode (s.ctx.pending ++ unread) = .bad := by
  rw [RecvState.Fits] at hfit
  cases hrule with
  | got bs rest hne hroom hun =>
    have hbs : s.ctx.rbufLen + bs.length ≤ rbufSize := by
      rw [LucpNetCtx.room] at hroom
      omega
    rw [lucpNetRecvRead_got hne hbs] at h
    have hbad := bad_of_buffered (RecvState.fits_push hbs) h
    rw [RecvState.pending_push hbs] at hbad
    rw [hun, ← List.append_assoc]
    exact wireDecode_bad_append _ hbad
  | zero hz => cases h
  | eintr => cases h
  | error => cases h

/-- A process calling `lucp_net_recv` over and over. -/
structure Receiver where
  recv : RecvState
  /-- Is it inside a call, waiting for `read()`? -/
  reading : Bool
  unread : Bytes
  /-- The calls that returned, oldest first: the exit taken and the frame object it left. -/
  outcomes : List (RecvExit × LucpFrame)

/-- What the process does next: call `lucp_net_recv` on some frame object, or, inside a call, get an
answer from `read()`. -/
inductive ReceiverLabel
  | call (frame : LucpFrame)
  | read (r : ReadResult)

/-- Enter the result of one part of a call. -/
def Receiver.enter (p : Receiver) (out : RecvState × Option RecvExit) : Receiver :=
  match out.2 with
  | some e =>
    { p with recv := out.1, reading := false, outcomes := p.outcomes ++ [(e, out.1.frame)] }
  | none => { p with recv := out.1, reading := true }

/-- The process with a fresh context, before its first call. -/
def Receiver.fresh (fd : Int) (unread : Bytes) : Receiver :=
  ⟨⟨lucpNetCtxInit fd, .zero⟩, false, unread, []⟩

/-- The runs of a receiving process against every way of cutting the stream. -/
def receiverSystem (host : ByteOrder) (fd : Int) (stream : Bytes) :
    System Receiver ReceiverLabel where
  init p := p = .fresh fd stream
  step p l p' :=
    match l with
    | .call frame =>
      p.reading = false ∧ p' = p.enter (lucpNetRecvBuffered host ⟨p.recv.ctx, frame⟩)
    | .read r =>
      p.reading = true ∧ ∃ unread, ReadRule p.recv.ctx.room p.unread r unread ∧
        p' = { p with unread := unread }.enter (lucpNetRecvRead host p.recv r)

variable {host : ByteOrder} {fd : Int} {stream : Bytes}

@[simp] theorem Receiver.enter_recv (p : Receiver) (out : RecvState × Option RecvExit) :
    (p.enter out).recv = out.1 := by
  rw [enter]; split <;> rfl

@[simp] theorem Receiver.enter_unread (p : Receiver) (out : RecvState × Option RecvExit) :
    (p.enter out).unread = p.unread := by
  rw [enter]; split <;> rfl

theorem Receiver.enter_reading (p : Receiver) (out : RecvState × Option RecvExit) :
    (p.enter out).reading = out.2.isNone := by
  rw [enter]; split <;> simp [*]

/-- A `read()` never stores more than it was asked for. -/
theorem ReadRule.fits {s : RecvState} {unread unread' : Bytes} {r : ReadResult} (hfit : s.Fits)
    (h : ReadRule s.ctx.room unread r unread') (bs : Bytes) (hr : r = .got bs) :
    s.ctx.rbufLen + bs.length ≤ rbufSize := by
  rw [RecvState.Fits] at hfit
  cases h with
  | got bs' rest hne hroom h =>
    cases hr
    rw [LucpNetCtx.room] at hroom
    omega
  | zero h => cases hr; simpa using hfit
  | eintr => cases hr
  | error => cases hr

/-- The invariant of a receiving process: the buffer fits, and inside the loop it is incomplete. -/
structure Receiver.Safe (p : Receiver) : Prop where
  fits : p.recv.Fits
  need : p.reading = true → wireDecode p.recv.ctx.pending = .need

theorem Receiver.Safe.rbufLen_lt {p : Receiver} (h : p.Safe) (hr : p.reading = true) :
    p.recv.ctx.rbufLen < 1024 := by
  rw [← h.fits.length_pending]
  exact length_lt_of_need (h.need hr)

theorem Receiver.safe_call {p : Receiver} (h : p.Safe) (frame : LucpFrame) :
    (p.enter (lucpNetRecvBuffered host ⟨p.recv.ctx, frame⟩)).Safe := by
  have hfit : RecvState.Fits ⟨p.recv.ctx, frame⟩ := h.fits
  refine ⟨by rw [enter_recv]; exact hfit.buffered, fun hr => ?_⟩
  rw [enter_reading, Option.isNone_iff_eq_none] at hr
  rw [enter_recv]
  exact need_of_buffered hfit hr

theorem Receiver.safe_read {p : Receiver} {r : ReadResult} {unread unread' : Bytes} (h : p.Safe)
    (hread : p.reading = true) (hrule : ReadRule p.recv.ctx.room unread r unread') :
    ({ p with unread := unread' }.enter (lucpNetRecvRead host p.recv r)).Safe := by
  have hbs := hrule.fits h.fits
  refine ⟨by rw [enter_recv]; exact h.fits.read hbs, fun hr => ?_⟩
  rw [enter_reading, Option.isNone_iff_eq_none] at hr
  rw [enter_recv]
  cases r with
  | eintr => exact h.need hread
  | error => cases hr
  | got bs =>
    rcases eq_or_ne bs [] with rfl | hne
    · cases hr
    · rw [lucpNetRecvRead_got hne (hbs bs rfl)] at hr ⊢
      exact need_of_buffered (RecvState.fits_push (hbs bs rfl)) hr

theorem Receiver.safe_step {p q : Receiver} {l : ReceiverLabel} (h : p.Safe)
    (hs : (receiverSystem host fd stream).step p l q) : q.Safe := by
  cases l with
  | call frame =>
    obtain ⟨-, rfl⟩ := hs
    exact safe_call h frame
  | read r =>
    obtain ⟨hread, unread', hrule, rfl⟩ := hs
    exact safe_read h hread hrule

theorem Receiver.safe_fresh : (Receiver.fresh fd stream).Safe := by
  refine ⟨Nat.zero_le _, fun hr => ?_⟩
  cases hr

theorem Receiver.safe_of_reachable {p : Receiver}
    (h : (receiverSystem host fd stream).Reachable p) : p.Safe := by
  refine h.invariant Receiver.Safe (fun s hs => ?_) fun t e t' ht hs => safe_step ht hs
  rw [show s = .fresh fd stream from hs]
  exact safe_fresh

/-! ## How much one call reads -/

/-- Did the `read()` return bytes? -/
def ReadResult.successful : ReadResult → Bool
  | .got (_ :: _) => true
  | _ => false

/-- Outside a call there is nothing to read. -/
theorem Receiver.reads_eq_nil {p q : Receiver} {rs : List ReadResult} (h : p.reading = false)
    (hrun : (receiverSystem host fd stream).Run p (rs.map .read) q) : rs = [] := by
  cases rs with
  | nil => rfl
  | cons r rs =>
    cases hrun with
    | cons hs _ => exact absurd (h.symm.trans hs.1) (by simp)

/-- **The reading loop ends.**  Each successful `read()` adds at least one byte, and the loop goes
on only while fewer than 1024 are buffered. -/
theorem Receiver.reads_le {p q : Receiver} {rs : List ReadResult} (h : p.Safe)
    (hread : p.reading = true)
    (hrun : (receiverSystem host fd stream).Run p (rs.map .read) q) :
    rs.countP ReadResult.successful ≤ 1024 - p.recv.ctx.rbufLen := by
  induction rs generalizing p with
  | nil => exact Nat.zero_le _
  | cons r rs ih =>
    cases hrun with
    | @cons _ t _ _ _ hs hrest =>
      have hsafe := safe_step h hs
      have hlt := h.rbufLen_lt hread
      obtain ⟨-, unread', hrule, rfl⟩ := hs
      have hbs := hrule.fits h.fits
      by_cases hcont : (lucpNetRecvRead host p.recv r).2 = none
      · -- the call goes on: the buffer has grown by what was read
        have hr' : ({ p with unread := unread' }.enter
            (lucpNetRecvRead host p.recv r)).reading = true := by
          rw [enter_reading, hcont]; rfl
        have hrest' := ih hsafe hr' hrest
        have hlt' := hsafe.rbufLen_lt hr'
        rw [enter_recv] at hrest' hlt'
        cases r with
        | eintr => simpa [ReadResult.successful, lucpNetRecvRead] using hrest'
        | error => cases hcont
        | got bs =>
          rcases eq_or_ne bs [] with rfl | hne
          · cases hcont
          · have hlen := List.length_pos_of_ne_nil hne
            rw [lucpNetRecvRead_got hne (hbs bs rfl)] at hcont hrest' hlt'
            rw [(lucpNetRecvBuffered_none (RecvState.fits_push (hbs bs rfl)) hcont).2]
              at hrest' hlt'
            simp only [RecvState.push] at hrest' hlt'
            rw [List.countP_cons]
            split <;> omega
      · have hnil := reads_eq_nil (by
          rw [enter_reading, Option.isNone_eq_false_iff, Option.isSome_iff_ne_none]
          exact hcont) hrest
        subst hnil
        rw [List.countP_cons, List.countP_nil]
        split <;> omega

theorem parsed_le_length (host : ByteOrder) (f : LucpFrame) (b : Bytes) :
    (lucpFrameUnpack host f b).1 ≤ b.length := by
  cases h : wireDecode b with
  | need => rw [lucpFrameUnpack_of_need host f h]; omega
  | bad => rw [lucpFrameUnpack_of_bad host f h]; omega
  | item m n =>
    obtain ⟨hret, -, -, -⟩ := lucpFrameUnpack_of_item host f h
    obtain ⟨hn, hb⟩ := encode_of_wireDecode h
    have hlen := congrArg List.length hb
    rw [List.length_append, m.length_encode] at hlen
    omega

theorem overflow_unreachable {s : RecvState} {unread unread' : Bytes} {r : ReadResult}
    (hfit : s.Fits) (hrule : ReadRule s.ctx.room unread r unread') :
    (lucpNetRecvRead host s r).2 ≠ some .overflow := by
  have hbs := hrule.fits hfit
  cases r with
  | eintr => simp [lucpNetRecvRead]
  | error => simp [lucpNetRecvRead]
  | got bs =>
    rcases eq_or_ne bs [] with rfl | hne
    · simp [lucpNetRecvRead]
    · rw [lucpNetRecvRead_got hne (hbs bs rfl)]
      cases hd : wireDecode (s.push bs).ctx.pending with
      | need => rw [(lucpNetRecvBuffered_need _ hd).1]; simp
      | bad => rw [(lucpNetRecvBuffered_bad _ hd).1]; simp
      | item m n =>
        rw [(lucpNetRecvBuffered_item _ (RecvState.fits_push (hbs bs rfl)) hd).1]; simp

/-- **The receive buffer is safe, and a call makes progress, whatever the peer sends.**  In every
reachable state `rbuf_len` is within the array and no parse takes more than is buffered; a `read()`
is issued with room for at least 1025 bytes, so a result of 0 means the end of the stream, and it
never overflows; and a call makes at most `1024 - rbuf_len` successful reads. -/
theorem receive_buffer_safe {p : Receiver} (h : (receiverSystem host fd stream).Reachable p) :
    p.recv.ctx.rbufLen ≤ rbufSize ∧
      (∀ frame, (lucpFrameUnpack host frame p.recv.ctx.pending).1 ≤ p.recv.ctx.rbufLen) ∧
      (p.reading = true → 1025 ≤ p.recv.ctx.room ∧
        ∀ r unread', ReadRule p.recv.ctx.room p.unread r unread' →
          (r = .got [] → p.unread = []) ∧
            (lucpNetRecvRead host p.recv r).2 ≠ some .overflow ∧
            ∀ bs, r = .got bs →
              (lucpFrameUnpack host p.recv.frame (p.recv.push bs).ctx.pending).1
                ≤ (p.recv.push bs).ctx.rbufLen) ∧
      (p.reading = false → ∀ (frame : LucpFrame) (rs : List ReadResult) (q : Receiver),
        (receiverSystem host fd stream).Run p (.call frame :: rs.map .read) q →
          rs.countP ReadResult.successful ≤ 1024 - p.recv.ctx.rbufLen) := by
  have hsafe := Receiver.safe_of_reachable h
  refine ⟨hsafe.fits, fun frame => ?_, fun hread => ⟨?_, fun r unread' hrule => ⟨?_, ?_, ?_⟩⟩, ?_⟩
  · rw [← hsafe.fits.length_pending]
    exact parsed_le_length host frame _
  · have := hsafe.rbufLen_lt hread
    rw [LucpNetCtx.room, rbufSize]
    omega
  · rintro rfl
    have := hsafe.rbufLen_lt hread
    cases hrule with
    | got _ _ hne => exact absurd rfl hne
    | zero hz =>
      refine hz.resolve_left ?_
      rw [LucpNetCtx.room, rbufSize]
      omega
  · exact overflow_unreachable hsafe.fits hrule
  · rintro bs rfl
    have hfit := RecvState.fits_push (hrule.fits hsafe.fits bs rfl)
    rw [← hfit.length_pending]
    exact parsed_le_length host _ _
  · intro hidle frame rs q hrun
    cases hrun with
    | cons hs hrest =>
      have hsafe' := Receiver.safe_step hsafe hs
      obtain ⟨-, rfl⟩ := hs
      have hfit : RecvState.Fits ⟨p.recv.ctx, frame⟩ := hsafe.fits
      by_cases hcont : (lucpNetRecvBuffered host ⟨p.recv.ctx, frame⟩).2 = none
      · have hle := Receiver.reads_le hsafe' (by rw [Receiver.enter_reading, hcont]; rfl) hrest
        rwa [Receiver.enter_recv, (lucpNetRecvBuffered_none hfit hcont).2] at hle
      · have hnil := Receiver.reads_eq_nil (by
          rw [Receiver.enter_reading, Option.isNone_eq_false_iff, Option.isSome_iff_ne_none]
          exact hcont) hrest
        subst hnil
        exact Nat.zero_le _

/-- The first call of a fresh context, waiting for its first `read()`. -/
theorem receive_buffer_safe_first_call :
    1025 ≤ ((Receiver.fresh 3 [0x4C, 0x55]).enter
      (lucpNetRecvBuffered .little ⟨lucpNetCtxInit 3, .zero⟩)).recv.ctx.room :=
  ((@receive_buffer_safe .little 3 [0x4C, 0x55] _
    ((System.Reachable.of_init rfl).step (e := .call .zero) ⟨rfl, rfl⟩)).2.2.1 (by decide)).1

end Lucp
