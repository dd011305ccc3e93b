import Lucp.Recv

/-!
# A frame object that is used again and again

Both ends of a connection keep one `lucp_frame_t` and hand it to `lucp_frame_make`,
`lucp_frame_unpack` and `lucp_net_recv` for one message after the other.  What the object held
before shows in two places: `lucp_frame_unpack` stores the length of the text before it looks
whether the array has room for it, and `lucp_frame_make` stores a length without a text if the
pointer is `NULL`.

## What is here

* `unpack_bounded_iff` — which bytes leave a length that is too large in the object.
* `frameObject_bounded_iff` — **the length stays within the array in exactly the runs that never
  unpack a header with a larger one.**
* `make_pack_iff` — **what is packed depends on the arguments of the last make alone exactly if
  there is a pointer, or both objects hold the same bytes in the place of the text.**
-/

set_option autoImplicit false

namespace Lucp

/-! ## The length in the object -/

/-- The length of the text is within the array. -/
def LucpFrame.Bounded (f : LucpFrame) : Prop := f.textInfoLen.toNat ≤ lucpMaxTextinfoLen

/-- The bytes start with a complete header that declares a text longer than the array. -/
def Overlong (b : Bytes) : Prop :=
  14 ≤ b.length ∧ ofBe32 (byteAt b 0) (byteAt b 1) (byteAt b 2) (byteAt b 3) = lucpMagic ∧
    lucpMaxTextinfoLen < (ofBe16 (byteAt b 12) (byteAt b 13)).toNat

instance (f : LucpFrame) : Decidable f.Bounded := Nat.decLe _ _

instance (b : Bytes) : Decidable (Overlong b) := inferInstanceAs (Decidable (_ ∧ _ ∧ _))

/-- **Which bytes leave a length in the object that is too large.** -/
theorem unpack_bounded_iff (host : ByteOrder) {f : LucpFrame} (hf : f.Bounded) (b : Bytes) :
    (lucpFrameUnpack host f b).2.Bounded ↔ ¬ Overlong b := by
  rw [lucpFrameUnpack, Overlong]
  by_cases hshort : b.length < 14
  · rw [if_pos hshort]
    exact iff_of_true hf fun h => absurd h.1 (Nat.not_le.2 hshort)
  · have hlong : 14 ≤ b.length := Nat.not_lt.1 hshort
    rw [if_neg hshort]
    simp only [ntohlC_load32, ntohsC_load16, hlong, true_and]
    by_cases hmagic : ofBe32 (byteAt b 0) (byteAt b 1) (byteAt b 2) (byteAt b 3) = lucpMagic
    · rw [if_neg (not_not.2 hmagic)]
      by_cases hlen : lucpMaxTextinfoLen < (ofBe16 (byteAt b 12) (byteAt b 13)).toNat
      · rw [if_pos hlen]
        exact iff_of_false (Nat.not_le.2 hlen) (not_not.2 ⟨hmagic, hlen⟩)
      · rw [if_neg hlen]
        refine iff_of_true ?_ fun h => hlen h.2
        split
        · exact Nat.not_lt.1 hlen
        · split
          · exact Nat.not_lt.1 hlen
          · exact Nat.not_lt.1 hlen
    · rw [if_pos hmagic]
      exact iff_of_true hf fun h => hmagic h.1

/-- `lucp_frame_make` cuts the length. -/
theorem make_bounded (f : LucpFrame) (seq : UInt32) (msgType status : UInt8)
    (textInfo : Option Bytes) (textInfoLen : UInt16) :
    (lucpFrameMake f seq msgType status textInfo textInfoLen).Bounded :=
  (lucpFrameMake_valid f seq msgType status textInfo textInfoLen).len

/-- `lucp_net_recv` does nothing to the object but to unpack into it. -/
theorem lucpNetRecvBuffered_frame (host : ByteOrder) (s : RecvState) :
    (lucpNetRecvBuffered host s).1.frame = (lucpFrameUnpack host s.frame s.ctx.pending).2 := by
  rw [lucpNetRecvBuffered]
  dsimp only
  split
  · rfl
  · split <;> rfl

/-! ## Runs -/

/-- A process with one frame object, and the context of the `lucp_net_recv` it is in. -/
structure FrameUser where
  recv : RecvState
  /-- Is it inside a call, waiting for `read()`? -/
  reading : Bool

/-- What the process does next: one of the calls, the last of them on any context, or inside that
call the answer of `read()`. -/
inductive FrameUse where
  | make (seq : UInt32) (msgType status : UInt8) (textInfo : Option Bytes) (textInfoLen : UInt16)
  | unpack (buf : Bytes)
  | recv (ctx : LucpNetCtx)
  | read (r : ReadResult)

/-- The process with another content of the object. -/
def FrameUser.store (p : FrameUser) (frame : LucpFrame) : FrameUser :=
  { p with recv := ⟨p.recv.ctx, frame⟩ }

/-- Enter the result of a part of `lucp_net_recv`. -/
def FrameUser.enter (out : RecvState × Option RecvExit) : FrameUser := ⟨out.1, out.2.isNone⟩

/-- The runs of the process; a `read()` stores as much as it is asked for at most. -/
def frameSystem (host : ByteOrder) : System FrameUser FrameUse where
  init p := p.reading = false ∧ p.recv.frame.Bounded
  step p e p' :=
    match e with
    | .make seq msgType status textInfo textInfoLen =>
      p.reading = false ∧
        p' = p.store (lucpFrameMake p.recv.frame seq msgType status textInfo textInfoLen)
    | .unpack buf => p.reading = false ∧ p' = p.store (lucpFrameUnpack host p.recv.frame buf).2
    | .recv ctx =>
      p.reading = false ∧ p' = .enter (lucpNetRecvBuffered host ⟨ctx, p.recv.frame⟩)
    | .read r =>
      p.reading = true ∧ (∀ bs, r = .got bs → p.recv.ctx.rbufLen + bs.length ≤ rbufSize) ∧
        p' = .enter (lucpNetRecvRead host p.recv r)

/-- The bytes that are unpacked in the next step, if any are. -/
def FrameUser.unpacks (p : FrameUser) : FrameUse → Option Bytes
  | .make .. => none
  | .unpack buf => some buf
  | .recv ctx => some ctx.pending
  | .read (.got bs) => if bs = [] then none else some (p.recv.ctx.pending ++ bs)
  | .read .eintr => none
  | .read .error => none

/-- The length is within the array. -/
def FrameUser.Bounded (p : FrameUser) : Prop := p.recv.frame.Bounded

/-- The next step does not unpack a header with a length that is too large. -/
def NoOverlong (p : FrameUser) (e : FrameUse) : Prop := ∀ b, p.unpacks e = some b → ¬ Overlong b

/-- **One step**: unpacking is the only thing that can go wrong. -/
theorem frameSystem_step {host : ByteOrder} {p p' : FrameUser} {e : FrameUse} (hp : p.Bounded)
    (h : (frameSystem host).step p e p') : p'.Bounded ↔ NoOverlong p e := by
  have hunpack (b : Bytes) (hb : p.unpacks e = some b) : NoOverlong p e ↔ ¬ Overlong b :=
    ⟨fun hno => hno b hb, fun hno b' hb' => Option.some.inj (hb.symm.trans hb') ▸ hno⟩
  have hnone (hb : p.unpacks e = none) : NoOverlong p e := fun b hb' => by
    rw [hb] at hb'
    cases hb'
  cases e with
  | make seq msgType status textInfo textInfoLen =>
    obtain ⟨-, rfl⟩ := h
    exact iff_of_true (make_bounded _ _ _ _ _ _) (hnone rfl)
  | unpack buf =>
    obtain ⟨-, rfl⟩ := h
    rw [hunpack buf rfl]
    exact unpack_bounded_iff host hp buf
  | recv ctx =>
    obtain ⟨-, rfl⟩ := h
    rw [hunpack ctx.pending rfl, FrameUser.Bounded, FrameUser.enter, lucpNetRecvBuffered_frame]
    exact unpack_bounded_iff host hp ctx.pending
  | read r =>
    obtain ⟨-, hfit, rfl⟩ := h
    cases r with
    | eintr => exact iff_of_true hp (hnone rfl)
    | error => exact iff_of_true hp (hnone rfl)
    | got bs =>
      by_cases hbs : bs = []
      · subst hbs
        exact iff_of_true hp (hnone rfl)
      · have hroom := hfit bs rfl
        rw [hunpack _ (if_neg hbs), FrameUser.Bounded, FrameUser.enter,
          lucpNetRecvRead_got hbs hroom, lucpNetRecvBuffered_frame, RecvState.pending_push hroom]
        exact unpack_bounded_iff host hp _

/-- **The length stays within the array in exactly the runs that never unpack a header with a
larger one.** -/
theorem frameObject_bounded_iff {host : ByteOrder} {p q : FrameUser} {es : List FrameUse}
    (hinit : (frameSystem host).init p) :
    ((frameSystem host).within FrameUser.Bounded).Run p es q ↔
      ((frameSystem host).restrict NoOverlong).Run p es q :=
  System.Run.within_iff NoOverlong (fun _ => True) FrameUser.Bounded trivial hinit.2
    fun _ _ _ _ hgood hs => ⟨trivial, frameSystem_step hgood hs⟩

/-- A process before its first call. -/
def FrameUser.fresh : FrameUser := ⟨⟨lucpNetCtxInit 3, .zero⟩, false⟩

theorem FrameUser.init_fresh (host : ByteOrder) : (frameSystem host).init .fresh :=
  ⟨rfl, Nat.zero_le _⟩

/-- A frame is made, and five bytes are unpacked. -/
theorem frameObject_bounded_iff_fresh :
    let made := FrameUser.fresh.store
      (lucpFrameMake .zero 10001 lucpMtypUploadRequest 0 (some [72, 105]) 2)
    let unpacked := made.store (lucpFrameUnpack .little made.recv.frame [1, 2, 3, 4, 5]).2
    ((frameSystem .little).within FrameUser.Bounded).Run .fresh
      [.make 10001 lucpMtypUploadRequest 0 (some [72, 105]) 2, .unpack [1, 2, 3, 4, 5]]
      unpacked := by
  intro made unpacked
  refine (frameObject_bounded_iff (FrameUser.init_fresh .little)).2 ?_
  have hmake : NoOverlong .fresh
      (.make 10001 lucpMtypUploadRequest 0 (some [72, 105]) 2) := fun b hb => by cases hb
  have hunpack : NoOverlong made (.unpack [1, 2, 3, 4, 5]) := by
    rintro b hb
    cases hb
    decide
  exact .cons ⟨hmake, rfl, rfl⟩ (.single ⟨hunpack, rfl, rfl⟩)

/-- A header that declares a text of 1011 bytes. -/
def overlongHeader : Bytes := [0x4C, 0x55, 0x43, 0x50, 1, 0, 0, 0, 0, 1, 1, 0, 0x03, 0xF3]

theorem overlong_overlongHeader : Overlong overlongHeader := by decide

/-- **The length is stored before it is refused**, by `lucp_frame_unpack` and by `lucp_net_recv`. -/
theorem overlong_stored :
    (∃ q, (frameSystem .little).Run .fresh [.unpack overlongHeader] q ∧
      q.recv.frame.textInfoLen = 1011 ∧ ¬ q.Bounded) ∧
    ∃ q, (frameSystem .little).Run .fresh
      [.recv (lucpNetCtxInit 3), .read (.got overlongHeader)] q ∧
        q.reading = false ∧ q.recv.frame.textInfoLen = 1011 ∧ ¬ q.Bounded := by
  have hzero : LucpFrame.zero.Bounded := Nat.zero_le _
  have hstored : (lucpFrameUnpack .little .zero overlongHeader).2.textInfoLen = 1011 := by decide
  have hbad : ¬ (lucpFrameUnpack .little .zero overlongHeader).2.Bounded := fun h =>
    (unpack_bounded_iff .little hzero _).1 h overlong_overlongHeader
  refine ⟨⟨_, .single ⟨rfl, rfl⟩, hstored, hbad⟩, ?_⟩
  -- the call finds nothing in its buffer, and the header in its first `read()`
  let s : RecvState := ⟨lucpNetCtxInit 3, .zero⟩
  have hwaits : FrameUser.enter (lucpNetRecvBuffered .little s) = ⟨s, true⟩ := rfl
  have hroom : s.ctx.rbufLen + overlongHeader.length ≤ rbufSize := by decide
  have hpending : (s.push overlongHeader).ctx.pending = overlongHeader := by
    rw [RecvState.pending_push hroom, pending_init, List.nil_append]
  have hread : lucpNetRecvRead .little s (.got overlongHeader)
      = lucpNetRecvBuffered .little (s.push overlongHeader) :=
    lucpNetRecvRead_got (by decide) hroom
  have hframe : (lucpNetRecvRead .little s (.got overlongHeader)).1.frame
      = (lucpFrameUnpack .little .zero overlongHeader).2 := by
    rw [hread, lucpNetRecvBuffered_frame, hpending]
    rfl
  refine ⟨.enter (lucpNetRecvRead .little s (.got overlongHeader)), ?_, ?_, ?_, ?_⟩
  · refine .cons (t := ⟨s, true⟩) ⟨rfl, hwaits.symm⟩ (.single ⟨rfl, ?_, rfl⟩)
    rintro bs hbs
    cases hbs
    exact hroom
  · have hcorrupted : (lucpNetRecvBuffered .little (s.push overlongHeader)).2 = some .corrupted :=
      (lucpNetRecvBuffered_bad .little (by rw [hpending]; rfl)).1
    rw [FrameUser.enter, hread, hcorrupted]
    rfl
  · exact (congrArg LucpFrame.textInfoLen hframe).trans hstored
  · rwa [FrameUser.Bounded, FrameUser.enter, hframe]

/-! ## What is packed -/

/-- What a made frame has in its text: the bytes at the pointer, or else what was there before. -/
theorem make_text (f : LucpFrame) (seq : UInt32) (msgType status : UInt8) {p : Option Bytes}
    {len : UInt16}
    (hread : ∀ text, p = some text → min len.toNat lucpMaxTextinfoLen ≤ text.length) :
    (lucpFrameMake f seq msgType status p len).text
      = (p.getD f.textInfo.toList).take (min len.toNat lucpMaxTextinfoLen) := by
  cases p with
  | none =>
    rw [← cutLen_toNat]
    rfl
  | some text =>
    have hmsg := lucpFrameMake_text f seq msgType status (.inl rfl) (hread text rfl)
    have htext : (lucpFrameMake f seq msgType status (some text) len).text
        = (text.take len.toNat).take lucpMaxTextinfoLen := congrArg Msg.text hmsg
    rw [htext, List.take_take, Nat.min_comm, Option.getD_some]

/-- The result of `lucp_frame_make` and `lucp_frame_pack`, one after the other, and the bytes that
are packed. -/
def makeAndPack (host : ByteOrder) (f : LucpFrame) (seq : UInt32) (msgType status : UInt8)
    (p : Option Bytes) (len : UInt16) (buf : Bytes) : ℤ × Bytes :=
  let (ret, buf) := lucpFramePack host (lucpFrameMake f seq msgType status p len) buf
  (ret, buf.take ret.toNat)

theorem makeAndPack_eq (host : ByteOrder) (f : LucpFrame) (seq : UInt32) (msgType status : UInt8)
    (p : Option Bytes) (len : UInt16) {buf : Bytes} (hbuf : 1024 ≤ buf.length) :
    makeAndPack host f seq msgType status p len buf
      = (14 + ((min len.toNat lucpMaxTextinfoLen : ℕ) : ℤ),
          (lucpFrameMake f seq msgType status p len).encode) := by
  have hlen : (lucpFrameMake f seq msgType status p len).textInfoLen.toNat ≤ lucpMaxTextinfoLen :=
    make_bounded f seq msgType status p len
  have hcut : (lucpFrameMake f seq msgType status p len).textInfoLen.toNat
      = min len.toNat lucpMaxTextinfoLen := by
    obtain ⟨cut, textInfo, hcut, heq, -⟩ := lucpFrameMake_eq f seq msgType status p len
    rw [heq]
    exact hcut
  have henc := LucpFrame.length_encode hlen
  have hroom : 14 + lucpMaxTextinfoLen ≤ 1024 := by decide
  rw [makeAndPack, lucpFramePack_ok host hlen (by omega), ← hcut]
  refine Prod.ext rfl ?_
  have htake : (14 + ((lucpFrameMake f seq msgType status p len).textInfoLen.toNat : ℤ)).toNat
      = (lucpFrameMake f seq msgType status p len).encode.length := by omega
  dsimp only
  rw [htake, List.take_left]

/-- Made frames are packed to the same bytes if they carry the same text. -/
theorem encode_make_iff (f g : LucpFrame) (seq : UInt32) (msgType status : UInt8)
    (p : Option Bytes) (len : UInt16) :
    (lucpFrameMake f seq msgType status p len).encode
        = (lucpFrameMake g seq msgType status p len).encode ↔
      (lucpFrameMake f seq msgType status p len).text
        = (lucpFrameMake g seq msgType status p len).text := by
  obtain ⟨cut, textInfo, hcut, heq, -⟩ := lucpFrameMake_eq f seq msgType status p len
  obtain ⟨cut', textInfo', hcut', heq', -⟩ := lucpFrameMake_eq g seq msgType status p len
  obtain rfl : cut = cut' := UInt16.toNat_inj.1 (hcut.trans hcut'.symm)
  rw [heq, heq']
  exact List.append_right_inj _

/-- **What is packed depends on the arguments of the last make alone exactly if there is a pointer,
or both objects hold the same bytes in the place of the text.**  For all contents of the object at
once: if there is a pointer, or no text. -/
theorem make_pack_iff (host : ByteOrder) (seq : UInt32) (msgType status : UInt8)
    {p : Option Bytes} {len : UInt16} {buf buf' : Bytes}
    (hread : ∀ text, p = some text → min len.toNat lucpMaxTextinfoLen ≤ text.length)
    (hbuf : 1024 ≤ buf.length) (hbuf' : 1024 ≤ buf'.length) :
    (∀ f g : LucpFrame,
      makeAndPack host f seq msgType status p len buf
          = makeAndPack host g seq msgType status p len buf' ↔
        p ≠ none ∨ f.textInfo.toList.take (min len.toNat lucpMaxTextinfoLen)
          = g.textInfo.toList.take (min len.toNat lucpMaxTextinfoLen)) ∧
    ((∀ f g : LucpFrame,
      makeAndPack host f seq msgType status p len buf
        = makeAndPack host g seq msgType status p len buf') ↔ p ≠ none ∨ len = 0) := by
  have hpair (f g : LucpFrame) :
      makeAndPack host f seq msgType status p len buf
          = makeAndPack host g seq msgType status p len buf' ↔
        p ≠ none ∨ f.textInfo.toList.take (min len.toNat lucpMaxTextinfoLen)
          = g.textInfo.toList.take (min len.toNat lucpMaxTextinfoLen) := by
    rw [makeAndPack_eq host f seq msgType status p len hbuf,
      makeAndPack_eq host g seq msgType status p len hbuf', Prod.mk.injEq, eq_self, true_and,
      encode_make_iff, make_text f seq msgType status hread, make_text g seq msgType status hread]
    cases p with
    | none => simp
    | some text => simp
  refine ⟨hpair, ?_, ?_⟩
  · intro hall
    by_cases hp : p = none
    · -- objects that differ in every byte of the text
      let other : LucpFrame := { LucpFrame.zero with textInfo := CArray.fill _ 1 }
      have htext := ((hpair .zero other).1 (hall _ _)).resolve_left (not_not.2 hp)
      have hlist : (List.replicate lucpMaxTextinfoLen (0 : UInt8)).take
            (min len.toNat lucpMaxTextinfoLen)
          = (List.replicate lucpMaxTextinfoLen (1 : UInt8)).take
              (min len.toNat lucpMaxTextinfoLen) := htext
      rw [List.take_replicate, List.take_replicate, List.replicate_inj] at hlist
      have hzero := hlist.2.resolve_right (by decide)
      have hpos : 0 < lucpMaxTextinfoLen := by decide
      refine .inr (UInt16.toNat_inj.1 (?_ : len.toNat = 0))
      omega
    · exact .inl hp
  · rintro hcond f g
    refine (hpair f g).2 (hcond.imp_right ?_)
    rintro rfl
    rfl

/-- A text of two bytes, and the objects before and after a message. -/
theorem make_pack_iff_text :
    makeAndPack .little .zero 10001 lucpMtypAckStart lucpStatSuccess (some [72, 105]) 2
        (List.replicate 1024 0)
      = makeAndPack .little { LucpFrame.zero with textInfo := CArray.fill _ 1 } 10001
        lucpMtypAckStart lucpStatSuccess (some [72, 105]) 2 (List.replicate 1024 0) := by
  have hread : ∀ text : Bytes, some [72, 105] = some text →
      min (2 : UInt16).toNat lucpMaxTextinfoLen ≤ text.length := by
    rintro text htext
    cases htext
    decide
  exact ((make_pack_iff .little 10001 lucpMtypAckStart lucpStatSuccess hread
    (List.length_replicate).ge (List.length_replicate).ge).1 _ _).2 (.inl (by simp))

/-- **A length without a pointer sends what the object held before.** -/
theorem stale_text_packed :
    makeAndPack .little .zero 10001 lucpMtypAckStart lucpStatSuccess none 2
        (List.replicate 1024 0)
      ≠ makeAndPack .little { LucpFrame.zero with textInfo := CArray.fill _ 1 } 10001
        lucpMtypAckStart lucpStatSuccess none 2 (List.replicate 1024 0) := by
  rw [makeAndPack_eq _ _ _ _ _ _ _ (List.length_replicate).ge,
    makeAndPack_eq _ _ _ _ _ _ _ (List.length_replicate).ge]
  decide

end Lucp
