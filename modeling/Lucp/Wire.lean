import Lucp.Frame
import Lucp.General.Framing

/-!
# The wire format, and pack and unpack as its two directions

A frame object is a buffer that gets reused; what two parties exchange is the message in it.  `Msg`
is that message, `Msg.encode` its bytes, and `wireDecode` reads one message off the front of a byte
string: this is the abstract format, with no object, no offset and no byte order in it.

The rest of the file says that the code implements it.

* `lucpFrameUnpack_spec` — one lemma for the three outcomes of `lucp_frame_unpack`, on any frame
  object and any host: the result is the verdict of `wireDecode`, and on success the object then
  carries the decoded message.
* `unpackDecoder` — `lucp_frame_unpack` is a `Framing.Decoder`: what it has once said about a
  buffer it also says about every longer one.  The receiving side builds on this.
* `frame_roundtrip` — pack and unpack are inverse to each other, across hosts.
-/

set_option autoImplicit false

namespace Lucp

open Framing

/-! ## Messages -/

/-- What a frame says.  The magic number is the same for all, so it is left out. -/
@[ext] structure Msg where
  versionMajor : UInt8
  versionMinor : UInt8
  seqNum : UInt32
  msgType : UInt8
  status : UInt8
  text : Bytes
  /-- The format has no room for a longer text. -/
  text_le : text.length ≤ lucpMaxTextinfoLen
  deriving DecidableEq

/-- The message in a frame object. -/
def LucpFrame.msg (f : LucpFrame) : Msg where
  versionMajor := f.versionMajor
  versionMinor := f.versionMinor
  seqNum := f.seqNum
  msgType := f.msgType
  status := f.status
  text := f.text
  text_le := by
    rw [LucpFrame.text, List.length_take, f.textInfo.length_eq]
    exact Nat.min_le_right _ _

/-- The bytes of a message on the wire. -/
def Msg.encode (m : Msg) : Bytes :=
  be32 lucpMagic ++ [m.versionMajor] ++ [m.versionMinor] ++ be32 m.seqNum ++ [m.msgType] ++
    [m.status] ++ be16 (UInt16.ofNat m.text.length) ++ m.text

theorem Msg.length_encode (m : Msg) : m.encode.length = 14 + m.text.length := by
  simp [encode, be32, be16]
  omega

theorem Msg.toNat_textLen (m : Msg) : (UInt16.ofNat m.text.length).toNat = m.text.length := by
  have h := m.text_le
  simp only [lucpMaxTextinfoLen] at h
  exact Nat.mod_eq_of_lt (by omega)

/-- A valid frame packs to the bytes of its message. -/
theorem LucpFrame.Valid.encode_eq {f : LucpFrame} (h : f.Valid) : f.encode = f.msg.encode := by
  have hlen : UInt16.ofNat f.text.length = f.textInfoLen := by
    rw [LucpFrame.length_text h.len, UInt16.ofNat_toNat]
  rw [LucpFrame.encode, Msg.encode, h.magic]
  simp only [LucpFrame.msg, hlen]

/-- The message of a frame made by this library: its own version, and as much of the text as the
format has room for. -/
def Msg.made (seq : UInt32) (msgType status : UInt8) (text : Bytes) : Msg where
  versionMajor := lucpVerMajor
  versionMinor := lucpVerMinor
  seqNum := seq
  msgType := msgType
  status := status
  text := text.take lucpMaxTextinfoLen
  text_le := List.length_take_le _ _

/-- The length `lucp_frame_make` stores. -/
theorem cutLen_toNat (len : UInt16) :
    (if len.toNat > lucpMaxTextinfoLen then UInt16.ofNat lucpMaxTextinfoLen else len).toNat
      = min len.toNat lucpMaxTextinfoLen := by
  split
  · next h => rw [Nat.min_eq_right (Nat.le_of_lt h)]; rfl
  · next h => rw [Nat.min_eq_left (Nat.not_lt.1 h)]

/-- Every field but the text array is set by `lucp_frame_make`. -/
theorem lucpFrameMake_eq (f : LucpFrame) (seq : UInt32) (msgType status : UInt8)
    (p : Option Bytes) (len : UInt16) :
    ∃ cut textInfo, cut.toNat = min len.toNat lucpMaxTextinfoLen ∧
      lucpFrameMake f seq msgType status p len
        = ⟨lucpMagic, lucpVerMajor, lucpVerMinor, seq, msgType, status, cut, textInfo⟩ ∧
      ∀ text, p = some text → 0 < cut.toNat →
        textInfo = f.textInfo.write 0 (text.take cut.toNat) := by
  refine ⟨_, (lucpFrameMake f seq msgType status p len).textInfo, cutLen_toNat len, ?_, ?_⟩
  · unfold lucpFrameMake
    cases p with
    | none => rfl
    | some text => dsimp only; grind
  · rintro text rfl hpos
    unfold lucpFrameMake
    dsimp only
    rw [if_pos hpos]

theorem lucpFrameMake_valid (f : LucpFrame) (seq : UInt32) (msgType status : UInt8)
    (p : Option Bytes) (len : UInt16) : (lucpFrameMake f seq msgType status p len).Valid := by
  obtain ⟨cut, textInfo, hcut, heq, -⟩ := lucpFrameMake_eq f seq msgType status p len
  rw [heq]
  exact ⟨rfl, by rw [hcut]; exact Nat.min_le_right _ _⟩

/-- **A made frame carries the text it was made with**, cut to what fits, whatever the object held
before.  The pointer has to give as many bytes as are copied, and may be `NULL` where the length is
zero. -/
theorem lucpFrameMake_text (f : LucpFrame) (seq : UInt32) (msgType status : UInt8) {text : Bytes}
    {p : Option Bytes} {len : UInt16} (hp : p = some text ∨ len.toNat = 0)
    (hread : min len.toNat lucpMaxTextinfoLen ≤ text.length) :
    (lucpFrameMake f seq msgType status p len).msg
      = .made seq msgType status (text.take len.toNat) := by
  obtain ⟨cut, textInfo, hcut, heq, hcopy⟩ := lucpFrameMake_eq f seq msgType status p len
  have htext : textInfo.toList.take cut.toNat
      = (text.take len.toNat).take lucpMaxTextinfoLen := by
    rw [List.take_take, Nat.min_comm, ← hcut]
    rcases Nat.eq_zero_or_pos cut.toNat with hz | hpos
    · rw [hz, List.take_zero, List.take_zero]
    · have hsome : p = some text := hp.resolve_right (by omega)
      have hl : (text.take cut.toNat).length = cut.toNat := by rw [List.length_take]; omega
      have hle : (text.take cut.toNat).length ≤ lucpMaxTextinfoLen := by
        rw [hl, hcut]
        exact Nat.min_le_right _ _
      have hw := CArray.take_write_zero f.textInfo (text.take cut.toNat) hle
      rw [hl] at hw
      rw [hcopy text hsome hpos, hw]
  rw [heq]
  unfold LucpFrame.msg LucpFrame.text Msg.made
  simp only [htext]

/-- The same for a text handed over with its own length. -/
theorem lucpFrameMake_msg (f : LucpFrame) (seq : UInt32) (msgType status : UInt8) (text : Bytes)
    {p : Option Bytes} (hlen : text.length < 2 ^ 16) (hp : p = some text ∨ text = []) :
    (lucpFrameMake f seq msgType status p (UInt16.ofNat text.length)).msg
      = .made seq msgType status text := by
  have hlen' : (UInt16.ofNat text.length).toNat = text.length := Nat.mod_eq_of_lt hlen
  rw [@lucpFrameMake_text f seq msgType status text _ _
    (hp.imp_right fun h => by rw [hlen', h, List.length_nil]) (by omega), hlen', List.take_length]

/-! ## Reading a message off a byte string -/

/-- The verdict of the format on a byte string: fewer than fourteen bytes or an incomplete text ask
for more, a wrong magic or an oversized text can never become a message. -/
def wireDecode : Bytes → Verdict Msg
  | m0 :: m1 :: m2 :: m3 :: maj :: min :: s0 :: s1 :: s2 :: s3 :: typ :: sta :: l0 :: l1 :: rest =>
    if ofBe32 m0 m1 m2 m3 ≠ lucpMagic then .bad
    else if h : (ofBe16 l0 l1).toNat ≤ lucpMaxTextinfoLen then
      if rest.length < (ofBe16 l0 l1).toNat then .need
      else
        .item ⟨maj, min, ofBe32 s0 s1 s2 s3, typ, sta, rest.take (ofBe16 l0 l1).toNat,
          (List.length_take_le _ _).trans h⟩ (14 + (ofBe16 l0 l1).toNat)
    else .bad
  | _ => .need

/-- Fourteen bytes are a header and a rest. -/
theorem exists_header {b : Bytes} (h : 14 ≤ b.length) :
    ∃ m0 m1 m2 m3 maj min s0 s1 s2 s3 typ sta l0 l1 rest,
      b = m0 :: m1 :: m2 :: m3 :: maj :: min :: s0 :: s1 :: s2 :: s3 :: typ :: sta :: l0 :: l1 ::
        rest := by
  match b, h with
  | m0 :: m1 :: m2 :: m3 :: maj :: min :: s0 :: s1 :: s2 :: s3 :: typ :: sta :: l0 :: l1 :: rest,
    _ => exact ⟨m0, m1, m2, m3, maj, min, s0, s1, s2, s3, typ, sta, l0, l1, rest, rfl⟩

theorem wireDecode_short {b : Bytes} (h : b.length < 14) : wireDecode b = .need := by
  rw [wireDecode]
  rintro m0 m1 m2 m3 maj min s0 s1 s2 s3 typ sta l0 l1 rest rfl
  simp only [List.length_cons] at h
  omega

/-- The frame object after a successful unpack of the given header and rest. -/
def LucpFrame.filled (f : LucpFrame) (maj min : UInt8) (seq : UInt32) (typ sta : UInt8)
    (len : UInt16) (rest : Bytes) : LucpFrame where
  magic := lucpMagic
  versionMajor := maj
  versionMinor := min
  seqNum := seq
  msgType := typ
  status := sta
  textInfoLen := len
  textInfo := f.textInfo.write 0 (rest.take len.toNat)

/-- Unpack on a header and a rest, with the byte order of the host gone. -/
theorem lucpFrameUnpack_header (host : ByteOrder) (f : LucpFrame)
    (m0 m1 m2 m3 maj min s0 s1 s2 s3 typ sta l0 l1 : UInt8) (rest : Bytes)
    (hm : ofBe32 m0 m1 m2 m3 = lucpMagic) (hl : (ofBe16 l0 l1).toNat ≤ lucpMaxTextinfoLen)
    (hr : (ofBe16 l0 l1).toNat ≤ rest.length) :
    lucpFrameUnpack host f (m0 :: m1 :: m2 :: m3 :: maj :: min :: s0 :: s1 :: s2 :: s3 :: typ ::
        sta :: l0 :: l1 :: rest)
      = (14 + ((ofBe16 l0 l1).toNat : ℤ),
          f.filled maj min (ofBe32 s0 s1 s2 s3) typ sta (ofBe16 l0 l1) rest) := by
  rw [lucpFrameUnpack, if_neg (by simp only [List.length_cons]; omega)]
  simp only [byteAt, List.getD_cons_zero, List.getD_cons_succ, ntohlC_load32, ntohsC_load16,
    List.drop_succ_cons, List.drop_zero, List.length_cons, hm, ne_eq, not_true_eq_false, if_false,
    if_neg (Nat.not_lt.2 hl), gt_iff_lt, hl, and_true]
  rw [if_neg (by omega)]
  -- with no text the source skips the copy, which would have copied nothing
  split
  · rfl
  · next hz =>
    simp only [LucpFrame.filled, Nat.eq_zero_of_not_pos hz, List.take_zero, CArray.write_nil]

theorem LucpFrame.filled_valid {f : LucpFrame} {maj min typ sta : UInt8} {seq : UInt32}
    {len : UInt16} {rest : Bytes} (hl : len.toNat ≤ lucpMaxTextinfoLen) :
    (f.filled maj min seq typ sta len rest).Valid :=
  ⟨rfl, hl⟩

theorem LucpFrame.filled_text (f : LucpFrame) (maj min : UInt8) (seq : UInt32) (typ sta : UInt8)
    (len : UInt16) (rest : Bytes) (hl : len.toNat ≤ lucpMaxTextinfoLen)
    (hr : len.toNat ≤ rest.length) :
    (f.filled maj min seq typ sta len rest).text = rest.take len.toNat := by
  have hlen : (rest.take len.toNat).length = len.toNat := by rw [List.length_take]; omega
  have h := CArray.take_write_zero f.textInfo (rest.take len.toNat) (by omega)
  rwa [hlen] at h

/-- **The code reads the wire format.**  Whatever the frame object held before and whatever the
host, the result of `lucp_frame_unpack` is the verdict of the format, and after a success the object
is valid and carries the decoded message. -/
theorem lucpFrameUnpack_spec (host : ByteOrder) (f : LucpFrame) (b : Bytes) :
    match wireDecode b with
    | .need => (lucpFrameUnpack host f b).1 = 0
    | .bad => (lucpFrameUnpack host f b).1 = -1
    | .item m n => (lucpFrameUnpack host f b).1 = n ∧ (lucpFrameUnpack host f b).2.msg = m ∧
        (lucpFrameUnpack host f b).2.Valid ∧ n = 14 + m.text.length := by
  rcases Nat.lt_or_ge b.length 14 with hshort | hlong
  · rw [wireDecode_short hshort, lucpFrameUnpack, if_pos hshort]
  obtain ⟨m0, m1, m2, m3, maj, min, s0, s1, s2, s3, typ, sta, l0, l1, rest, rfl⟩ :=
    exists_header hlong
  rw [wireDecode]
  by_cases hm : ofBe32 m0 m1 m2 m3 = lucpMagic
  · by_cases hl : (ofBe16 l0 l1).toNat ≤ lucpMaxTextinfoLen
    · by_cases hr : rest.length < (ofBe16 l0 l1).toNat
      · rw [if_neg (not_not.2 hm), dif_pos hl, if_pos hr, lucpFrameUnpack, if_neg hlong.not_gt]
        simp only [byteAt, List.getD_cons_zero, List.getD_cons_succ, ntohlC_load32, ntohsC_load16,
          hm, ne_eq, not_true_eq_false, if_false, gt_iff_lt, Nat.not_lt.2 hl]
        rw [if_pos (by simp only [List.length_cons]; omega)]
      · have hr' := Nat.not_lt.1 hr
        have htext := f.filled_text maj min (ofBe32 s0 s1 s2 s3) typ sta _ rest hl hr'
        rw [if_neg (not_not.2 hm), dif_pos hl, if_neg hr,
          lucpFrameUnpack_header host f _ _ _ _ _ _ _ _ _ _ _ _ _ _ _ hm hl hr']
        refine ⟨by simp, ?_, LucpFrame.filled_valid hl, ?_⟩
        · ext1 <;> first | rfl | exact htext
        · simp only [List.length_take]
          omega
    · rw [if_neg (not_not.2 hm), dif_neg hl, lucpFrameUnpack, if_neg hlong.not_gt]
      simp [byteAt, ntohlC_load32, ntohsC_load16, hm, Nat.lt_of_not_le hl]
  · rw [if_pos hm, lucpFrameUnpack, if_neg hlong.not_gt]
    simp [byteAt, ntohlC_load32, hm]

theorem lucpFrameUnpack_of_need (host : ByteOrder) (f : LucpFrame) {b : Bytes}
    (h : wireDecode b = .need) : (lucpFrameUnpack host f b).1 = 0 := by
  have := lucpFrameUnpack_spec host f b
  rwa [h] at this

theorem lucpFrameUnpack_of_bad (host : ByteOrder) (f : LucpFrame) {b : Bytes}
    (h : wireDecode b = .bad) : (lucpFrameUnpack host f b).1 = -1 := by
  have := lucpFrameUnpack_spec host f b
  rwa [h] at this

theorem lucpFrameUnpack_of_item (host : ByteOrder) (f : LucpFrame) {b : Bytes} {m : Msg} {n : ℕ}
    (h : wireDecode b = .item m n) :
    (lucpFrameUnpack host f b).1 = n ∧ (lucpFrameUnpack host f b).2.msg = m ∧
      (lucpFrameUnpack host f b).2.Valid ∧ n = 14 + m.text.length := by
  have := lucpFrameUnpack_spec host f b
  rwa [h] at this

/-! ## The two directions of the format -/

/-- Reading the bytes of a message gives the message, whatever follows them. -/
theorem wireDecode_encode_append (m : Msg) (c : Bytes) :
    wireDecode (m.encode ++ c) = .item m (14 + m.text.length) := by
  have hlen := m.toNat_textLen
  simp only [Msg.encode, be32, be16, List.cons_append, List.nil_append, wireDecode, ofBe32_bytes,
    ofBe16_bytes, hlen, ne_eq, not_true_eq_false, if_false, dif_pos m.text_le]
  rw [if_neg (by simp)]
  simp only [List.take_left]

/-- What was read as a message are the bytes of that message. -/
theorem encode_of_wireDecode {b : Bytes} {m : Msg} {n : ℕ} (h : wireDecode b = .item m n) :
    n = 14 + m.text.length ∧ b = m.encode ++ b.drop n := by
  rcases Nat.lt_or_ge b.length 14 with hshort | hlong
  · rw [wireDecode_short hshort] at h; cases h
  obtain ⟨m0, m1, m2, m3, maj, min, s0, s1, s2, s3, typ, sta, l0, l1, rest, rfl⟩ :=
    exists_header hlong
  rw [wireDecode] at h
  split at h
  · cases h
  · next hm =>
    split at h
    · next hl =>
      split at h
      · cases h
      · next hr =>
        cases h
        have hlen : (rest.take (ofBe16 l0 l1).toNat).length = (ofBe16 l0 l1).toNat := by
          rw [List.length_take]; omega
        have hdrop : ∀ k, (m0 :: m1 :: m2 :: m3 :: maj :: min :: s0 :: s1 :: s2 :: s3 :: typ ::
            sta :: l0 :: l1 :: rest).drop (14 + k) = rest.drop k := fun k => by
          rw [← List.drop_drop]; rfl
        refine ⟨by rw [hlen], ?_⟩
        rw [hdrop, Msg.encode, hlen, UInt16.ofNat_toNat, be16_ofBe16, be32_ofBe32,
          ← not_not.1 hm, be32_ofBe32]
        simp only [List.cons_append, List.nil_append, List.take_append_drop]
    · cases h

theorem wireDecode_item_append {b : Bytes} {m : Msg} {n : ℕ} (c : Bytes)
    (h : wireDecode b = .item m n) : wireDecode (b ++ c) = .item m n := by
  obtain ⟨hn, hb⟩ := encode_of_wireDecode h
  rw [hb, List.append_assoc, wireDecode_encode_append, hn]

theorem wireDecode_bad_append {b : Bytes} (c : Bytes) (h : wireDecode b = .bad) :
    wireDecode (b ++ c) = .bad := by
  rcases Nat.lt_or_ge b.length 14 with hshort | hlong
  · rw [wireDecode_short hshort] at h; cases h
  obtain ⟨m0, m1, m2, m3, maj, min, s0, s1, s2, s3, typ, sta, l0, l1, rest, rfl⟩ :=
    exists_header hlong
  rw [wireDecode] at h
  simp only [List.cons_append, wireDecode]
  split at h
  · next hm => rw [if_pos hm]
  · next hm =>
    split at h
    · split at h <;> cases h
    · next hl => rw [if_neg hm, dif_neg hl]

/-! ## The code as a decoder -/

/-- The verdict of `lucp_frame_unpack` on a buffer, read off its result and the object it leaves. -/
def unpackVerdict (host : ByteOrder) (b : Bytes) : Verdict Msg :=
  let r := lucpFrameUnpack host LucpFrame.zero b
  if r.1 < 0 then .bad else if r.1 = 0 then .need else .item r.2.msg r.1.toNat

theorem unpackVerdict_eq (host : ByteOrder) (b : Bytes) : unpackVerdict host b = wireDecode b := by
  rw [unpackVerdict]
  cases h : wireDecode b with
  | need => simp [lucpFrameUnpack_of_need host .zero h]
  | bad => simp [lucpFrameUnpack_of_bad host .zero h]
  | item m n =>
    obtain ⟨hret, hmsg, -, hn⟩ := lucpFrameUnpack_of_item host .zero h
    rw [hret, hmsg, if_neg (by omega), if_neg (by omega), Int.toNat_natCast]

/-- `lucp_frame_unpack` is a stable decoder. -/
def unpackDecoder (host : ByteOrder) : Decoder UInt8 Msg where
  decode := unpackVerdict host
  item_pos h := by
    rw [unpackVerdict_eq] at h
    have := (encode_of_wireDecode h).1
    omega
  item_le {b m n} h := by
    rw [unpackVerdict_eq] at h
    obtain ⟨hn, hb⟩ := encode_of_wireDecode h
    have hlen := congrArg List.length hb
    rw [List.length_append, m.length_encode] at hlen
    omega
  item_append c h := by
    rw [unpackVerdict_eq] at h ⊢
    exact wireDecode_item_append c h
  bad_append c h := by
    rw [unpackVerdict_eq] at h ⊢
    exact wireDecode_bad_append c h

@[simp] theorem unpackDecoder_decode (host : ByteOrder) (b : Bytes) :
    (unpackDecoder host).decode b = wireDecode b :=
  unpackVerdict_eq host b

/-- The bytes of a message are a complete encoding of it for the code's decoder. -/
theorem Msg.encodes (host : ByteOrder) (m : Msg) : (unpackDecoder host).Encodes m.encode m := by
  have h := wireDecode_encode_append m []
  rw [List.append_nil, ← m.length_encode] at h
  rw [Decoder.Encodes, unpackDecoder_decode, h]

/-- An incomplete frame is short: this bounds what a receiver has to buffer. -/
theorem length_lt_of_need {b : Bytes} (h : wireDecode b = .need) : b.length < 1024 := by
  rcases Nat.lt_or_ge b.length 14 with hshort | hlong
  · omega
  obtain ⟨m0, m1, m2, m3, maj, min, s0, s1, s2, s3, typ, sta, l0, l1, rest, rfl⟩ :=
    exists_header hlong
  rw [wireDecode] at h
  split at h
  · cases h
  · split at h
    · next hl =>
      split at h
      · next hr =>
        simp only [List.length_cons, lucpMaxTextinfoLen] at hl ⊢
        omega
      · cases h
    · cases h

/-! ## Streams of messages -/

/-- Whatever the frame, a message read where its bytes begin is its own. -/
theorem LucpFrame.decode_encode {f : LucpFrame} {c : Bytes} {m : Msg} {n : ℕ}
    (h : wireDecode (f.encode ++ c) = .item m n) : m = f.msg ∧ n = f.encode.length := by
  by_cases hm : f.magic = lucpMagic
  · by_cases hl : f.textInfoLen.toNat ≤ lucpMaxTextinfoLen
    · have hv : f.Valid := ⟨hm, hl⟩
      rw [hv.encode_eq, wireDecode_encode_append, Verdict.item.injEq] at h
      rw [hv.encode_eq, Msg.length_encode]
      exact ⟨h.1.symm, h.2.symm⟩
    · simp [encode, be32, be16, wireDecode, ofBe32_bytes, ofBe16_bytes, hm, hl] at h
  · simp [encode, be32, be16, wireDecode, ofBe32_bytes, hm] at h

/-- **A stream of copies of a frame holds no message but that of the frame.** -/
theorem wireDecode_framed {f : LucpFrame} {s : Bytes} (hs : Framed f.encode s) {m : Msg} {n : ℕ}
    (h : wireDecode s = .item m n) : m = f.msg ∧ s = f.encode ++ s.drop n := by
  rcases hs.cases with ⟨⟨c, hc⟩, hlt⟩ | ⟨s', rfl, -⟩
  · -- a message within an unfinished copy would be shorter than the copy
    have hfull := wireDecode_item_append c h
    rw [hc, ← List.append_nil f.encode] at hfull
    have hn := (LucpFrame.decode_encode hfull).2
    have hle := (unpackDecoder .little).item_le ((unpackDecoder_decode _ _).trans h)
    omega
  · obtain ⟨hm, hn⟩ := LucpFrame.decode_encode h
    exact ⟨hm, by rw [hn, List.drop_left]⟩

/-- A stream of encoded messages gives them back one by one. -/
theorem wireDecode_flatMap {ms : List Msg} {c s : Bytes} (hs : s ++ c = ms.flatMap Msg.encode) :
    wireDecode s ≠ .bad ∧
      ∀ m n, wireDecode s = .item m n →
        ∃ ms', ms = m :: ms' ∧ s.drop n ++ c = ms'.flatMap Msg.encode := by
  cases ms with
  | nil =>
    obtain ⟨rfl, -⟩ := List.append_eq_nil_iff.1 hs
    rw [wireDecode_short (by simp)]
    exact ⟨by simp, fun m n h => by cases h⟩
  | cons x ms =>
    rw [List.flatMap_cons] at hs
    have hdec := wireDecode_encode_append x (ms.flatMap Msg.encode)
    rw [← hs] at hdec
    refine ⟨fun h => ?_, fun m n h => ?_⟩
    · rw [wireDecode_bad_append c h] at hdec; cases hdec
    · have hle := (unpackDecoder .little).item_le ((unpackDecoder_decode _ _).trans h)
      rw [wireDecode_item_append c h, Verdict.item.injEq] at hdec
      obtain ⟨rfl, rfl⟩ := hdec
      refine ⟨ms, rfl, ?_⟩
      rw [← List.drop_append_of_le_length hle, hs, ← m.length_encode, List.drop_left]

/-! ## Pack and unpack -/

theorem LucpFrame.Valid.textInfoLen_eq {f g : LucpFrame} (hf : f.Valid) (hg : g.Valid)
    (h : f.msg = g.msg) : f.textInfoLen = g.textInfoLen := by
  have hlen := congrArg (List.length ∘ Msg.text) h
  simp only [Function.comp, LucpFrame.msg, LucpFrame.length_text hf.len,
    LucpFrame.length_text hg.len] at hlen
  exact UInt16.toNat_inj.1 hlen

/-- **Pack and unpack are inverse to each other, across hosts.**  Packing a valid frame writes its
encoding and nothing behind it, and unpacking that encoding, on any host and with anything behind
it, gives the same message; and a frame that came out of unpack packs back to the very bytes it was
read from. -/
theorem frame_roundtrip (packHost unpackHost : ByteOrder) (g : LucpFrame) :
    (∀ (f : LucpFrame) (buf trailing : Bytes), f.Valid → 14 + f.textInfoLen.toNat ≤ buf.length →
      let n := 14 + f.textInfoLen.toNat
      let packed := lucpFramePack packHost f buf
      let unpacked := lucpFrameUnpack unpackHost g (packed.2.take n ++ trailing)
      packed.1 = n ∧ packed.2.length = buf.length ∧ packed.2.drop n = buf.drop n ∧
        unpacked.1 = n ∧ unpacked.2.msg = f.msg ∧ unpacked.2.textInfoLen = f.textInfoLen) ∧
    ∀ (b buf : Bytes), 0 < (lucpFrameUnpack unpackHost g b).1 →
      (lucpFrameUnpack unpackHost g b).1 ≤ buf.length →
      let unpacked := lucpFrameUnpack unpackHost g b
      let packed := lucpFramePack packHost unpacked.2 buf
      packed.1 = unpacked.1 ∧ packed.2.take unpacked.1.toNat = b.take unpacked.1.toNat := by
  constructor
  · intro f buf trailing hf hbuf
    have henc := LucpFrame.length_encode hf.len
    have htake : (f.encode ++ buf.drop (14 + f.textInfoLen.toNat)).take
        (14 + f.textInfoLen.toNat) = f.msg.encode := by
      rw [← henc, List.take_left, hf.encode_eq]
    have hdec : wireDecode (f.msg.encode ++ trailing) = .item f.msg (14 + f.textInfoLen.toNat) := by
      rw [wireDecode_encode_append, ← LucpFrame.length_text hf.len]; rfl
    obtain ⟨hret, hmsg, hvalid, -⟩ := lucpFrameUnpack_of_item unpackHost g hdec
    rw [lucpFramePack_ok packHost hf.len hbuf]
    simp only [htake]
    refine ⟨by simp, ?_, ?_, hret, hmsg, hvalid.textInfoLen_eq hf hmsg⟩
    · rw [List.length_append, List.length_drop, henc]; omega
    · rw [← henc, List.drop_left]
  · intro b buf hpos hbuf
    cases hdec : wireDecode b with
    | need => rw [lucpFrameUnpack_of_need _ _ hdec] at hpos; omega
    | bad => rw [lucpFrameUnpack_of_bad _ _ hdec] at hpos; omega
    | item m n =>
      obtain ⟨hret, hmsg, hvalid, hn⟩ := lucpFrameUnpack_of_item unpackHost g hdec
      obtain ⟨-, hb⟩ := encode_of_wireDecode hdec
      have hlen : 14 + (lucpFrameUnpack unpackHost g b).2.textInfoLen.toNat = n := by
        rw [hn, ← hmsg, ← LucpFrame.length_text hvalid.len]; rfl
      have henc := LucpFrame.length_encode hvalid.len
      simp only [hret, Int.toNat_natCast]
      rw [lucpFramePack_ok packHost hvalid.len (by omega), hlen]
      refine ⟨by simp only; omega, ?_⟩
      have hme : m.encode.length = n := by rw [m.length_encode, hn]
      rw [hvalid.encode_eq, hmsg, ← hme, List.take_left, hb, List.take_left]

/-- A request packed on a little-endian host and read on a big-endian one, and a bare header read
and packed again. -/
theorem frame_roundtrip_request :
    (lucpFrameUnpack .big .zero ((lucpFramePack .little
        (lucpFrameMake .zero 10001 lucpMtypUploadRequest 0 (some [72, 105]) 2)
        (List.replicate 20 0)).2.take 16 ++ [9, 9])).2.seqNum = 10001 ∧
      (lucpFramePack .little (lucpFrameUnpack .big .zero
        [0x4C, 0x55, 0x43, 0x50, 1, 0, 0, 0, 0, 7, 1, 0, 0, 0, 5]).2 (List.replicate 14 0)).1 = 14 := by
  obtain ⟨hpack, hunpack⟩ := frame_roundtrip .little .big .zero
  have h1 := hpack (lucpFrameMake .zero 10001 lucpMtypUploadRequest 0 (some [72, 105]) 2)
    (List.replicate 20 0) [9, 9] ⟨by decide, by decide⟩ (by decide)
  have h2 := hunpack [0x4C, 0x55, 0x43, 0x50, 1, 0, 0, 0, 0, 7, 1, 0, 0, 0, 5]
    (List.replicate 14 0) (by decide) (by decide)
  exact ⟨congrArg Msg.seqNum h1.2.2.2.2.1, h2.1.trans (by decide)⟩

end Lucp
