import Lucp.Wire

/-!
# Sending: `full_write` and `lucp_net_send`

`lucp_net_send` packs the frame into a local buffer and hands it to `full_write`, which calls
`write()` until every byte is taken or a call fails.  What `write()` answers is the environment's
choice, so `full_write` is embedded by one turn of its loop, `fullWriteTurn`; the packing, in which
nothing is chosen, is the function `lucpNetSendPack`.
-/

set_option autoImplicit false

namespace Lucp

/-- What `write()` answers: a byte count, or `-1` with `EINTR` or with another error. -/
inductive WriteResult
  | wrote (n : ℕ)
  | eintr
  | error
  deriving DecidableEq

/-- How many bytes the kernel took. -/
def WriteResult.count : WriteResult → ℕ
  | .wrote n => n
  | .eintr => 0
  | .error => 0

/-- A `write()` that neither fails nor returns 0. -/
def WriteResult.NoFailure (r : WriteResult) : Prop := r ≠ .error ∧ r ≠ .wrote 0

/-- Where `full_write` stands after a turn: `return 0`, back to `write()`, or `return -1`. -/
inductive WriteTurn
  | done
  | more (written : ℕ)
  | failed

/-- The loop test of `full_write`. -/
def fullWriteTest (len written : ℕ) : WriteTurn :=
  if written < len then .more written else .done

/-- One turn of the loop of `full_write`, given the answer of `write()`. -/
def fullWriteTurn (len written : ℕ) : WriteResult → WriteTurn
  | .eintr => fullWriteTest len written
  | .error => .failed
  | .wrote n => if n = 0 then .failed else fullWriteTest len (written + n)

/-- The bytes `lucp_net_send` hands to `full_write`, if the frame can be packed. -/
def lucpNetSendPack (host : ByteOrder) (frame : LucpFrame) : Option Bytes :=
  let (len, buf) := lucpFramePack host frame (List.replicate (14 + lucpMaxTextinfoLen) 0)
  if len < 0 then none else some (buf.take len.toNat)

/-- A frame is sent as its encoding, or not at all. -/
theorem lucpNetSendPack_eq (host : ByteOrder) (f : LucpFrame) :
    lucpNetSendPack host f
      = if f.textInfoLen.toNat ≤ lucpMaxTextinfoLen then some f.encode else none := by
  have hbuf : (List.replicate (14 + lucpMaxTextinfoLen) (0 : UInt8)).length
      = 14 + lucpMaxTextinfoLen := List.length_replicate
  split
  · next hlen =>
    have hpos : ¬ (14 + (f.textInfoLen.toNat : ℤ) < 0) := by omega
    have htoNat : (14 + (f.textInfoLen.toNat : ℤ)).toNat = f.encode.length := by
      rw [LucpFrame.length_encode hlen]
      omega
    rw [lucpNetSendPack, lucpFramePack_ok host hlen (by rw [hbuf]; omega)]
    simp only [if_neg hpos, htoNat, List.take_left]
  · next hlen =>
    rw [lucpNetSendPack, lucpFramePack, if_pos (by rw [hbuf]; omega)]
    rfl

-- the local buffer is large, and the equation above says all there is to know
attribute [irreducible] lucpNetSendPack

theorem lucpNetSendPack_some {host : ByteOrder} {f : LucpFrame} {buf : Bytes}
    (h : lucpNetSendPack host f = some buf) : buf = f.encode ∧ 14 ≤ buf.length := by
  rw [lucpNetSendPack_eq] at h
  split at h
  · next hlen =>
    cases h
    exact ⟨rfl, by rw [LucpFrame.length_encode hlen]; omega⟩
  · cases h

/-- What one turn of `full_write` can do, besides failing: with `n` more bytes taken, it goes on
while some are left. -/
theorem fullWriteTurn_cases {len written : ℕ} (hw : written < len) (r : WriteResult) :
    (fullWriteTurn len written r = .failed ∧ r.count = 0) ∨
      (fullWriteTurn len written r = .more (written + r.count) ∧ written + r.count < len) ∨
      fullWriteTurn len written r = .done ∧ len ≤ written + r.count := by
  cases r with
  | eintr => exact .inr (.inl ⟨if_pos hw, hw⟩)
  | error => exact .inl ⟨rfl, rfl⟩
  | wrote n =>
    rcases Nat.eq_zero_or_pos n with rfl | hn
    · exact .inl ⟨rfl, rfl⟩
    · have hturn : fullWriteTurn len written (.wrote n) = fullWriteTest len (written + n) :=
        if_neg hn.ne'
      rw [hturn, fullWriteTest]
      split
      · next hlt => exact .inr (.inl ⟨rfl, hlt⟩)
      · next hge => exact .inr (.inr ⟨rfl, Nat.not_lt.1 hge⟩)

theorem fullWriteTurn_of_noFailure {r : WriteResult} (hr : r.NoFailure) (len written : ℕ) :
    fullWriteTurn len written r = fullWriteTest len (written + r.count) := by
  cases r with
  | eintr => rfl
  | error => exact absurd rfl hr.1
  | wrote n =>
    have hn : n ≠ 0 := fun hn => hr.2 (by rw [hn])
    rw [fullWriteTurn, if_neg hn]
    rfl

end Lucp
