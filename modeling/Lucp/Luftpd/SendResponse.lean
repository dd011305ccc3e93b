import Lucp.General.Checked
import Lucp.Luftpd.Client

/-!
# The buffer of `luftpd_send_response`

The function formats its text into an array of 1024 characters, sets the length to 1021 if it is
more, looks at the last two characters in front of that length, and writes CR and LF behind them if
they are something else.

## What is here

* `luftpdSendResponseBuffer` — the function on its array, with whatever that holds at the start.
* `sendResponse_line` — **it stays inside the array and sends a whole line**, the one that
  `luftpdSendResponse` says.
-/

set_option autoImplicit false

namespace Lucp.Luftpd

/-! ## The function on its array -/

/-- CR and LF. -/
def crlf : Bytes := [0x0D, 0x0A]

/-- `vsnprintf(buffer, sizeof(buffer), fmt, args)`, where `text` is what the arguments make of the
format. -/
def vsnprintf {n : ℕ} (buffer : CArray UInt8 n) (text : Bytes) : Checked Unit (CArray UInt8 n) :=
  buffer.store 0 (text.take (n - 1) ++ [0])

/-- Whether the characters in front of `len` end a line. -/
def endsLine {n : ℕ} (buffer : CArray UInt8 n) (len : ℕ) : Checked Unit Bool :=
  if len < 2 then return false
  else do
    if (← buffer.get (len - 2)) ≠ 0x0D then return false
    return (← buffer.get (len - 1)) = 0x0A

/-- `luftpd_send_response()`: the array, and what is handed to `send()`.  There is no text if
`vsnprintf()` fails, which it also does for one that is too long for an `int`. -/
def luftpdSendResponseBuffer (buffer : CArray UInt8 1024) (text : Option Bytes) :
    Checked Unit (CArray UInt8 1024 × Bytes) :=
  match text with
  | none => .error ()
  | some text => do
    let buffer ← vsnprintf buffer text
    let len := if 1024 - 3 ≤ text.length then 1024 - 3 else text.length
    if ← endsLine buffer len then return (buffer, ← buffer.load 0 len)
    else
      -- `strcpy(buffer + len, "\r\n")`
      let buffer ← buffer.store len (crlf ++ [0])
      return (buffer, ← buffer.load 0 (len + 2))

/-! ## What it sends -/

/-- What stands in the array in front of the length. -/
theorem vsnprintf_front (buffer : CArray UInt8 1024) (text : Bytes) :
    ∃ buffer' rest, vsnprintf buffer text = .ok buffer' ∧
      buffer'.toList = text.take 1021 ++ rest ∧ 3 ≤ rest.length := by
  have hfit : (text.take 1023 ++ [0]).length ≤ 1024 := by
    rw [List.length_append, List.length_take, List.length_singleton]
    omega
  obtain ⟨buffer', hstore, hlist⟩ := CArray.store_zero (a := buffer) hfit
  have hcut : text.take 1023 = text.take 1021 ++ (text.drop 1021).take 2 := by
    rw [← List.take_add]
  rw [hcut, List.append_assoc, List.append_assoc] at hlist
  refine ⟨buffer', _, hstore, hlist, ?_⟩
  have hlen := congrArg List.length hlist
  rw [buffer'.length_eq, List.length_append, List.length_take] at hlen
  omega

theorem crlf_suffix_iff (pre : Bytes) (x y : UInt8) :
    crlf <:+ pre ++ [x, y] ↔ x = 0x0D ∧ y = 0x0A := by
  constructor
  · intro h
    have hend : crlf <:+ [x, y] :=
      List.suffix_of_suffix_length_le h (List.suffix_append _ _) (Nat.le_refl 2)
    obtain ⟨rfl, rfl⟩ : 0x0D = x ∧ 0x0A = y := by
      simpa [crlf] using hend.eq_of_length rfl
    exact ⟨rfl, rfl⟩
  · rintro ⟨rfl, rfl⟩
    exact List.suffix_append _ _

/-- The look back tells whether the text ends with CR and LF. -/
theorem endsLine_eq {n : ℕ} {buffer : CArray UInt8 n} {front rest : Bytes}
    (h : buffer.toList = front ++ rest) :
    endsLine buffer front.length = .ok (decide (crlf <:+ front)) := by
  rw [endsLine]
  by_cases hshort : front.length < 2
  · have hno : ¬ crlf <:+ front := fun hsuffix => absurd hsuffix.length_le (Nat.not_le.2 hshort)
    rw [if_pos hshort, decide_eq_false hno]
    rfl
  · obtain ⟨x, y, hxy⟩ := List.length_eq_two.1
      (show (front.drop (front.length - 2)).length = 2 by rw [List.length_drop]; omega)
    obtain ⟨pre, rfl⟩ : ∃ pre, front = pre ++ [x, y] :=
      ⟨_, by rw [← hxy, List.take_append_drop]⟩
    have hx : (buffer.get ((pre ++ [x, y]).length - 2) : Checked Unit _) = .ok x :=
      CArray.get_front h (by simp)
    have hy : (buffer.get ((pre ++ [x, y]).length - 1) : Checked Unit _) = .ok y :=
      CArray.get_front h (by simp)
    rw [if_neg hshort, Checked.bind_of_eq_ok hx]
    by_cases hcr : x = 0x0D
    · have hend : y = 0x0A ↔ crlf <:+ pre ++ [x, y] :=
        (and_iff_right hcr).symm.trans (crlf_suffix_iff ..).symm
      rw [if_neg (not_not.2 hcr), Checked.bind_of_eq_ok hy]
      exact congrArg Checked.ok (decide_eq_decide.2 hend)
    · have hno : ¬ crlf <:+ pre ++ [x, y] := fun hsuffix =>
        hcr ((crlf_suffix_iff ..).1 hsuffix).1
      rw [if_pos hcr, decide_eq_false hno]
      rfl

/-- The clamped length is that of the text that is left. -/
theorem clamp_eq (text : Bytes) :
    (if 1024 - 3 ≤ text.length then 1024 - 3 else text.length) = (text.take 1021).length := by
  rw [List.length_take]
  split <;> omega

theorem luftpdSendResponse_eq (text : Bytes) :
    luftpdSendResponse text
      = if crlf <:+ text.take 1021 then text.take 1021 else text.take 1021 ++ crlf := rfl

/-- What the array is used for, text by text. -/
theorem sendResponseBuffer_eq (buffer : CArray UInt8 1024) (text : Bytes) :
    ∃ buffer', luftpdSendResponseBuffer buffer (some text)
      = .ok (buffer', luftpdSendResponse text) := by
  obtain ⟨printed, rest, hprint, hlist, hroom⟩ := vsnprintf_front buffer text
  rw [luftpdSendResponseBuffer, Checked.bind_of_eq_ok hprint]
  dsimp only
  rw [clamp_eq, Checked.bind_of_eq_ok (endsLine_eq hlist),
    luftpdSendResponse_eq]
  by_cases hends : crlf <:+ text.take 1021
  · rw [if_pos (decide_eq_true hends), Checked.bind_of_eq_ok (CArray.load_append hlist)]
    exact ⟨printed, by rw [if_pos hends]; rfl⟩
  · have hfit : (crlf ++ [0]).length ≤ rest.length := by simpa [crlf] using hroom
    obtain ⟨ended, hstore, hlist'⟩ := CArray.store_append hlist hfit
    rw [← List.append_assoc, List.append_assoc _ [0]] at hlist'
    have hload : (ended.load 0 ((text.take 1021).length + 2) : Checked Unit _)
        = .ok (text.take 1021 ++ crlf) := by
      rw [← CArray.load_append hlist', List.length_append]
      rfl
    rw [if_neg (by simpa using hends), Checked.bind_of_eq_ok hstore]
    exact ⟨ended, by rw [Checked.bind_of_eq_ok hload, if_neg hends]; rfl⟩

/-- **A reply is a whole line inside the array**: no access is outside, and what is sent are at most
1023 bytes, the text cut to 1021 and CR and LF behind it unless they are there. -/
theorem sendResponse_line (buffer : CArray UInt8 1024) :
    luftpdSendResponseBuffer buffer none = .error () ∧
      ∀ text : Bytes, ∃ buffer' sent, luftpdSendResponseBuffer buffer (some text)
          = .ok (buffer', sent) ∧
        sent.length ≤ 1023 ∧
        sent = (if crlf <:+ text.take 1021 then text.take 1021 else text.take 1021 ++ crlf) ∧
        crlf <:+ sent := by
  refine ⟨rfl, fun text => ?_⟩
  obtain ⟨buffer', heq⟩ := sendResponseBuffer_eq buffer text
  have hcut : (text.take 1021).length ≤ 1021 := List.length_take_le _ _
  refine ⟨buffer', luftpdSendResponse text, heq, ?_, rfl, ?_⟩
  · rw [luftpdSendResponse_eq]
    split
    · omega
    · rw [List.length_append]
      exact Nat.add_le_add_right hcut 2
  · rw [luftpdSendResponse_eq]
    split
    · assumption
    · exact List.suffix_append _ _

end Lucp.Luftpd
