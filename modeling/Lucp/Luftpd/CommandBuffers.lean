import Lucp.CString
import Lucp.Luftpd.Dispatch

/-!
# The buffers of `luftpd_parse_command`

The function copies the received string into an array of 512 characters, ends it at the first CR and
the first LF by writing zeros there, and copies the two parts around the first blank into the arrays
of its caller, of 16 and 256 characters.  Each copy cuts what does not fit, and the function returns
0 whatever it has cut, so the caller never sends its `500 Syntax error`.

## What is here

* `luftpdParseCommandBuffers` — the function on its arrays, with whatever they hold at the start.
* `parseCommandBuffers_eq` — the arrays hold what `luftpdParseCommand` says.
* `refused_or_exact_iff` — **what is taken for the command and its argument is what was sent exactly
  if the one has at most 15 bytes and the other at most 255.**
-/

set_option autoImplicit false

namespace Lucp.Luftpd

variable {n : ℕ}

/-! ## The function on its arrays -/

/-- The string an array holds. -/
def stringIn (a : CArray UInt8 n) : CString where
  bytes := cText a
  noNul h := by simpa using List.mem_takeWhile_imp h

/-- The string with a zero in the place of the first `ch`. -/
def upTo (ch : UInt8) (s : CString) : CString where
  bytes := s.bytes.takeWhile (· ≠ ch)
  noNul h := s.noNul ((List.takeWhile_sublist _).subset h)

/-- The string behind the first `ch`. -/
def behind (ch : UInt8) (s : CString) : CString where
  bytes := (s.bytes.dropWhile (· ≠ ch)).drop 1
  noNul h := s.noNul ((List.dropWhile_sublist _).subset (List.mem_of_mem_drop h))

/-- `newline = strchr(buffer, ch); if (newline) *newline = '\0';` -/
def endAt (ch : UInt8) (buffer : CArray UInt8 n) : CArray UInt8 n :=
  if ch ∈ cText buffer then buffer.write (upTo ch (stringIn buffer)).bytes.length [0] else buffer

/-- The loop over `out_cmd` that writes `toupper()` of each character back. -/
def upperCase (outCmd : CArray UInt8 n) : CArray UInt8 n :=
  outCmd.write 0 ((cText outCmd).map toupper)

/-- `luftpd_parse_command()`: what it returns, and the arrays of its caller afterwards.  All three
arrays may hold anything at the start. -/
def luftpdParseCommandBuffers (cmd : CString) (buffer : CArray UInt8 512)
    (outCmd : CArray UInt8 16) (outArg : CArray UInt8 256) :
    Int × CArray UInt8 16 × CArray UInt8 256 :=
  let buffer := (strncpy buffer cmd 511).write 511 [0]
  let buffer := endAt 0x0D buffer
  let buffer := endAt 0x0A buffer
  let text := stringIn buffer
  if 0x20 ∈ text.bytes then
    let outCmd := (strncpy outCmd (upTo 0x20 text) 16).write 15 [0]
    let outArg := (strncpy outArg (behind 0x20 text) 256).write 255 [0]
    (0, upperCase outCmd, outArg)
  else
    let outCmd := (strncpy outCmd text 16).write 15 [0]
    (0, upperCase outCmd, clearText outArg)

/-! ## What the arrays hold -/

theorem cText_isPrefixOf (a : CArray UInt8 n) : cText a <+: a.toList := List.takeWhile_prefix _

/-- A line ends in front of the first `ch`. -/
theorem cText_endAt (ch : UInt8) (buffer : CArray UInt8 n) :
    cText (endAt ch buffer) = (cText buffer).takeWhile (· ≠ ch) := by
  rw [endAt]
  split
  · rename_i hch
    have hline : (upTo ch (stringIn buffer)).bytes <+: cText buffer := List.takeWhile_prefix _
    have hshort : (upTo ch (stringIn buffer)).bytes.length < n := by
      have hlen := (cText_isPrefixOf buffer).length_le
      rw [buffer.length_eq] at hlen
      refine lt_of_lt_of_le (lt_of_le_of_ne hline.length_le fun heq => ?_) hlen
      have hch : ch ∈ (upTo ch (stringIn buffer)).bytes := by
        rwa [hline.eq_of_length heq]
      simpa using List.mem_takeWhile_imp hch
    have htake := List.prefix_iff_eq_take.1 (hline.trans (cText_isPrefixOf buffer))
    rw [cText, CArray.write_toList (Nat.succ_le_of_lt hshort), CArray.blit, ← htake,
      List.append_assoc]
    exact takeWhile_ne_zero (upTo ch (stringIn buffer)).noNul
  · rename_i hch
    have hall : ∀ b ∈ cText buffer, decide (b ≠ ch) = true := by
      intro b hb
      exact decide_eq_true fun heq => hch (heq ▸ hb)
    exact (List.takeWhile_eq_self_iff.2 hall).symm

theorem toupper_ne_zero {b : UInt8} (h : b ≠ 0) : toupper b ≠ 0 := by
  rw [toupper]
  split
  · rename_i hletter
    intro heq
    have hb : b = 0x20 := by
      calc b = b - 0x20 + 0x20 := (UInt8.sub_add_cancel b 0x20).symm
        _ = 0x20 := by rw [heq]; rfl
    rw [hb] at hletter
    exact absurd hletter.1 (by decide)
  · exact h

/-- Whoever writes as many characters as the string has leaves its end where it is. -/
theorem cText_upperCase (outCmd : CArray UInt8 n) :
    cText (upperCase outCmd) = (cText outCmd).map toupper := by
  have hclean : 0 ∉ (cText outCmd).map toupper := by
    intro h
    obtain ⟨b, hb, heq⟩ := List.mem_map.1 h
    exact toupper_ne_zero (fun h0 => (stringIn outCmd).noNul (h0 ▸ hb)) heq
  have hlen := (cText_isPrefixOf outCmd).length_le
  rw [outCmd.length_eq] at hlen
  have hrest : outCmd.toList.drop (cText outCmd).length = outCmd.toList.dropWhile (· ≠ 0) := by
    conv_lhs => rw [← List.takeWhile_append_dropWhile (p := fun b : UInt8 => decide (b ≠ 0))
      (l := outCmd.toList)]
    exact List.drop_left
  rw [upperCase, cText, CArray.write_toList (by rw [List.length_map]; omega), CArray.blit_zero,
    List.length_map, hrest]
  cases hdrop : outCmd.toList.dropWhile (· ≠ 0) with
  | nil =>
    rw [List.append_nil]
    exact List.takeWhile_eq_self_iff.2 fun b hb => decide_eq_true fun heq => hclean (heq ▸ hb)
  | cons b rest =>
    have hb : b = 0 := by
      have hhead := List.head?_dropWhile_not (fun b : UInt8 => decide (b ≠ 0)) outCmd.toList
      rw [hdrop] at hhead
      simpa using hhead
    rw [hb]
    exact takeWhile_ne_zero hclean

/-- **The arrays hold what the texts say.** -/
theorem parseCommandBuffers_eq (cmd : CString) (buffer : CArray UInt8 512)
    (outCmd : CArray UInt8 16) (outArg : CArray UInt8 256) :
    let r := luftpdParseCommandBuffers cmd buffer outCmd outArg
    (cText r.2.1, cText r.2.2) = luftpdParseCommand cmd.bytes := by
  have hcopy : cText ((strncpy buffer cmd 511).write 511 [0]) = cmd.bytes.take 511 :=
    (cText_strncpy_write buffer cmd (by decide) (by decide) (by decide)).1
  have htext : (stringIn (endAt 0x0A (endAt 0x0D ((strncpy buffer cmd 511).write 511 [0])))).bytes
      = ((cmd.bytes.take 511).takeWhile (· ≠ 0x0D)).takeWhile (· ≠ 0x0A) := by
    rw [← hcopy, ← cText_endAt, ← cText_endAt]
    rfl
  have hcommand (s : CString) : cText ((strncpy outCmd s 16).write 15 [0]) = s.bytes.take 15 :=
    (cText_strncpy_write outCmd s (by decide) (by decide) (by decide)).1
  have hargument (s : CString) : cText ((strncpy outArg s 256).write 255 [0]) = s.bytes.take 255 :=
    (cText_strncpy_write outArg s (by decide) (by decide) (by decide)).1
  have hnone : cText (clearText outArg) = [] := cText_clearText outArg (by decide)
  intro r
  have hr : r = luftpdParseCommandBuffers cmd buffer outCmd outArg := rfl
  rw [luftpdParseCommandBuffers] at hr
  rw [luftpdParseCommand]
  generalize hline : stringIn (endAt 0x0A (endAt 0x0D ((strncpy buffer cmd 511).write 511 [0])))
    = text at hr htext
  rw [← htext]
  by_cases hblank : 0x20 ∈ text.bytes
  · rw [hr, if_pos hblank, cText_upperCase, hcommand, hargument]
    rfl
  · have hwords := words_of_noBlank hblank
    rw [words, Prod.mk.injEq] at hwords
    rw [hr, if_neg hblank, cText_upperCase, hcommand, hnone, hwords.1, hwords.2]
    rfl

/-- The function never refuses a line. -/
theorem parseCommandBuffers_ret (cmd : CString) (buffer : CArray UInt8 512)
    (outCmd : CArray UInt8 16) (outArg : CArray UInt8 256) :
    (luftpdParseCommandBuffers cmd buffer outCmd outArg).1 = 0 := by
  rw [luftpdParseCommandBuffers]
  split
  · rfl
  · rfl

/-! ## When they hold what was sent -/

/-- Whatever it is given, the function has room for 15 and 255 characters. -/
theorem length_parseCommand (cmd : Bytes) :
    (luftpdParseCommand cmd).1.length ≤ 15 ∧ (luftpdParseCommand cmd).2.length ≤ 255 := by
  rw [luftpdParseCommand]
  simp only [List.length_map, List.length_take]
  omega

theorem parseCommand_eq_words_iff (cmd : Bytes) :
    luftpdParseCommand cmd = ((words (lineOf cmd)).1.map toupper, (words (lineOf cmd)).2) ↔
      (words (lineOf cmd)).1.length ≤ 15 ∧ (words (lineOf cmd)).2.length ≤ 255 := by
  constructor
  · intro h
    have hlen := length_parseCommand cmd
    rwa [h, List.length_map] at hlen
  · rintro ⟨hcommand, hargument⟩
    have hline := length_le_words (lineOf cmd)
    rw [parseCommand_eq (by omega), List.take_of_length_le hcommand,
      List.take_of_length_le hargument]

/-- **What is taken for the command and its argument is what was sent exactly if both fit**: the
function never refuses a line, so it cuts every other one. -/
theorem refused_or_exact_iff (cmd : CString) (buffer : CArray UInt8 512)
    (outCmd : CArray UInt8 16) (outArg : CArray UInt8 256) :
    let r := luftpdParseCommandBuffers cmd buffer outCmd outArg
    let line := lineOf cmd.bytes
    (r.1 ≠ 0 ∨ cText r.2.1 = (words line).1.map toupper ∧ cText r.2.2 = (words line).2) ↔
      (words line).1.length ≤ 15 ∧ (words line).2.length ≤ 255 := by
  have htexts := parseCommandBuffers_eq cmd buffer outCmd outArg
  have hret := parseCommandBuffers_ret cmd buffer outCmd outArg
  dsimp only at htexts ⊢
  generalize luftpdParseCommandBuffers cmd buffer outCmd outArg = r at htexts hret ⊢
  rw [← parseCommand_eq_words_iff, ← htexts, Prod.mk.injEq]
  exact ⟨fun h => h.resolve_left (absurd hret), .inr⟩

/-- `RETR` with a name of 260 letters. -/
def longName : CString where
  bytes := textBytes "RETR " ++ List.replicate 260 0x61 ++ [0x0D, 0x0A]
  noNul := by decide +kernel

/-- **A name that does not fit is cut**, and the handler acts on another one. -/
theorem longName_cut :
    let r := luftpdParseCommandBuffers longName (CArray.fill 512 0) (CArray.fill 16 0)
      (CArray.fill 256 0)
    longName.bytes.length ≤ 1023 ∧
      ¬ (r.1 ≠ 0 ∨ cText r.2.1 = (words (lineOf longName.bytes)).1.map toupper ∧
        cText r.2.2 = (words (lineOf longName.bytes)).2) := by
  have htexts := parseCommandBuffers_eq longName (CArray.fill 512 0) (CArray.fill 16 0)
    (CArray.fill 256 0)
  have hret := parseCommandBuffers_ret longName (CArray.fill 512 0) (CArray.fill 16 0)
    (CArray.fill 256 0)
  have hlen : ¬ (words (lineOf longName.bytes)).2.length ≤ 255 := by decide +kernel
  dsimp only at htexts ⊢
  generalize luftpdParseCommandBuffers longName _ _ _ = r at htexts hret ⊢
  refine ⟨by decide +kernel, ?_⟩
  rintro (hrefused | ⟨-, hargument⟩)
  · exact hrefused hret
  · refine hlen ?_
    rw [← hargument, show cText r.2.2 = (luftpdParseCommand longName.bytes).2 by rw [← htexts]]
    exact (length_parseCommand longName.bytes).2

end Lucp.Luftpd
