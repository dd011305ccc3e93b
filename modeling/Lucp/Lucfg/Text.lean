import Lucp.General.Lines
import Lucp.Config

/-!
# The lines of a configuration file

`lucfg` reads a file line by line: the comment goes, the blanks around what is left go, and then a
line is empty, the header of a section, or a key with a value.  Everything else is a syntax error.

## What is here

* `strIcmp`, `trim`, `stripComment` — the helpers of the source; `strIcmp_eq_zero_iff` says that the
  first one compares texts up to the case of their letters.
* `readLine` — what the body of the loop in `load_file()` makes of a line.
* `stripComment_append` — a comment ends a text whose quotes are closed, and nothing else does.
* `WellFormed`, `wellFormed_readLine` — **what is accepted is well formed**: a key is not empty, has
  no blanks around it and no sign in it that has a meaning of its own.
-/

set_option autoImplicit false

namespace Lucp.Lucfg

open Lines

/-! ## The helpers of the source -/

/-- `tolower()`. -/
def tolower (c : UInt8) : UInt8 := if 0x41 ≤ c ∧ c ≤ 0x5A then c + 0x20 else c

/-- `str_icmp()`; a list ends where the terminating zero stands. -/
def strIcmp : Bytes → Bytes → ℤ
  | a :: as, b :: bs =>
    let d : ℤ := (tolower a).toNat - (tolower b).toNat
    if d ≠ 0 ∨ a = 0 then d else strIcmp as bs
  | a :: _, [] => (tolower a).toNat
  | [], b :: _ => -(tolower b).toNat
  | [], [] => 0

/-- `trim()`. -/
def trim (s : Bytes) : Bytes := strip isspace s

/-- The quote. -/
def quo : UInt8 := 0x22

/-- The two signs that start a comment. -/
def startsComment (c : UInt8) : Bool := c = 0x23 ∨ c = 0x3B

/-- Whether quotes are open behind a sign. -/
def turn (quoted : Bool) (c : UInt8) : Bool := if c = quo then !quoted else quoted

/-- Whether quotes are open behind a text. -/
def inQuo (quoted : Bool) (s : Bytes) : Bool := s.foldl turn quoted

/-- The loop of `strip_comment()`. -/
def stripCommentFrom (quoted : Bool) : Bytes → Bytes
  | [] => []
  | c :: s =>
    if !turn quoted c && startsComment c then [] else c :: stripCommentFrom (turn quoted c) s

/-- `strip_comment()`. -/
def stripComment (s : Bytes) : Bytes := stripCommentFrom false s

/-! ## The body of the loop -/

/-- What a line is. -/
inductive Line where
  /-- Nothing, or a comment. -/
  | blank
  /-- The header of a section. -/
  | header (name : Bytes)
  /-- A key with a value. -/
  | assign (key val : Bytes)
  /-- A syntax error. -/
  | malformed
  deriving DecidableEq

/-- What `load_file()` makes of a line, once it is in the buffer. -/
def readLine (line : Bytes) : Line :=
  let p := trim (stripComment line)
  if p = [] then .blank
  else if p.head? = some 0x5B then
    if 0x5D ∈ p then .header ((p.drop 1).takeWhile (· ≠ 0x5D)) else .malformed
  else if 0x3D ∈ p then
    let key := trim (p.takeWhile (· ≠ 0x3D))
    let val := trim ((p.dropWhile (· ≠ 0x3D)).drop 1)
    if key = [] ∨ val = [] then .malformed else .assign key val
  else .malformed

/-! ## Comparing names -/

theorem tolower_eq_zero_iff {c : UInt8} : tolower c = 0 ↔ c = 0 := by
  rw [tolower]
  split
  case isTrue h =>
    obtain ⟨hlo, hhi⟩ := h
    rw [UInt8.le_iff_toNat_le] at hlo hhi
    have hsum : (c + 0x20).toNat = c.toNat + 0x20 := by
      rw [UInt8.toNat_add]
      exact Nat.mod_eq_of_lt (by simp at hhi ⊢; omega)
    rw [← UInt8.toNat_inj, ← UInt8.toNat_inj (a := c), hsum]
    simp at hlo ⊢
    omega
  case isFalse => exact Iff.rfl

theorem toNat_tolower_ne_zero {c : UInt8} (h : c ≠ 0) : ((tolower c).toNat : ℤ) ≠ 0 := by
  intro heq
  exact h (tolower_eq_zero_iff.1 (UInt8.toNat_inj.1 (Int.ofNat_inj.1 heq)))

/-- **Names are compared up to the case of their letters.** -/
theorem strIcmp_eq_zero_iff {a b : Bytes} (ha : 0 ∉ a) (hb : 0 ∉ b) :
    strIcmp a b = 0 ↔ a.map tolower = b.map tolower := by
  induction a generalizing b with
  | nil =>
    cases b with
    | nil => simp [strIcmp]
    | cons y b =>
      have hy := toNat_tolower_ne_zero (Ne.symm (not_or.1 (mt List.mem_cons.2 hb)).1)
      simp only [strIcmp, List.map_nil, List.map_cons]
      exact ⟨fun h => absurd (neg_eq_zero.1 h) hy, fun h => absurd h.symm (List.cons_ne_nil _ _)⟩
  | cons x a ih =>
    obtain ⟨hx, ha⟩ := not_or.1 (mt List.mem_cons.2 ha)
    cases b with
    | nil =>
      simp only [strIcmp, List.map_nil, List.map_cons]
      exact ⟨fun h => absurd h (toNat_tolower_ne_zero (Ne.symm hx)),
        fun h => absurd h (List.cons_ne_nil _ _)⟩
    | cons y b =>
      obtain ⟨-, hb⟩ := not_or.1 (mt List.mem_cons.2 hb)
      rw [strIcmp, List.map_cons, List.map_cons, List.cons.injEq, ← ih ha hb]
      have hdiff : ((tolower x).toNat : ℤ) - (tolower y).toNat = 0 ↔ tolower x = tolower y := by
        rw [sub_eq_zero, Int.ofNat_inj, UInt8.toNat_inj]
      by_cases hxy : tolower x = tolower y
      · simp [hxy, Ne.symm hx]
      · have hne := mt hdiff.1 hxy
        simp [hxy, hne]

/-! ## Comments -/

@[simp] theorem inQuo_nil (quoted : Bool) : inQuo quoted [] = quoted := rfl

@[simp] theorem inQuo_cons (quoted : Bool) (c : UInt8) (s : Bytes) :
    inQuo quoted (c :: s) = inQuo (turn quoted c) s := rfl

theorem inQuo_append (quoted : Bool) (s t : Bytes) :
    inQuo quoted (s ++ t) = inQuo (inQuo quoted s) t := List.foldl_append

/-- A text without a comment in it. -/
theorem stripCommentFrom_append {quoted : Bool} {s : Bytes} (h : stripCommentFrom quoted s = s)
    (t : Bytes) :
    stripCommentFrom quoted (s ++ t) = s ++ stripCommentFrom (inQuo quoted s) t := by
  induction s generalizing quoted with
  | nil => rfl
  | cons c s ih =>
    rw [stripCommentFrom] at h
    rw [List.cons_append, stripCommentFrom, inQuo_cons]
    split at h
    case isTrue => exact absurd h.symm (List.cons_ne_nil _ _)
    case isFalse hc =>
      rw [if_neg hc, ih (List.cons.inj h).2]
      rfl

/-- **A comment behind a text whose quotes are closed.** -/
theorem stripComment_append {s : Bytes} (h : stripComment s = s) (hquo : inQuo false s = false)
    {c : UInt8} (hc : startsComment c = true) (t : Bytes) : stripComment (s ++ c :: t) = s := by
  have hne : c ≠ quo := by
    rintro rfl
    exact absurd hc (by decide)
  rw [stripComment, stripCommentFrom_append h, hquo, stripCommentFrom, turn, if_neg hne, hc]
  exact List.append_nil s

theorem stripCommentFrom_eq_self (quoted : Bool) {s : Bytes}
    (h : ∀ c ∈ s, c ≠ quo ∧ (quoted = true ∨ startsComment c = false)) :
    stripCommentFrom quoted s = s ∧ inQuo quoted s = quoted := by
  induction s with
  | nil => exact ⟨rfl, rfl⟩
  | cons c s ih =>
    rw [List.forall_mem_cons] at h
    obtain ⟨⟨hquo, hc⟩, hs⟩ := h
    obtain ⟨hstrip, hin⟩ := ih hs
    rw [stripCommentFrom, inQuo_cons, turn, if_neg hquo, hstrip]
    refine ⟨if_neg ?_, hin⟩
    rcases hc with rfl | hc
    · simp
    · simp [hc]

theorem isPrefix_stripCommentFrom (quoted : Bool) (s : Bytes) : stripCommentFrom quoted s <+: s := by
  induction s generalizing quoted with
  | nil => exact List.prefix_rfl
  | cons c s ih =>
    rw [stripCommentFrom]
    split
    · exact List.nil_prefix
    · exact (List.prefix_cons_inj c).2 (ih _)

/-! ## What is accepted -/

/-- No blanks around a text, and something in it. -/
def Trimmed (s : Bytes) : Prop := s ≠ [] ∧ Bare isspace s

/-- What the source takes care of, for each kind of line it accepts. -/
def WellFormed : Line → Prop
  | .blank => True
  | .header name => 0x5D ∉ name
  | .assign key val => Trimmed key ∧ 0x3D ∉ key ∧ key.head? ≠ some 0x5B ∧ Trimmed val
  | .malformed => False

instance (s : Bytes) : Decidable (Trimmed s) :=
  inferInstanceAs (Decidable (_ ∧ (∀ c ∈ s.head?, isspace c = false) ∧
    ∀ c ∈ s.getLast?, isspace c = false))

/-- **What is accepted is well formed.** -/
theorem wellFormed_readLine {line : Bytes} (h : readLine line ≠ .malformed) :
    WellFormed (readLine line) := by
  rw [readLine] at h ⊢
  have hbare : Bare isspace (trim (stripComment line)) := bare_strip _
  generalize trim (stripComment line) = p at h hbare ⊢
  split
  case isTrue => trivial
  case isFalse hne =>
    rw [if_neg hne] at h
    split
    case isTrue hopen =>
      rw [if_pos hopen] at h
      split
      case isTrue => exact fun hmem => by simpa using List.mem_takeWhile_imp hmem
      case isFalse hclose => exact absurd (if_neg hclose) h
    case isFalse hopen =>
      rw [if_neg hopen] at h
      split
      case isFalse heq => exact absurd (if_neg heq) h
      case isTrue heq =>
        rw [if_pos heq] at h
        dsimp only at h ⊢
        split
        case isTrue hnil => exact absurd (if_pos hnil) h
        case isFalse hkv =>
          obtain ⟨hkey, hval⟩ := not_or.1 hkv
          refine ⟨⟨hkey, bare_strip _⟩, ?_, ?_, hval, bare_strip _⟩
          · intro hmem
            have hfront := mem_of_mem_strip hmem
            simpa using List.mem_takeWhile_imp hfront
          · -- nothing is dropped in front of the key, because nothing is in front of the line
            intro hhead
            obtain ⟨c, p, rfl⟩ := List.exists_cons_of_ne_nil hne
            have hc : c ≠ 0x3D := by
              rintro rfl
              exact hkey rfl
            have hsplit : (c :: p).takeWhile (· ≠ 0x3D) = c :: p.takeWhile (· ≠ 0x3D) := by
              simp [hc]
            have hspace : isspace c = false := hbare.1 c rfl
            obtain ⟨r, hr⟩ := List.rdropWhile_prefix isspace (c :: p.takeWhile (· ≠ 0x3D))
            have hdrop : trim ((c :: p).takeWhile (· ≠ 0x3D))
                = (c :: p.takeWhile (· ≠ 0x3D)).rdropWhile isspace := by
              rw [hsplit, trim, strip, List.dropWhile_cons_of_neg (by simp [hspace])]
            rw [hdrop] at hhead
            have := congrArg List.head? hr
            rw [List.head?_append, hhead] at this
            exact hopen this.symm

end Lucp.Lucfg
