import Mathlib.Data.Rat.Defs
import Lucp.General.Descent
import Lucp.Decimal

/-!
# The expressions in a configuration file

A value of a configuration file may be a sum of products: `lucfg` has a small parser, by recursive
descent, that computes the value while it reads.  Its numbers are `double`s, read by `strtod()`;
what a `double` is, and how the C library reads one, is a parameter here.

## What is here

* `Doubles` — that parameter, with the few facts about it that the rest needs; `castTo` the cast to
  an integer type.
* `exprAtom`, `exprTerm`, `exprParse`, `tryEvalExpr` — the functions of the source.
* `Expr`, `Expr.text`, `Expr.eval` — expressions as trees, how they are written, and their values.
* `tryEvalExpr_text` — **the parser computes what the tree says**: products bind more than sums,
  operators of the same strength go to the left, and brackets and signs are heeded, wherever there
  are blanks.
-/

set_option autoImplicit false

namespace Lucp.Lucfg

open Descent

/-! ## The functions of the source -/

/-- `double`: the operations of the source, and `strtod()`, which returns nothing if it converts
nothing, and else a value and what it has not read. -/
class Doubles (D : Type) extends Add D, Sub D, Mul D, Div D, BEq D where
  /-- The conversion of an integer, to the nearest `double`. -/
  ofInt : ℤ → D
  /-- The integer without the fraction; there is none for infinity and `NAN`. -/
  toInt : D → Option ℤ
  /-- What comes of a cast to an integer type with these limits that it does not fit into. -/
  unfit : ℤ → ℤ → D → ℤ
  /-- `<`. -/
  lt : D → D → Bool
  /-- `NAN`. -/
  nan : D
  /-- `isnan()`. -/
  isNaN : D → Bool
  /-- `strtod()`. -/
  strtod : Bytes → Option (D × Bytes)
  /-- What `NAN` is. -/
  isNaN_nan : isNaN nan = true
  /-- A factor of `1.0`. -/
  one_mul : ∀ v : D, ofInt 1 * v = v
  /-- A factor of `-1.0`. -/
  isNaN_neg : ∀ v : D, isNaN (ofInt (-1) * v) = isNaN v
  /-- Where there is no text, nothing is converted. -/
  strtod_nil : strtod [] = none
  /-- What is left is the end of the text. -/
  strtod_suffix : ∀ {s : Bytes} {v : D} {rest : Bytes}, strtod s = some (v, rest) → rest <:+ s
  /-- Decimal digits are read to the end, with a plus in front of them or not. -/
  strtod_digits : ∀ {s : Bytes}, s ≠ [] → (∀ c ∈ s, isdigit c = true) →
    (∃ v, strtod s = some (v, []) ∧ isNaN v = false) ∧
      ∃ v, strtod (0x2B :: s) = some (v, []) ∧ isNaN v = false

variable {D : Type} [Doubles D]

/-- A cast to an integer type with these limits.  It is undefined for a value that does not fit. -/
def castTo (lo hi : ℤ) (v : D) : ℤ :=
  ((Doubles.toInt v).filter fun n => lo ≤ n ∧ n ≤ hi).getD (Doubles.unfit lo hi v)

/-- `expr_atom()` behind its sign. -/
def exprOperand (parse : Reader UInt8 D) (sign : D) (s : Bytes) : D × Bytes :=
  if s.head? = some 0x28 then
    let v := (parse (s.drop 1)).1
    let s := (parse (s.drop 1)).2.dropWhile isspace
    (sign * v, if s.head? = some 0x29 then s.drop 1 else s)
  else
    match Doubles.strtod s with
    | none => (Doubles.nan, [])
    | some (v, s) => (sign * v, s)

/-- `expr_atom()`. -/
def exprAtom (parse : Reader UInt8 D) : Reader UInt8 D := fun s =>
  let s := s.dropWhile isspace
  if s.head? = some 0x2D then exprOperand parse (Doubles.ofInt (-1)) (s.drop 1)
  else exprOperand parse (Doubles.ofInt 1) s

/-- The operators of `expr_term()`. -/
def termOp (c : UInt8) : Option (D → D → D) :=
  if c = 0x2A then some (· * ·) else if c = 0x2F then some (· / ·) else none

/-- `expr_term()`. -/
def exprTerm (parse : Reader UInt8 D) : Reader UInt8 D := fun s =>
  let left := exprAtom parse s
  chain isspace termOp (exprAtom parse) left.1 left.2

/-- The operators of `expr_parse()`. -/
def sumOp (c : UInt8) : Option (D → D → D) :=
  if c = 0x2B then some (· + ·) else if c = 0x2D then some (· - ·) else none

/-- The body of `expr_parse()`, which `expr_atom()` calls for what is in brackets. -/
def exprStep (parse : Reader UInt8 D) : Reader UInt8 D := fun s =>
  let left := exprTerm parse s
  chain isspace sumOp (exprTerm parse) left.1 left.2

/-- `expr_parse()`. -/
def exprParse : Reader UInt8 D := read exprStep Doubles.nan

/-- `try_eval_expr()`. -/
def tryEvalExpr (s : Bytes) : Option D :=
  let e : D × Bytes := exprParse s
  if e.2.dropWhile isspace ≠ [] ∨ Doubles.isNaN e.1 then none else some e.1

/-- The digits of a decimal number, behind the blanks and the sign. -/
def afterSign (s : Bytes) : Bytes :=
  let s := s.dropWhile isspace
  if s.head? = some 0x2D ∨ s.head? = some 0x2B then s.drop 1 else s

theorem afterSign_suffix (s : Bytes) : afterSign s <:+ s := by
  rw [afterSign]
  split
  · exact (List.drop_suffix 1 _).trans (List.dropWhile_suffix _)
  · exact List.dropWhile_suffix _

/-! ## Numbers without rounding -/

/-- Rational numbers, and what is no number: a `double` as long as nothing is rounded, too large or
divided by zero. -/
inductive Exact where
  | nan
  | val (q : ℚ)
  deriving DecidableEq

namespace Exact

/-- An operation on rational numbers. -/
def lift (f : ℚ → ℚ → ℚ) : Exact → Exact → Exact
  | val a, val b => val (f a b)
  | _, _ => nan

/-- `strtod()` on decimal numbers without a fraction. -/
def strtod (s : Bytes) : Option (Exact × Bytes) :=
  if (afterSign s).takeWhile isdigit = [] then none
  else
    let value : ℚ := digitsValue ((afterSign s).takeWhile isdigit)
    let negative := (s.dropWhile isspace).head? = some 0x2D
    some (val (if negative then -value else value), (afterSign s).dropWhile isdigit)

theorem strtod_of_digits {s : Bytes} (hne : s ≠ []) (h : ∀ c ∈ s, isdigit c = true) (rest : Bytes)
    (hrest : ∀ c ∈ rest.head?, isdigit c = false) :
    strtod (s ++ rest) = some (val (digitsValue s), rest) ∧
      strtod (0x2B :: (s ++ rest)) = some (val (digitsValue s), rest) := by
  obtain ⟨c, t, rfl⟩ := List.exists_cons_of_ne_nil hne
  have hc : isdigit c = true := h c List.mem_cons_self
  have htake : rest.takeWhile isdigit = [] ∧ rest.dropWhile isdigit = rest := by
    cases rest with
    | nil => exact ⟨rfl, rfl⟩
    | cons d rest => simp [hrest d rfl]
  have hsign : c ≠ 0x2D ∧ c ≠ 0x2B := by
    constructor <;> rintro rfl <;> exact absurd hc (by decide)
  have hspace := not_isspace_of_isdigit hc
  have hdigits : (c :: (t ++ rest)).takeWhile isdigit = c :: t := by
    rw [← List.cons_append, List.takeWhile_append_of_pos h, htake.1, List.append_nil]
  have hleft : (c :: (t ++ rest)).dropWhile isdigit = rest := by
    rw [← List.cons_append, List.dropWhile_append_of_pos h, htake.2]
  have hplain : afterSign (c :: (t ++ rest)) = c :: (t ++ rest) := by
    rw [afterSign, List.dropWhile_cons_of_neg (by simp [hspace])]
    exact if_neg (by simp [hsign.1, hsign.2])
  have hplus : afterSign (0x2B :: c :: (t ++ rest)) = c :: (t ++ rest) := rfl
  constructor
  · rw [strtod, List.cons_append, hplain, hdigits, hleft, if_neg (List.cons_ne_nil _ _),
      List.dropWhile_cons_of_neg (by simp [hspace])]
    dsimp only
    rw [if_neg (by simp [hsign.1])]
  · rw [strtod, List.cons_append, hplus, hdigits, hleft, if_neg (List.cons_ne_nil _ _)]
    rfl

theorem strtod_suffix {s : Bytes} {v : Exact} {rest : Bytes} (h : strtod s = some (v, rest)) :
    rest <:+ s := by
  rw [strtod] at h
  split at h
  case isTrue => exact absurd h (by simp)
  case isFalse =>
    obtain rfl : (afterSign s).dropWhile isdigit = rest := congrArg Prod.snd (Option.some.inj h)
    exact (List.dropWhile_suffix _).trans (afterSign_suffix s)

instance : Doubles Exact where
  add := lift (· + ·)
  sub := lift (· - ·)
  mul := lift (· * ·)
  div
    | val a, val b => if b = 0 then nan else val (a / b)
    | _, _ => nan
  beq a b := a ≠ nan ∧ a = b
  ofInt n := val n
  toInt
    | val q => some (q.num.tdiv q.den)
    | nan => none
  unfit lo _ _ := lo
  lt
    | val a, val b => a < b
    | _, _ => false
  nan := nan
  isNaN v := v = nan
  strtod := strtod
  isNaN_nan := rfl
  strtod_nil := rfl
  one_mul v := by
    cases v with
    | nan => rfl
    | val q => exact congrArg val (one_mul q)
  isNaN_neg v := by cases v <;> rfl
  strtod_suffix := strtod_suffix
  strtod_digits {s} hne h := by
    obtain ⟨hplain, hplus⟩ := strtod_of_digits hne h [] (by simp)
    rw [List.append_nil] at hplain hplus
    exact ⟨⟨_, hplain, rfl⟩, _, hplus, rfl⟩

end Exact

/-! ## The recursion -/

theorem length_dropWhile_le (p : UInt8 → Bool) (s : Bytes) :
    (s.dropWhile p).length ≤ s.length := (List.dropWhile_suffix p).length_le

theorem shrinks_exprOperand {parse : Reader UInt8 D} (h : Shrinks parse) (sign : D) :
    Shrinks (exprOperand parse sign) := by
  intro s
  rw [exprOperand]
  split
  case isTrue hopen =>
    have hinner := h (s.drop 1)
    have hdrop := length_dropWhile_le isspace (parse (s.drop 1)).2
    simp only [List.length_drop] at hinner
    show (if _ then _ else _ : Bytes).length ≤ _
    split
    · rw [List.length_drop]
      omega
    · omega
  case isFalse =>
    cases hread : Doubles.strtod (D := D) s with
    | none => exact Nat.zero_le _
    | some r => exact (Doubles.strtod_suffix hread).length_le

theorem shrinks_exprAtom {parse : Reader UInt8 D} (h : Shrinks parse) :
    Shrinks (exprAtom parse) := by
  intro s
  have hdrop := length_dropWhile_le isspace s
  rw [exprAtom]
  split
  · have := shrinks_exprOperand h (Doubles.ofInt (-1)) ((s.dropWhile isspace).drop 1)
    rw [List.length_drop] at this
    omega
  · exact (shrinks_exprOperand h _ _).trans hdrop

theorem shrinks_exprTerm {parse : Reader UInt8 D} (h : Shrinks parse) :
    Shrinks (exprTerm parse) := by
  intro s
  exact (shrinks_chain (shrinks_exprAtom h) _ _).trans (shrinks_exprAtom h s)

/-- `expr_atom()` reads what is in brackets, which is shorter than what it was given. -/
theorem exprAtom_congr {parse parse' : Reader UInt8 D} {s : Bytes}
    (h : ∀ t : Bytes, t.length < s.length → parse t = parse' t) :
    exprAtom parse s = exprAtom parse' s := by
  have hoperand : ∀ (sign : D) (t : Bytes), t.length ≤ s.length →
      exprOperand parse sign t = exprOperand parse' sign t := by
    intro sign t ht
    rw [exprOperand, exprOperand]
    cases t with
    | nil => rfl
    | cons c t =>
      have hinner : parse ((c :: t).drop 1) = parse' ((c :: t).drop 1) := by
        refine h _ ?_
        rw [List.length_drop]
        simp only [List.length_cons] at ht ⊢
        omega
      rw [hinner]
  have hdrop := length_dropWhile_le isspace s
  rw [exprAtom, exprAtom]
  rw [hoperand _ _ hdrop, hoperand _ ((s.dropWhile isspace).drop 1)
    (by rw [List.length_drop]; omega)]

theorem exprTerm_congr {parse parse' : Reader UInt8 D} (hshrinks : Shrinks parse) {s : Bytes}
    (h : ∀ t : Bytes, t.length < s.length → parse t = parse' t) :
    exprTerm parse s = exprTerm parse' s := by
  have hlen := shrinks_exprAtom hshrinks s
  rw [exprTerm, exprTerm]
  rw [← exprAtom_congr h]
  refine chain_congr (shrinks_exprAtom hshrinks) fun t ht => ?_
  exact exprAtom_congr fun t' ht' => h t' (by omega)

theorem guarded_exprStep : Guarded (exprStep (D := D)) where
  congr r r' hr hr' s h := by
    have hlen := shrinks_exprTerm hr s
    rw [exprStep, exprStep]
    rw [← exprTerm_congr hr h]
    refine chain_congr (shrinks_exprTerm hr) fun t ht => ?_
    exact exprTerm_congr hr fun t' ht' => h t' (by omega)
  shrinks r hr s := (shrinks_chain (shrinks_exprTerm hr) _ _).trans (shrinks_exprTerm hr s)

theorem shrinks_exprParse : Shrinks (exprParse (D := D)) := guarded_exprStep.shrinks_read

/-- **The equation of `expr_parse()`.** -/
theorem exprParse_eq (s : Bytes) :
    exprParse (D := D) s
      = chain isspace sumOp (exprTerm exprParse) (exprTerm (D := D) exprParse s).1
          (exprTerm (D := D) exprParse s).2 :=
  guarded_exprStep.read_eq s

/-! ## Expressions as trees -/

/-- The operators. -/
inductive Op where
  | add | sub | mul | div
  deriving DecidableEq

/-- How an operator is written. -/
def Op.sign : Op → UInt8
  | .add => 0x2B
  | .sub => 0x2D
  | .mul => 0x2A
  | .div => 0x2F

/-- Products bind more than sums. -/
def Op.level : Op → ℕ
  | .add | .sub => 0
  | .mul | .div => 1

theorem Op.level_lt_two (op : Op) : op.level < 2 := by cases op <;> decide

/-- What an operator computes. -/
def Op.apply : Op → D → D → D
  | .add => (· + ·)
  | .sub => (· - ·)
  | .mul => (· * ·)
  | .div => (· / ·)

/-- What may stand behind a number without becoming part of it. -/
def Stops (rest : Bytes) : Prop :=
  ∀ c ∈ rest.head?, isspace c = true ∨ c ∈ ([0x2A, 0x2B, 0x2D, 0x2F, 0x29] : Bytes)

/-- A number as `strtod()` reads it. -/
structure Numeral (D : Type) [Doubles D] where
  /-- How it is written. -/
  text : Bytes
  /-- What it says. -/
  value : D
  nonempty : text ≠ []
  starts : ∀ c ∈ text.head?, isspace c = false ∧ c ≠ 0x2D ∧ c ≠ 0x28
  reads : ∀ rest, Stops rest → Doubles.strtod (text ++ rest) = some (value, rest)

/-- A decimal number without a fraction. -/
def Exact.numeral (n : ℕ) : Numeral Exact where
  text := textBytes n.repr
  value := .val n
  nonempty := textBytes_repr_ne_nil n
  starts c hc := by
    have hdigit := isdigit_of_mem_repr (List.mem_of_mem_head? hc)
    refine ⟨not_isspace_of_isdigit hdigit, ?_, ?_⟩ <;> rintro rfl <;>
      exact absurd hdigit (by decide)
  reads rest hrest := by
    have hstop : ∀ c ∈ rest.head?, isdigit c = false := by
      intro c hc
      rw [← Bool.not_eq_true]
      intro hdigit
      rcases hrest c hc with hspace | hmem
      · exact absurd hspace (by simp [not_isspace_of_isdigit hdigit])
      · simp only [List.mem_cons, List.not_mem_nil, or_false] at hmem
        rcases hmem with rfl | rfl | rfl | rfl | rfl <;> exact absurd hdigit (by decide)
    have hread := (Exact.strtod_of_digits (textBytes_repr_ne_nil n)
      (fun _ => isdigit_of_mem_repr) rest hstop).1
    rwa [digitsValue_repr] at hread

/-- The blanks around an operator. -/
structure Pad where
  before : Bytes
  after : Bytes
  blank : (∀ c ∈ before, isspace c = true) ∧ ∀ c ∈ after, isspace c = true

theorem isspace_of_mem_spaces {n : ℕ} {c : UInt8} (h : c ∈ List.replicate n (0x20 : UInt8)) :
    isspace c = true := List.eq_of_mem_replicate h ▸ rfl

/-- Some spaces in front of an operator, and some behind it. -/
def Pad.spaces (m n : ℕ) : Pad :=
  ⟨List.replicate m 0x20, List.replicate n 0x20, fun _ => isspace_of_mem_spaces,
    fun _ => isspace_of_mem_spaces⟩

/-- Expressions, with the blanks that they are written with. -/
inductive Expr (D : Type) [Doubles D] where
  | num (t : Numeral D)
  | neg (e : Expr D)
  | bin (op : Op) (pad : Pad) (l r : Expr D)

/-- How much an expression binds. -/
def Expr.level : Expr D → ℕ
  | .num _ => 3
  | .neg _ => 2
  | .bin op _ _ _ => op.level

/-- The value of an expression. -/
def Expr.eval : Expr D → D
  | .num t => t.value
  | .neg e => Doubles.ofInt (-1) * e.eval
  | .bin op _ l r => op.apply l.eval r.eval

/-- Brackets, where they are needed. -/
def bracketed (needed : Bool) (s : Bytes) : Bytes := if needed then 0x28 :: (s ++ [0x29]) else s

/-- An expression as it is written. -/
def Expr.text : Expr D → Bytes
  | .num t => t.text
  | .neg e => 0x2D :: bracketed (e.level < 3) e.text
  | .bin op pad l r =>
    bracketed (l.level < op.level) l.text
      ++ (pad.before ++ op.sign :: (pad.after ++ bracketed (r.level < op.level + 1) r.text))

/-! ## What the parser makes of them -/

theorem Op.isspace_sign (op : Op) : isspace op.sign = false := by cases op <;> rfl

theorem stops_pad_sign {pad : Bytes} (hpad : ∀ c ∈ pad, isspace c = true) (op : Op) (s : Bytes) :
    Stops (pad ++ op.sign :: s) := by
  cases pad with
  | nil =>
    intro c hc
    obtain rfl : op.sign = c := Option.some.inj hc
    exact .inr (by cases op <;> decide)
  | cons b pad =>
    intro c hc
    obtain rfl : b = c := Option.some.inj hc
    exact .inl (hpad _ List.mem_cons_self)

theorem dropWhile_pad_sign {pad : Bytes} (hpad : ∀ c ∈ pad, isspace c = true) (op : Op)
    (s : Bytes) : (pad ++ op.sign :: s).dropWhile isspace = op.sign :: s := by
  rw [List.dropWhile_append_of_pos hpad, List.dropWhile_cons_of_neg (by simp [op.isspace_sign])]

theorem exprAtom_blanks (parse : Reader UInt8 D) {ws : Bytes} (hws : ∀ c ∈ ws, isspace c = true)
    (s : Bytes) : exprAtom parse (ws ++ s) = exprAtom parse s := by
  rw [exprAtom, exprAtom, List.dropWhile_append_of_pos hws]

theorem exprTerm_blanks (parse : Reader UInt8 D) {ws : Bytes} (hws : ∀ c ∈ ws, isspace c = true)
    (s : Bytes) : exprTerm parse (ws ++ s) = exprTerm parse s := by
  rw [exprTerm, exprTerm, exprAtom_blanks parse hws]

/-- The first sign behind the blanks is not one of a product. -/
def NoProduct (rest : Bytes) : Prop :=
  ∀ c ∈ (rest.dropWhile isspace).head?, c ≠ 0x2A ∧ c ≠ 0x2F

theorem termOp_sign {op : Op} (h : op.level = 1) : termOp (D := D) op.sign = some op.apply := by
  cases op with
  | add => exact absurd h (by decide)
  | sub => exact absurd h (by decide)
  | mul => rfl
  | div => rfl

theorem sumOp_sign {op : Op} (h : op.level = 0) : sumOp (D := D) op.sign = some op.apply := by
  cases op with
  | add => rfl
  | sub => rfl
  | mul => exact absurd h (by decide)
  | div => exact absurd h (by decide)

theorem noProduct_pad_sign {pad : Bytes} (hpad : ∀ c ∈ pad, isspace c = true) {op : Op}
    (h : op.level = 0) (s : Bytes) : NoProduct (pad ++ op.sign :: s) := by
  intro c hc
  rw [dropWhile_pad_sign hpad] at hc
  obtain rfl : op.sign = c := Option.some.inj hc
  cases op with
  | add => decide
  | sub => decide
  | mul => exact absurd h (by decide)
  | div => exact absurd h (by decide)

/-- A chain of products in front of something else. -/
theorem chain_termOp_of_noProduct {parse : Reader UInt8 D} {rest : Bytes} (h : NoProduct rest)
    (left : D) :
    chain isspace termOp (exprAtom parse) left rest = (left, rest.dropWhile isspace) := by
  cases hs : rest.dropWhile isspace with
  | nil => exact chain_end hs
  | cons c s =>
    obtain ⟨hmul, hdiv⟩ := h c (by rw [hs]; rfl)
    refine chain_stop hs ?_
    rw [termOp, if_neg hmul, if_neg hdiv]

/-- What the functions of the parser make of an expression, each in the brackets it needs there. -/
structure ReadsAs (e : Expr D) : Prop where
  operand : ∀ (sign : D) (rest : Bytes), Stops rest →
    exprOperand exprParse sign (bracketed (e.level < 3) e.text ++ rest)
      = (sign * e.eval, rest)
  atom : ∀ rest : Bytes, Stops rest →
    exprAtom exprParse (bracketed (e.level < 2) e.text ++ rest) = (e.eval, rest)
  term : ∀ rest : Bytes, Stops rest →
    exprTerm exprParse (bracketed (e.level < 1) e.text ++ rest)
      = chain isspace termOp (exprAtom exprParse) e.eval rest
  sum : ∀ rest : Bytes, Stops rest → NoProduct rest →
    exprParse (e.text ++ rest) = chain isspace sumOp (exprTerm exprParse) e.eval rest

section ReadsAs

variable (e : Expr D)

/-- An expression in brackets, whatever it is. -/
theorem operand_of_sum (hlevel : e.level < 3)
    (h : ∀ rest : Bytes, Stops rest → NoProduct rest →
      exprParse (e.text ++ rest) = chain isspace sumOp (exprTerm exprParse) e.eval rest)
    (sign : D) (rest : Bytes) :
    exprOperand exprParse sign (bracketed (e.level < 3) e.text ++ rest)
      = (sign * e.eval, rest) := by
  have hstops : Stops (0x29 :: rest) := by
    intro c hc
    obtain rfl : 0x29 = c := Option.some.inj hc
    exact .inr (by decide)
  have hno : NoProduct (0x29 :: rest) := by
    intro c hc
    obtain rfl : 0x29 = c := Option.some.inj hc
    decide
  have hinner : exprParse (e.text ++ 0x29 :: rest) = (e.eval, 0x29 :: rest) := by
    rw [h _ hstops hno]
    exact chain_stop rfl rfl
  have htext : bracketed (e.level < 3) e.text ++ rest
      = 0x28 :: (e.text ++ 0x29 :: rest) := by
    rw [bracketed, if_pos (decide_eq_true hlevel), List.cons_append, List.append_assoc]
    rfl
  have hopen : (0x28 :: (e.text ++ 0x29 :: rest)).head? = some 0x28 := rfl
  rw [htext, exprOperand, if_pos hopen, List.drop_succ_cons, List.drop_zero, hinner]
  rfl

theorem atom_of_operand (hlevel : e.level ≠ 2)
    (h : ∀ (sign : D) (rest : Bytes), Stops rest →
      exprOperand exprParse sign (bracketed (e.level < 3) e.text ++ rest)
        = (sign * e.eval, rest)) (rest : Bytes) (hrest : Stops rest) :
    exprAtom exprParse (bracketed (e.level < 2) e.text ++ rest) = (e.eval, rest) := by
  have hbrackets : decide (e.level < 3) = decide (e.level < 2) :=
    decide_eq_decide.2 (by omega)
  have hstarts : ∀ c ∈ (bracketed (e.level < 2) e.text ++ rest).head?,
      isspace c = false ∧ c ≠ 0x2D := by
    intro c hc
    cases e with
    | num t =>
      rw [show bracketed ((Expr.num t).level < 2) (Expr.num t).text = t.text from rfl,
        List.head?_append_of_ne_nil _ t.nonempty] at hc
      exact ⟨(t.starts c hc).1, (t.starts c hc).2.1⟩
    | neg e => exact absurd rfl hlevel
    | bin op pad l r =>
      rw [bracketed, if_pos (by cases op <;> rfl)] at hc
      obtain rfl : 0x28 = c := Option.some.inj hc
      decide
  rw [hbrackets] at h
  have hdrop : (bracketed (e.level < 2) e.text ++ rest).dropWhile isspace
      = bracketed (e.level < 2) e.text ++ rest := by
    cases hs : bracketed (e.level < 2) e.text ++ rest with
    | nil => rfl
    | cons c s => exact List.dropWhile_cons_of_neg (by simp [(hstarts c (by rw [hs]; rfl)).1])
  have hsign : (bracketed (e.level < 2) e.text ++ rest).head? ≠ some 0x2D :=
    fun hneg => (hstarts _ hneg).2 rfl
  rw [exprAtom, hdrop, if_neg hsign, h _ _ hrest, Doubles.one_mul]

theorem term_of_atom (hlevel : e.level ≠ 1)
    (h : ∀ rest : Bytes, Stops rest →
      exprAtom exprParse (bracketed (e.level < 2) e.text ++ rest) = (e.eval, rest))
    (rest : Bytes) (hrest : Stops rest) :
    exprTerm exprParse (bracketed (e.level < 1) e.text ++ rest)
      = chain isspace termOp (exprAtom exprParse) e.eval rest := by
  have hbrackets : decide (e.level < 1) = decide (e.level < 2) :=
    decide_eq_decide.2 (by omega)
  rw [hbrackets, exprTerm]
  rw [h rest hrest]

theorem sum_of_term (hlevel : e.level ≠ 0)
    (h : ∀ rest : Bytes, Stops rest →
      exprTerm exprParse (bracketed (e.level < 1) e.text ++ rest)
        = chain isspace termOp (exprAtom exprParse) e.eval rest)
    (rest : Bytes) (hrest : Stops rest) (hno : NoProduct rest) :
    exprParse (e.text ++ rest) = chain isspace sumOp (exprTerm exprParse) e.eval rest := by
  have hbrackets : bracketed (e.level < 1) e.text = e.text :=
    if_neg (by rw [decide_eq_true_eq]; omega)
  rw [hbrackets] at h
  rw [exprParse_eq, h rest hrest, chain_termOp_of_noProduct hno]
  have hblanks : ∀ c ∈ rest.takeWhile isspace, isspace c = true :=
    fun c hc => List.mem_takeWhile_imp hc
  conv_rhs => rw [← List.takeWhile_append_dropWhile (p := isspace) (l := rest)]
  exact (chain_blanks (shrinks_exprTerm shrinks_exprParse) hblanks _).symm

end ReadsAs

/-- A product behind its left operand. -/
theorem term_bin {op : Op} (hop : op.level = 1) (pad : Pad) {l r : Expr D} (hl : ReadsAs l)
    (hr : ReadsAs r) (rest : Bytes) (hrest : Stops rest) :
    exprTerm exprParse ((Expr.bin op pad l r).text ++ rest)
      = chain isspace termOp (exprAtom exprParse) (Expr.bin op pad l r).eval rest := by
  have hright : exprAtom exprParse (pad.after ++ (bracketed (r.level < 2) r.text ++ rest))
      = (r.eval, rest) := by
    rw [exprAtom_blanks _ pad.blank.2, hr.atom rest hrest]
  simp only [Expr.text, hop, List.append_assoc, List.cons_append]
  rw [hl.term _ (stops_pad_sign pad.blank.1 op _),
    chain_op (shrinks_exprAtom shrinks_exprParse) (dropWhile_pad_sign pad.blank.1 op _)
      (termOp_sign hop), hright]
  rfl

/-- A sum behind its left operand. -/
theorem sum_bin {op : Op} (hop : op.level = 0) (pad : Pad) {l r : Expr D} (hl : ReadsAs l)
    (hr : ReadsAs r) (rest : Bytes) (hrest : Stops rest) (hno : NoProduct rest) :
    exprParse ((Expr.bin op pad l r).text ++ rest)
      = chain isspace sumOp (exprTerm exprParse) (Expr.bin op pad l r).eval rest := by
  have hright : exprTerm exprParse (pad.after ++ (bracketed (r.level < 1) r.text ++ rest))
      = (r.eval, rest.dropWhile isspace) := by
    rw [exprTerm_blanks _ pad.blank.2, hr.term rest hrest, chain_termOp_of_noProduct hno]
  have hleft : bracketed (l.level < 0) l.text = l.text :=
    if_neg (by rw [decide_eq_true_eq]; omega)
  have hblanks : ∀ c ∈ rest.takeWhile isspace, isspace c = true :=
    fun c hc => List.mem_takeWhile_imp hc
  simp only [Expr.text, hop, List.append_assoc, List.cons_append, hleft]
  rw [hl.sum _ (stops_pad_sign pad.blank.1 op _) (noProduct_pad_sign pad.blank.1 hop _),
    chain_op (shrinks_exprTerm shrinks_exprParse) (dropWhile_pad_sign pad.blank.1 op _)
      (sumOp_sign hop), hright]
  conv_rhs => rw [← List.takeWhile_append_dropWhile (p := isspace) (l := rest)]
  exact (chain_blanks (shrinks_exprTerm shrinks_exprParse) hblanks _).symm

theorem readsAs (e : Expr D) : ReadsAs e := by
  induction e with
  | num t =>
    have hoperand : ∀ (sign : D) (rest : Bytes), Stops rest →
        exprOperand exprParse sign
            (bracketed ((Expr.num t).level < 3) (Expr.num t).text ++ rest)
          = (sign * (Expr.num t).eval, rest) := by
      intro sign rest hrest
      show exprOperand exprParse sign (t.text ++ rest) = (sign * t.value, rest)
      have hopen : (t.text ++ rest).head? ≠ some 0x28 := by
        intro hhead
        rw [List.head?_append_of_ne_nil _ t.nonempty] at hhead
        exact (t.starts _ hhead).2.2 rfl
      rw [exprOperand, if_neg hopen, t.reads rest hrest]
    have hatom := atom_of_operand (.num t) (show 3 ≠ 2 by decide) hoperand
    have hterm := term_of_atom (.num t) (show 3 ≠ 1 by decide) hatom
    exact ⟨hoperand, hatom, hterm, sum_of_term (.num t) (show 3 ≠ 0 by decide) hterm⟩
  | neg e ih =>
    have hatom : ∀ rest : Bytes, Stops rest →
        exprAtom exprParse (bracketed ((Expr.neg e).level < 2) (Expr.neg e).text ++ rest)
          = ((Expr.neg e).eval, rest) := by
      intro rest hrest
      show exprAtom exprParse (0x2D :: (bracketed (e.level < 3) e.text ++ rest)) = _
      exact ih.operand _ rest hrest
    have hterm := term_of_atom (.neg e) (show 2 ≠ 1 by decide) hatom
    have hsum := sum_of_term (.neg e) (show 2 ≠ 0 by decide) hterm
    have hlow : (Expr.neg e).level < 3 := Nat.lt_succ_self 2
    exact ⟨fun sign rest _ => operand_of_sum (.neg e) hlow hsum sign rest, hatom, hterm, hsum⟩
  | bin op pad l r hl hr =>
    have hlow : (Expr.bin op pad l r).level < 2 := op.level_lt_two
    have hor : op.level = 0 ∨ op.level = 1 := by cases op <;> decide
    rcases hor with hop | hop
    · have hsum := sum_bin hop pad hl hr
      have hoperand := fun sign rest (_ : Stops rest) =>
        operand_of_sum _ (Nat.lt_succ_of_lt hlow) hsum sign rest
      have hatom := atom_of_operand _ hlow.ne hoperand
      have hne : (Expr.bin op pad l r).level ≠ 1 := fun h => absurd (hop.symm.trans h) (by decide)
      exact ⟨hoperand, hatom, term_of_atom _ hne hatom, hsum⟩
    · have hterm : ∀ rest : Bytes, Stops rest →
          exprTerm exprParse (bracketed ((Expr.bin op pad l r).level < 1)
              (Expr.bin op pad l r).text ++ rest)
            = chain isspace termOp (exprAtom exprParse) (Expr.bin op pad l r).eval rest := by
        intro rest hrest
        have hbrackets : bracketed ((Expr.bin op pad l r).level < 1) (Expr.bin op pad l r).text
            = (Expr.bin op pad l r).text :=
          if_neg (by rw [decide_eq_true_eq, Expr.level, hop]; omega)
        rw [hbrackets]
        exact term_bin hop pad hl hr rest hrest
      have hne : (Expr.bin op pad l r).level ≠ 0 := fun h => absurd (hop.symm.trans h) (by decide)
      have hsum := sum_of_term _ hne hterm
      have hoperand := fun sign rest (_ : Stops rest) =>
        operand_of_sum _ (Nat.lt_succ_of_lt hlow) hsum sign rest
      exact ⟨hoperand, atom_of_operand _ hlow.ne hoperand, hterm, hsum⟩

/-- **The parser computes what the tree says**, and leaves nothing, with blanks around the
operators and around the whole. -/
theorem tryEvalExpr_text {before after : Bytes} (hbefore : ∀ c ∈ before, isspace c = true)
    (hafter : ∀ c ∈ after, isspace c = true) (e : Expr D) :
    tryEvalExpr (before ++ e.text ++ after)
      = if Doubles.isNaN e.eval then none else some e.eval := by
  have hdrop : after.dropWhile isspace = [] := List.dropWhile_eq_nil_iff.2 hafter
  have hstops : Stops after := fun c hc => .inl (hafter c (List.mem_of_mem_head? hc))
  have hno : NoProduct after := by
    intro c hc
    rw [hdrop] at hc
    exact absurd hc (Option.not_mem_none c)
  have hparse : exprParse (before ++ e.text ++ after) = (e.eval, []) := by
    have hskip : (exprParse (before ++ (e.text ++ after)) : D × Bytes)
        = exprParse (e.text ++ after) := by
      rw [exprParse_eq, exprParse_eq (e.text ++ after), exprTerm_blanks _ hbefore]
    rw [List.append_assoc, hskip, (readsAs e).sum after hstops hno]
    exact chain_end hdrop
  rw [tryEvalExpr, hparse]
  cases Doubles.isNaN e.eval <;> rfl

/-- ` 2* -(3 +4)`. -/
theorem tryEvalExpr_product :
    let e : Expr Exact := .bin .mul (.spaces 0 1) (.num (Exact.numeral 2))
      (.neg (.bin .add (.spaces 1 0) (.num (Exact.numeral 3)) (.num (Exact.numeral 4))))
    tryEvalExpr ([0x20] ++ e.text ++ []) = some (Exact.val (-14)) := by
  intro e
  exact (tryEvalExpr_text (by decide +kernel) (by decide +kernel) e).trans (by decide +kernel)

end Lucp.Lucfg
