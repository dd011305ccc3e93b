import Mathlib.Data.List.TakeWhile
import Mathlib.Data.List.Basic

/-!
# Recursive descent

A reader takes a text and returns a value with the text that is left.  A grammar with brackets has
a reader that calls itself, always on less than it was given; a chain of operators of one precedence
is a loop around the reader of its operands.  This file is about both, over arbitrary symbols and
values: that the recursion bounded by the length of the text is the recursion of the program, and
what a chain makes of the text in front of it.

## What is here

* `Descent.read`, `Descent.Guarded` — the reader that a step describes, if the step calls the reader
  only on shorter texts; `Descent.read_eq` is **its equation**, in which no bound is left.
* `Descent.chain` — `a op b op c …`, grouped to the left; `Descent.chain_op` and
  `Descent.chain_stop` say what the next symbol does, and `Descent.chain_blanks` that blanks do
  nothing.
-/

set_option autoImplicit false

universe u v

namespace Descent

/-- A reader. -/
abbrev Reader (α : Type u) (V : Type v) := List α → V × List α

variable {α : Type u} {V : Type v}

/-- A reader leaves no more than it was given. -/
def Shrinks (r : Reader α V) : Prop := ∀ s, (r s).2.length ≤ s.length

/-! ## Readers that call themselves -/

/-- A reader with at most `n` calls of itself inside each other. -/
def iter (step : Reader α V → Reader α V) (bottom : V) : ℕ → Reader α V
  | 0, _ => (bottom, [])
  | n + 1, s => step (iter step bottom n) s

/-- The reader that calls itself as `step` says. -/
def read (step : Reader α V → Reader α V) (bottom : V) : Reader α V := fun s =>
  iter step bottom (s.length + 1) s

/-- The reader is called on shorter texts only. -/
structure Guarded (step : Reader α V → Reader α V) : Prop where
  /-- What it makes of longer ones does not matter. -/
  congr : ∀ r r' : Reader α V, Shrinks r → Shrinks r' → ∀ s : List α,
    (∀ t : List α, t.length < s.length → r t = r' t) → step r s = step r' s
  /-- The step leaves no more than the reader. -/
  shrinks : ∀ r, Shrinks r → Shrinks (step r)

section Guarded

variable {step : Reader α V → Reader α V} {bottom : V}

theorem Guarded.shrinks_iter (h : Guarded step) (n : ℕ) : Shrinks (iter step bottom n) := by
  induction n with
  | zero => exact fun s => Nat.zero_le _
  | succ n ih => exact h.shrinks _ ih

/-- More calls than there are symbols are never needed. -/
theorem Guarded.iter_eq (h : Guarded step) {n m : ℕ} {s : List α} (hn : s.length < n)
    (hm : s.length < m) : iter step bottom n s = iter step bottom m s := by
  induction n generalizing m s with
  | zero => omega
  | succ n ih =>
    obtain ⟨m, rfl⟩ := Nat.exists_eq_succ_of_ne_zero (Nat.ne_zero_of_lt hm)
    refine h.congr _ _ (h.shrinks_iter n) (h.shrinks_iter m) s fun t ht => ?_
    exact ih (by omega) (by omega)

theorem Guarded.shrinks_read (h : Guarded step) : Shrinks (read step bottom) :=
  fun s => h.shrinks_iter (s.length + 1) s

/-- **The equation of a reader that calls itself.** -/
theorem Guarded.read_eq (h : Guarded step) (s : List α) :
    read step bottom s = step (read step bottom) s := by
  show step (iter step bottom s.length) s = _
  refine h.congr _ _ (h.shrinks_iter _) h.shrinks_read s fun t ht => ?_
  exact h.iter_eq ht (Nat.lt_succ_self _)

end Guarded

/-! ## Chains of operators -/

variable (blank : α → Bool) (op : α → Option (V → V → V)) (operand : Reader α V)

/-- A chain of at most `n` operators behind its first value. -/
def chainFrom : ℕ → V → Reader α V
  | 0, left, s => (left, s.dropWhile blank)
  | n + 1, left, s =>
    match s.dropWhile blank with
    | [] => (left, [])
    | c :: rest =>
      match op c with
      | none => (left, c :: rest)
      | some f => chainFrom n (f left (operand rest).1) (operand rest).2

/-- A chain of operators behind its first value. -/
def chain (left : V) : Reader α V := fun s => chainFrom blank op operand s.length left s

variable {blank op operand}

theorem length_of_dropWhile_eq {s rest : List α} {c : α} (h : s.dropWhile blank = c :: rest) :
    rest.length < s.length := by
  have := (List.dropWhile_suffix blank (l := s)).length_le
  rw [h, List.length_cons] at this
  omega

theorem chainFrom_stop (n : ℕ) {left : V} {s rest : List α} {c : α}
    (hs : s.dropWhile blank = c :: rest) (hop : op c = none) :
    chainFrom blank op operand n left s = (left, c :: rest) := by
  cases n with
  | zero => rw [chainFrom, hs]
  | succ n =>
    rw [chainFrom, hs]
    show (match op c with | none => _ | some f => _) = _
    rw [hop]

theorem chainFrom_op {n : ℕ} {left : V} {s rest : List α} {c : α} {f : V → V → V}
    (hs : s.dropWhile blank = c :: rest) (hop : op c = some f) :
    chainFrom blank op operand (n + 1) left s
      = chainFrom blank op operand n (f left (operand rest).1) (operand rest).2 := by
  rw [chainFrom, hs]
  show (match op c with | none => _ | some f => _) = _
  rw [hop]

theorem chainFrom_end (n : ℕ) {left : V} {s : List α} (hs : s.dropWhile blank = []) :
    chainFrom blank op operand n left s = (left, []) := by
  cases n with
  | zero => rw [chainFrom, hs]
  | succ n => rw [chainFrom, hs]

/-- **More operators than there are symbols are never needed**, and only the operands count. -/
theorem chainFrom_congr {operand' : Reader α V} (hshrinks : Shrinks operand) {n m : ℕ} {left : V}
    {s : List α} (hn : s.length ≤ n) (hm : s.length ≤ m)
    (h : ∀ t : List α, t.length < s.length → operand t = operand' t) :
    chainFrom blank op operand n left s = chainFrom blank op operand' m left s := by
  induction n generalizing m left s with
  | zero =>
    obtain rfl := List.length_eq_zero_iff.1 (Nat.le_zero.1 hn)
    rw [chainFrom_end 0 rfl, chainFrom_end m rfl]
  | succ n ih =>
    cases hs : s.dropWhile blank with
    | nil => rw [chainFrom_end _ hs, chainFrom_end m hs]
    | cons c rest =>
      have hrest := length_of_dropWhile_eq hs
      cases hop : op c with
      | none => rw [chainFrom_stop _ hs hop, chainFrom_stop m hs hop]
      | some f =>
        obtain ⟨m, rfl⟩ : ∃ k, m = k + 1 := ⟨m - 1, by omega⟩
        rw [chainFrom_op hs hop, chainFrom_op hs hop, ← h rest hrest]
        have := hshrinks rest
        exact ih (by omega) (by omega) fun t ht => h t (by omega)

theorem chain_congr {operand' : Reader α V} (hshrinks : Shrinks operand) {left : V} {s : List α}
    (h : ∀ t : List α, t.length < s.length → operand t = operand' t) :
    chain blank op operand left s = chain blank op operand' left s :=
  chainFrom_congr hshrinks (Nat.le_refl _) (Nat.le_refl _) h

theorem shrinks_chain (hshrinks : Shrinks operand) (left : V) :
    Shrinks (chain blank op operand left) := by
  have hgen : ∀ (n : ℕ) (left : V) (s : List α),
      (chainFrom blank op operand n left s).2.length ≤ s.length := by
    intro n
    induction n with
    | zero => exact fun left s => (List.dropWhile_suffix blank).length_le
    | succ n ih =>
      intro left s
      cases hs : s.dropWhile blank with
      | nil =>
        rw [chainFrom_end _ hs]
        exact Nat.zero_le _
      | cons c rest =>
        have hrest := length_of_dropWhile_eq hs
        cases hop : op c with
        | none =>
          rw [chainFrom_stop _ hs hop]
          exact hrest
        | some f =>
          rw [chainFrom_op hs hop]
          exact (ih _ _).trans ((hshrinks rest).trans hrest.le)
  exact fun s => hgen s.length left s

theorem chain_end {left : V} {s : List α} (hs : s.dropWhile blank = []) :
    chain blank op operand left s = (left, []) := chainFrom_end _ hs

/-- A symbol that is no operator ends the chain. -/
theorem chain_stop {left : V} {s rest : List α} {c : α} (hs : s.dropWhile blank = c :: rest)
    (hop : op c = none) : chain blank op operand left s = (left, c :: rest) :=
  chainFrom_stop _ hs hop

/-- **An operator takes the value so far and the next operand.** -/
theorem chain_op (hshrinks : Shrinks operand) {left : V} {s rest : List α} {c : α}
    {f : V → V → V} (hs : s.dropWhile blank = c :: rest) (hop : op c = some f) :
    chain blank op operand left s
      = chain blank op operand (f left (operand rest).1) (operand rest).2 := by
  have hrest := length_of_dropWhile_eq hs
  obtain ⟨n, hn⟩ : ∃ n, s.length = n + 1 := ⟨s.length - 1, by omega⟩
  have := hshrinks rest
  rw [chain, hn, chainFrom_op hs hop]
  exact chainFrom_congr hshrinks (by omega) (Nat.le_refl _) fun _ _ => rfl

/-- Blanks in front of a chain do nothing. -/
theorem chain_blanks (hshrinks : Shrinks operand) {left : V} {ws : List α}
    (hws : ∀ c ∈ ws, blank c = true) (s : List α) :
    chain blank op operand left (ws ++ s) = chain blank op operand left s := by
  have hdrop : (ws ++ s).dropWhile blank = s.dropWhile blank := List.dropWhile_append_of_pos hws
  cases hs : s.dropWhile blank with
  | nil => rw [chain_end hs, chain_end (hdrop.trans hs)]
  | cons c rest =>
    cases hop : op c with
    | none => rw [chain_stop hs hop, chain_stop (hdrop.trans hs) hop]
    | some f => rw [chain_op hshrinks hs hop, chain_op hshrinks (hdrop.trans hs) hop]

end Descent
