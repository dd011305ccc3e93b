import Lucp.General.CArray

/-!
# Programs on arrays, with every access checked

An access outside an array has no meaning in C.  Here it is an outcome of its own, next to the error
a function gives up with and its result, so that a function is translated access by access first and
shown to stay inside its arrays afterwards.

## What is here

* `Checked ε α` — the three outcomes; a monad, so that programs are written with `do`.
* `CArray.store`, `CArray.load`, `CArray.get` — the accesses.  Their lemmas look at an array as what
  stands in front of a place and what stands behind it: `store_append` is the one for writing.
* `Checked.Refines` — **a program on arrays does what a program without them says, and no access of
  it is outside**; `Refines.bind` is the rule of composition.
-/

set_option autoImplicit false

universe u

/-- The outcome of a program on arrays. -/
inductive Checked (ε : Type) (α : Type u) : Type u where
  /-- An access outside an array. -/
  | overrun
  /-- The program has given up. -/
  | error (e : ε)
  /-- The program has ended. -/
  | ok (a : α)

namespace Checked

variable {ε : Type} {α β γ δ : Type u}

/-- One program after another. -/
protected def bind (x : Checked ε α) (f : α → Checked ε β) : Checked ε β :=
  match x with
  | .overrun => .overrun
  | .error e => .error e
  | .ok a => f a

instance : Monad (Checked ε) where
  pure := .ok
  bind := Checked.bind

@[simp] theorem ok_bind (a : α) (f : α → Checked ε β) : (Checked.ok a >>= f) = f a := rfl

@[simp] theorem error_bind (e : ε) (f : α → Checked ε β) :
    (Checked.error e >>= f) = .error e := rfl

@[simp] theorem pure_eq_ok (a : α) : (pure a : Checked ε α) = .ok a := rfl

/-- An access that succeeds, and what follows. -/
theorem bind_of_eq_ok {x : Checked ε α} {a : α} (h : x = .ok a) (f : α → Checked ε β) :
    x >>= f = f a := by
  rw [h, ok_bind]

/-! ## Refinement -/

/-- The program on arrays ends as the other one does, with results that are related. -/
inductive Refines (R : α → β → Prop) : Checked ε α → Except ε β → Prop where
  | error (e : ε) : Refines R (.error e) (.error e)
  | ok {a : α} {b : β} (h : R a b) : Refines R (.ok a) (.ok b)

variable {R : α → β → Prop} {S : γ → δ → Prop}

/-- The rule for what succeeds on both sides. -/
theorem Refines.of_eq_ok {x : Checked ε α} {a : α} {b : β} (h : x = .ok a) (hR : R a b) :
    Refines R x (.ok b) := by
  rw [h]
  exact .ok hR

/-- **The rule of composition.** -/
theorem Refines.bind {x : Checked ε α} {y : Except ε β} {f : α → Checked ε γ} {g : β → Except ε δ}
    (h : Refines R x y) (hf : ∀ a b, R a b → Refines S (f a) (g b)) :
    Refines S (x >>= f) (y >>= g) := by
  cases h with
  | error e => exact .error e
  | ok h => exact hf _ _ h

/-- The rule for an access, which the other program does not make. -/
theorem Refines.access {x : Checked ε α} {a : α} {f : α → Checked ε γ} {y : Except ε δ}
    (h : x = .ok a) (hf : Refines S (f a) y) : Refines S (x >>= f) y := by
  rwa [bind_of_eq_ok h]

/-- The rule for a test that both make. -/
theorem Refines.ite {c : Prop} [Decidable c] {x x' : Checked ε α} {y y' : Except ε β}
    (h : c → Refines R x y) (h' : ¬ c → Refines R x' y') :
    Refines R (if c then x else x') (if c then y else y') := by
  split
  · next hc => exact h hc
  · next hc => exact h' hc

end Checked

namespace CArray

variable {ε : Type} {α : Type u} {n : ℕ}

/-! ## Accesses -/

/-- Write `src` into the array from `off` on. -/
def store (a : CArray α n) (off : ℕ) (src : List α) : Checked ε (CArray α n) :=
  if off + src.length ≤ n then .ok (a.write off src) else .overrun

/-- Read `len` entries from `off` on. -/
def load (a : CArray α n) (off len : ℕ) : Checked ε (List α) :=
  if off + len ≤ n then .ok ((a.toList.drop off).take len) else .overrun

/-- Read one entry. -/
def get (a : CArray α n) (i : ℕ) : Checked ε α :=
  match a.toList[i]? with
  | some x => .ok x
  | none => .overrun

/-- **Writing behind what stands in front.** -/
theorem store_append {a : CArray α n} {front rest src : List α} (h : a.toList = front ++ rest)
    (hsrc : src.length ≤ rest.length) :
    ∃ a' : CArray α n, (a.store front.length src : Checked ε _) = .ok a' ∧
      a'.toList = front ++ src ++ rest.drop src.length := by
  have hlen := a.length_eq
  rw [h, List.length_append] at hlen
  have hfit : front.length + src.length ≤ n := by omega
  refine ⟨a.write front.length src, if_pos hfit, ?_⟩
  rw [write_toList hfit, blit, h, List.take_left, List.drop_append]
  simp

/-- Writing to the front. -/
theorem store_zero {a : CArray α n} {src : List α} (hsrc : src.length ≤ n) :
    ∃ a' : CArray α n, (a.store 0 src : Checked ε _) = .ok a' ∧
      a'.toList = src ++ a.toList.drop src.length := by
  have h : a.toList = [] ++ a.toList := rfl
  exact store_append h (by rwa [a.length_eq])

/-- Reading what stands in front. -/
theorem load_append {a : CArray α n} {front rest : List α} (h : a.toList = front ++ rest) :
    (a.load 0 front.length : Checked ε _) = .ok front := by
  have hlen := a.length_eq
  rw [h, List.length_append] at hlen
  rw [load, if_pos (by omega), List.drop_zero, h, List.take_left]

/-- Reading the entry behind what stands in front. -/
theorem get_append {a : CArray α n} {front rest : List α} {x : α}
    (h : a.toList = front ++ x :: rest) : (a.get front.length : Checked ε _) = .ok x := by
  rw [get, h, List.getElem?_append_right (Nat.le_refl _), Nat.sub_self]
  rfl

/-- Reading an entry of what stands in front. -/
theorem get_front {a : CArray α n} {front rest : List α} (h : a.toList = front ++ rest) {i : ℕ}
    {x : α} (hi : front[i]? = some x) : (a.get i : Checked ε _) = .ok x := by
  have hlt : i < front.length := (List.getElem?_eq_some_iff.1 hi).1
  rw [get, h, List.getElem?_append_left hlt, hi]

end CArray
