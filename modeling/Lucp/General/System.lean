import Mathlib.Data.List.Induction

/-!
# Labelled transition systems, their runs and their invariants

A program whose next move depends on what its environment answers is a relation `step` on states,
labelled by that answer.  This file is about such relations and nothing else: it names no program.

## What is here

* `System σ ε` — the initial states and the labelled steps.
* `System.Run S s es s'` — the run from `s` to `s'` whose labels, oldest first, are `es`.
  `System.Run.append` glues runs, `System.Run.split` cuts one at any point of its label list.
* `System.Run.invariant` — **the invariant rule**: what holds at the start and is kept by every
  step holds at the end.  `System.Run.invariant_of` is the same rule when only the steps that
  satisfy a side condition keep the invariant, which is how a property that holds on some runs
  only is proved.
* `System.restrict` — the system with only the steps that satisfy a condition on the state and the
  label; `System.Run.restrict_iff` is how a property is shown to hold in exactly the runs of it, and
  `System.Run.restrict_mono` and `System.Run.restrict_congr` compare two conditions.
* `System.within` — the system with only the steps that end in a state with a property;
  `System.Run.within_iff` compares it with a restriction, for properties that come and go.
* `System.Run.of_exec` — a run found by computing it, for systems whose steps are computable.
* `System.Run.length_add_le` — the measure rule: steps that all decrease a number are no more than
  it.
* `System.Run.map` — a system whose steps are steps of another one, under other labels.
* `System.Reachable` — the states a run from an initial state ends in.
-/

set_option autoImplicit false

universe u v

/-- A labelled transition system: where it may start and what a step may do. -/
structure System (σ : Type u) (ε : Type v) where
  /-- The states a run may start from. -/
  init : σ → Prop
  /-- `step s e s'`: in state `s`, the answer `e` of the environment leads to `s'`. -/
  step : σ → ε → σ → Prop

namespace System

variable {σ : Type u} {ε : Type v} {S : System σ ε}

/-- The runs of a system, with their labels oldest first. -/
inductive Run (S : System σ ε) : σ → List ε → σ → Prop
  | nil (s : σ) : Run S s [] s
  | cons {s t u : σ} {e : ε} {es : List ε} (h : S.step s e t) (r : Run S t es u) :
      Run S s (e :: es) u

theorem Run.single {s t : σ} {e : ε} (h : S.step s e t) : S.Run s [e] t :=
  .cons h (.nil t)

theorem Run.append {s t u : σ} {es fs : List ε} (h : S.Run s es t) (k : S.Run t fs u) :
    S.Run s (es ++ fs) u := by
  induction h with
  | nil => exact k
  | cons hs _ ih => exact .cons hs (ih k)

theorem Run.snoc {s t u : σ} {es : List ε} {e : ε} (h : S.Run s es t) (k : S.step t e u) :
    S.Run s (es ++ [e]) u :=
  h.append (.single k)

/-- A run can be cut anywhere in its label list. -/
theorem Run.split {s u : σ} {es fs : List ε} (h : S.Run s (es ++ fs) u) :
    ∃ t, S.Run s es t ∧ S.Run t fs u := by
  induction es generalizing s with
  | nil => exact ⟨s, .nil s, h⟩
  | cons e es ih =>
    cases h with
    | cons hs r =>
      obtain ⟨t, h1, h2⟩ := ih r
      exact ⟨t, .cons hs h1, h2⟩

/-- **The invariant rule, over a label list.**  `Inv` may speak about the labels seen so far; only
the steps `s -e→ t` with `Q s e` have to keep it. -/
theorem Run.invariant_of (Q : σ → ε → Prop) (Inv : List ε → σ → Prop) {s u : σ} {es : List ε}
    (h : S.Run s es u) (h0 : Inv [] s)
    (hstep : ∀ fs t e t', S.Run s fs t → Inv fs t → Q t e → S.step t e t' → Inv (fs ++ [e]) t')
    (hQ : ∀ fs e gs t, es = fs ++ e :: gs → S.Run s fs t → Q t e) : Inv es u := by
  induction es using List.reverseRecOn generalizing u with
  | nil => cases h; exact h0
  | append_singleton fs e ih =>
    obtain ⟨t, h1, h2⟩ := h.split
    cases h2 with
    | cons hs r =>
      cases r
      refine hstep fs t e u h1 (ih h1 fun gs e' hs' t' heq => ?_) (hQ fs e [] t (by simp) h1) hs
      exact hQ gs e' (hs' ++ [e]) t' (by simp [heq])

/-- **The invariant rule.**  What holds at the start and is kept by every step holds at the end of
every run. -/
theorem Run.invariant (Inv : σ → Prop) {s u : σ} {es : List ε} (h : S.Run s es u) (h0 : Inv s)
    (hstep : ∀ t e t', Inv t → S.step t e t' → Inv t') : Inv u := by
  induction h with
  | nil => exact h0
  | cons hs _ ih => exact ih (hstep _ _ _ h0 hs)

/-- `S` with only the steps that satisfy `Q`. -/
def restrict (S : System σ ε) (Q : σ → ε → Prop) : System σ ε where
  init := S.init
  step s e t := Q s e ∧ S.step s e t

/-- **What the steps that satisfy `Q` keep, and all others lose, holds at the end of a run exactly
if all its steps satisfy `Q`.** -/
theorem Run.restrict_iff (Q : σ → ε → Prop) (Inv Good : σ → Prop) {s u : σ} {es : List ε}
    (h : S.Run s es u) (hinv : Inv s) (hgood : Good s)
    (hstep : ∀ t e t', Inv t → S.step t e t' → Inv t' ∧ (Good t' ↔ Good t ∧ Q t e)) :
    Good u ↔ (S.restrict Q).Run s es u := by
  have hkeep : ∀ {s u : σ} {es : List ε}, (S.restrict Q).Run s es u → Inv s → Good s → Good u := by
    intro s u es h
    induction h with
    | nil => exact fun _ hg => hg
    | cons hs _ ih =>
      intro hi hg
      obtain ⟨hi', hiff⟩ := hstep _ _ _ hi hs.2
      exact ih hi' (hiff.2 ⟨hg, hs.1⟩)
  have hback : Good u → Good s ∧ (S.restrict Q).Run s es u := by
    clear hgood
    induction h with
    | nil => exact fun hg => ⟨hg, .nil _⟩
    | cons hs _ ih =>
      intro hg
      obtain ⟨hi', hiff⟩ := hstep _ _ _ hinv hs
      obtain ⟨hgt, hrun⟩ := ih hi' hg
      obtain ⟨hgs, hq⟩ := hiff.1 hgt
      exact ⟨hgs, .cons ⟨hq, hs⟩ hrun⟩
  exact ⟨fun hg => (hback hg).2, fun hrun => hkeep hrun hinv hgood⟩

/-- Steps that satisfy one condition only where they satisfy another. -/
theorem Run.restrict_mono (P Q : σ → ε → Prop) (Inv : σ → Prop) {s u : σ} {es : List ε}
    (h : (S.restrict P).Run s es u) (hinv : Inv s)
    (hstep : ∀ t e t', Inv t → P t e → S.step t e t' → Inv t' ∧ Q t e) :
    (S.restrict Q).Run s es u := by
  induction h with
  | nil => exact .nil _
  | cons hs _ ih =>
    obtain ⟨hi, hq⟩ := hstep _ _ _ hinv hs.1 hs.2
    exact .cons ⟨hq, hs.2⟩ (ih hi)

/-- Conditions that agree on the steps that can be reached restrict the runs in the same way. -/
theorem Run.restrict_congr (P Q : σ → ε → Prop) (Inv : σ → Prop) {s u : σ} {es : List ε}
    (hinv : Inv s) (hstep : ∀ t e t', Inv t → S.step t e t' → Inv t' ∧ (P t e ↔ Q t e)) :
    (S.restrict P).Run s es u ↔ (S.restrict Q).Run s es u :=
  ⟨fun h => h.restrict_mono P Q Inv hinv fun t e t' hi hp hs =>
    ⟨(hstep t e t' hi hs).1, (hstep t e t' hi hs).2.1 hp⟩,
    fun h => h.restrict_mono Q P Inv hinv fun t e t' hi hq hs =>
      ⟨(hstep t e t' hi hs).1, (hstep t e t' hi hs).2.2 hq⟩⟩

/-- `S` with only the steps that end in a state with the property `Good`. -/
def within (S : System σ ε) (Good : σ → Prop) : System σ ε where
  init := S.init
  step s e t := Good t ∧ S.step s e t

/-- **A run has the property in all its states exactly if all its steps satisfy `Q`**, for a start
that has it and a `Q` that says, in a state with the property, which steps keep it. -/
theorem Run.within_iff (Q : σ → ε → Prop) (Inv Good : σ → Prop) {s u : σ} {es : List ε}
    (hinv : Inv s) (hgood : Good s)
    (hstep : ∀ t e t', Inv t → Good t → S.step t e t' → Inv t' ∧ (Good t' ↔ Q t e)) :
    (S.within Good).Run s es u ↔ (S.restrict Q).Run s es u := by
  constructor
  · intro h
    induction h with
    | nil => exact .nil _
    | cons hs _ ih =>
      obtain ⟨hi, hiff⟩ := hstep _ _ _ hinv hgood hs.2
      exact .cons ⟨hiff.1 hs.1, hs.2⟩ (ih hi hs.1)
  · intro h
    induction h with
    | nil => exact .nil _
    | cons hs _ ih =>
      obtain ⟨hi, hiff⟩ := hstep _ _ _ hinv hgood hs.2
      exact .cons ⟨hiff.2 hs.1, hs.2⟩ (ih hi (hiff.2 hs.1))

/-- The last state of a run within a property has it. -/
theorem Run.within_last {Good : σ → Prop} {s u : σ} {es : List ε}
    (h : (S.within Good).Run s es u) (hgood : Good s) : Good u := by
  induction h with
  | nil => exact hgood
  | cons hs _ ih => exact ih hs.1

/-- **Runs can be executed.**  If `f` computes steps of the system, running it through a label list
to a state that passes a test shows that there is such a run. -/
theorem Run.of_exec (f : σ → ε → Option σ) (hf : ∀ s e t, f s e = some t → S.step s e t)
    (p : σ → Bool) (s : σ) (es : List ε) (h : (es.foldlM f s).any p = true) :
    ∃ t, S.Run s es t ∧ p t = true := by
  induction es generalizing s with
  | nil => exact ⟨s, .nil s, by simpa using h⟩
  | cons e es ih =>
    rw [List.foldlM_cons] at h
    cases hs : f s e with
    | none => simp [hs] at h
    | some t =>
      obtain ⟨u, hrun, hp⟩ := ih t (by simpa [hs] using h)
      exact ⟨u, .cons (hf s e t hs) hrun, hp⟩

/-- **The measure rule.**  A run whose steps all decrease a number has no more steps than that. -/
theorem Run.length_add_le (Inv : σ → Prop) (μ : σ → ℕ) {s u : σ} {es : List ε} (h : S.Run s es u)
    (hinv : Inv s) (hstep : ∀ t e t', Inv t → S.step t e t' → Inv t' ∧ μ t' < μ t) :
    es.length + μ u ≤ μ s := by
  induction h with
  | nil => exact Nat.le_of_eq (Nat.zero_add _)
  | cons hs _ ih =>
    obtain ⟨hi, hlt⟩ := hstep _ _ _ hinv hs
    have hle := ih hi
    rw [List.length_cons]
    omega

/-- **A run of steps that are steps of another system** is a run of that system; `lab` says under
which labels. -/
theorem Run.map {δ : Type v} {T : System σ δ} (lab : ε → δ)
    (hstep : ∀ s e t, S.step s e t → T.step s (lab e) t) {s u : σ} {es : List ε}
    (h : S.Run s es u) : T.Run s (es.map lab) u := by
  induction h with
  | nil s => exact .nil s
  | cons hs _ ih => exact .cons (hstep _ _ _ hs) ih

/-- A state some run from an initial state ends in. -/
def Reachable (S : System σ ε) (s : σ) : Prop := ∃ s₀ es, S.init s₀ ∧ S.Run s₀ es s

theorem Reachable.of_init {s : σ} (h : S.init s) : S.Reachable s := ⟨s, [], h, .nil s⟩

theorem Reachable.step {s t : σ} {e : ε} (h : S.Reachable s) (k : S.step s e t) :
    S.Reachable t := by
  obtain ⟨s₀, es, h0, hr⟩ := h
  exact ⟨s₀, es ++ [e], h0, hr.snoc k⟩

/-- The invariant rule for reachable states. -/
theorem Reachable.invariant (Inv : σ → Prop) {s : σ} (h : S.Reachable s)
    (h0 : ∀ s, S.init s → Inv s) (hstep : ∀ t e t', Inv t → S.step t e t' → Inv t') : Inv s := by
  obtain ⟨s₀, es, hi, hr⟩ := h
  exact hr.invariant Inv (h0 s₀ hi) hstep

end System
