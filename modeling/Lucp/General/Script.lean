import Mathlib.Data.Nat.Notation
import Mathlib.Tactic.TypeStar

/-!
# Programs as scripts of calls

A sequential program that acts only through a fixed set of operations is a tree: it is done, or it
calls an operation and goes on in a way that depends on the answer.  What an operation does is not
part of the tree, so the same script can be run in one go, or one call at a time between the calls
of others.

## What is here

* `Script ω ans α` — scripts that call operations `o : ω`, each answered with an `ans o`, and end
  with an `α`; a monad, so that scripts are written with `do`.
* `Script.op` — the script of one call.
* `Script.forEach` — a loop over a list, which a turn can leave.
* `Script.Calls P` — all calls of a script satisfy `P`, whatever the answers.
* `Script.Ensures` — **Hoare triples**: run from a state, with every call done by `exec` in an
  environment that satisfies `Env`, the script keeps the invariant `I` after every call and ends
  with the postcondition.  `Ensures.bind` is the rule for one script after another, `Calls.ensures`
  the one for a script whose calls keep the invariant anyway.
* `Script.Runs` — a script with the calls it has made, each an `Entry`, until it ended;
  `Script.Steps` also for a script that has not ended yet.  `runs_bind_iff` takes the runs of one
  script after another apart, `ensures_counted` counts calls, and `exists_runs` computes a run.
-/

set_option autoImplicit false

/-- A program that calls operations and ends with an `α`. -/
inductive Script (ω : Type) (ans : ω → Type) (α : Type) : Type
  /-- The program has ended. -/
  | done (a : α)
  /-- The next call, and what follows on each answer. -/
  | call (o : ω) (k : ans o → Script ω ans α)

namespace Script

variable {ω : Type} {ans : ω → Type} {α β : Type}

/-- One program after another. -/
def bind (s : Script ω ans α) (f : α → Script ω ans β) : Script ω ans β :=
  match s with
  | .done a => f a
  | .call o k => .call o fun r => (k r).bind f

instance : Monad (Script ω ans) where
  pure := .done
  bind := bind

/-- The program of one call. -/
def op (o : ω) : Script ω ans (ans o) := .call o .done

/-- A loop over a list; a turn answers whether there is to be another. -/
def forEach (l : List β) (turn : β → Script ω ans Bool) : Script ω ans Unit :=
  match l with
  | [] => .done ()
  | x :: l => (turn x).bind fun more => if more then forEach l turn else .done ()

/-! ## All calls of a script -/

/-- All calls of the script satisfy `P`. -/
def Calls (P : ω → Prop) : Script ω ans α → Prop
  | .done _ => True
  | .call o k => P o ∧ ∀ r, (k r).Calls P

section Calls

variable {P : ω → Prop}

theorem calls_true (s : Script ω ans α) : s.Calls fun _ => True := by
  induction s with
  | done a => trivial
  | call o k ih => exact ⟨trivial, ih⟩

theorem Calls.mono {Q : ω → Prop} {s : Script ω ans α} (h : s.Calls P) (hPQ : ∀ o, P o → Q o) :
    s.Calls Q := by
  induction s with
  | done a => trivial
  | call o k ih => exact ⟨hPQ o h.1, fun r => ih r (h.2 r)⟩

theorem calls_pure (a : α) : Calls P (pure a : Script ω ans α) := trivial

theorem calls_op {o : ω} (h : P o) : Calls P (op o : Script ω ans (ans o)) :=
  ⟨h, fun _ => trivial⟩

theorem Calls.bind {s : Script ω ans α} {f : α → Script ω ans β} (hs : s.Calls P)
    (hf : ∀ a, (f a).Calls P) : (s >>= f).Calls P := by
  induction s with
  | done a => exact hf a
  | call o k ih => exact ⟨hs.1, fun r => ih r (hs.2 r)⟩

/-- The rule for a call and what follows. -/
theorem Calls.op_bind {o : ω} {f : ans o → Script ω ans β} (h : P o) (hf : ∀ r, (f r).Calls P) :
    (op o >>= f).Calls P :=
  ⟨h, hf⟩

theorem Calls.ite {c : Prop} [Decidable c] {s t : Script ω ans α} (hs : s.Calls P)
    (ht : t.Calls P) : (if c then s else t).Calls P := by
  split
  · exact hs
  · exact ht

theorem Calls.forEach {l : List β} {turn : β → Script ω ans Bool} (h : ∀ x, (turn x).Calls P) :
    (forEach l turn).Calls P := by
  induction l with
  | nil => trivial
  | cons x l ih => exact (h x).bind fun more => ih.ite trivial

end Calls

/-! ## Triples -/

section Ensures

variable {σ ε : Type} (exec : σ → ε → (o : ω) → σ × ans o) (Env : ε → Prop) (I : σ → Prop)

/-- From state `st` the script keeps `I` and ends with `Q`. -/
def Ensures : Script ω ans α → (α → σ → Prop) → σ → Prop
  | .done a, Q, st => Q a st
  | .call o k, Q, st =>
    ∀ e, Env e → I (exec st e o).1 ∧ (k (exec st e o).2).Ensures Q (exec st e o).1

variable {exec Env I}

theorem Ensures.mono {s : Script ω ans α} {Q Q' : α → σ → Prop} {st : σ}
    (h : s.Ensures exec Env I Q st) (hQ : ∀ a st, Q a st → Q' a st) :
    s.Ensures exec Env I Q' st := by
  induction s generalizing st with
  | done a => exact hQ a st h
  | call o k ih => exact fun e he => ⟨(h e he).1, ih _ (h e he).2⟩

/-- A weaker invariant. -/
theorem Ensures.weaken {s : Script ω ans α} {Q : α → σ → Prop} {st : σ} {J : σ → Prop}
    (h : s.Ensures exec Env I Q st) (hJ : ∀ st, I st → J st) : s.Ensures exec Env J Q st := by
  induction s generalizing st with
  | done a => exact h
  | call o k ih => exact fun e he => ⟨hJ _ (h e he).1, ih _ (h e he).2⟩

/-- **The rule of composition.** -/
theorem Ensures.bind {s : Script ω ans α} {f : α → Script ω ans β} {Q : α → σ → Prop}
    {R : β → σ → Prop} {st : σ} (hs : s.Ensures exec Env I Q st)
    (hf : ∀ a st, Q a st → (f a).Ensures exec Env I R st) :
    (s >>= f).Ensures exec Env I R st := by
  induction s generalizing st with
  | done a => exact hf a st hs
  | call o k ih => exact fun e he => ⟨(hs e he).1, ih _ (hs e he).2⟩

/-- The rule for a call and what follows. -/
theorem Ensures.op_bind {o : ω} {f : ans o → Script ω ans β} {Q : β → σ → Prop} {st : σ}
    (h : ∀ e, Env e →
      I (exec st e o).1 ∧ (f (exec st e o).2).Ensures exec Env I Q (exec st e o).1) :
    (op o >>= f).Ensures exec Env I Q st :=
  h

theorem Ensures.ite {c : Prop} [Decidable c] {s t : Script ω ans α} {Q : α → σ → Prop} {st : σ}
    (hs : c → s.Ensures exec Env I Q st) (ht : ¬ c → t.Ensures exec Env I Q st) :
    (if c then s else t).Ensures exec Env I Q st := by
  split
  · next hc => exact hs hc
  · next hc => exact ht hc

/-- **The rule for calls that keep the invariant anyway.** -/
theorem Calls.ensures {P : ω → Prop} {s : Script ω ans α} {st : σ} (hs : s.Calls P)
    (hP : ∀ o, P o → ∀ st e, I st → I (exec st e o).1) (hI : I st) :
    s.Ensures exec Env I (fun _ => I) st := by
  induction s generalizing st with
  | done a => exact hI
  | call o k ih =>
    intro e _
    have hnext := hP o hs.1 st e hI
    exact ⟨hnext, ih _ (hs.2 _) hnext⟩

end Ensures

/-! ## Runs -/

/-- A call of a run: the state it was made in, the operation, and what the environment added. -/
structure Entry (σ ε ω : Type) where
  state : σ
  op : ω
  env : ε

section Runs

variable {σ ε : Type} (exec : σ → ε → (o : ω) → σ × ans o)

/-- The script makes the listed calls, and what is left of it is another script. -/
inductive Steps : Script ω ans α → σ → List (Entry σ ε ω) → Script ω ans α → σ → Prop
  | nil (s : Script ω ans α) (st : σ) : Steps s st [] s st
  | cons {o : ω} {k : ans o → Script ω ans α} {st : σ} (e : ε) {tr : List (Entry σ ε ω)}
      {s' : Script ω ans α} {st' : σ}
      (h : Steps (k (exec st e o).2) (exec st e o).1 tr s' st') :
      Steps (.call o k) st (⟨st, o, e⟩ :: tr) s' st'

/-- The script makes the listed calls and ends with `a`. -/
def Runs (s : Script ω ans α) (st : σ) (tr : List (Entry σ ε ω)) (a : α) (st' : σ) : Prop :=
  Steps exec s st tr (.done a) st'

variable {exec}

/-- One more call. -/
theorem Steps.snoc {s : Script ω ans α} {st st' : σ} {tr : List (Entry σ ε ω)} {o : ω}
    {k : ans o → Script ω ans α} (h : Steps exec s st tr (.call o k) st') (e : ε) :
    Steps exec s st (tr ++ [⟨st', o, e⟩]) (k (exec st' e o).2) (exec st' e o).1 := by
  generalize hs' : Script.call o k = s' at h
  induction h with
  | nil s st =>
    subst hs'
    exact .cons e (.nil _ _)
  | cons e' _ ih => exact .cons e' (ih hs')

theorem runs_pure_iff {a b : α} {st st' : σ} {tr : List (Entry σ ε ω)} :
    Runs exec (pure a : Script ω ans α) st tr b st' ↔ tr = [] ∧ b = a ∧ st' = st := by
  constructor
  · intro h
    cases h
    exact ⟨rfl, rfl, rfl⟩
  · rintro ⟨rfl, rfl, rfl⟩
    exact .nil _ _

theorem runs_call_iff {o : ω} {k : ans o → Script ω ans α} {b : α} {st st' : σ}
    {tr : List (Entry σ ε ω)} :
    Runs exec (.call o k) st tr b st' ↔
      ∃ e tr', tr = ⟨st, o, e⟩ :: tr' ∧
        Runs exec (k (exec st e o).2) (exec st e o).1 tr' b st' := by
  constructor
  · intro h
    cases h with
    | cons e h => exact ⟨e, _, rfl, h⟩
  · rintro ⟨e, tr', rfl, h⟩
    exact .cons e h

/-- A run of one script after another. -/
theorem runs_bind_iff {s : Script ω ans α} {f : α → Script ω ans β} {b : β} {st st' : σ}
    {tr : List (Entry σ ε ω)} :
    Runs exec (s >>= f) st tr b st' ↔
      ∃ tr₁ a st₁ tr₂, tr = tr₁ ++ tr₂ ∧ Runs exec s st tr₁ a st₁ ∧
        Runs exec (f a) st₁ tr₂ b st' := by
  induction s generalizing st tr with
  | done a =>
    constructor
    · exact fun h => ⟨[], a, st, tr, rfl, .nil _ _, h⟩
    · rintro ⟨tr₁, a', st₁, tr₂, rfl, h₁, h₂⟩
      obtain ⟨rfl, rfl, rfl⟩ := runs_pure_iff.1 h₁
      exact h₂
  | call o k ih =>
    constructor
    · intro h
      obtain ⟨e, tr', rfl, h'⟩ := runs_call_iff.1 h
      obtain ⟨tr₁, a, st₁, tr₂, rfl, h₁, h₂⟩ := (ih _).1 h'
      exact ⟨_, a, st₁, tr₂, rfl, runs_call_iff.2 ⟨e, tr₁, rfl, h₁⟩, h₂⟩
    · rintro ⟨tr₁, a, st₁, tr₂, rfl, h₁, h₂⟩
      obtain ⟨e, tr', rfl, h'⟩ := runs_call_iff.1 h₁
      exact runs_call_iff.2 ⟨e, _, rfl, (ih _).2 ⟨tr', a, st₁, tr₂, rfl, h', h₂⟩⟩

/-- The rule for a call and what follows. -/
theorem runs_op_bind_iff {o : ω} {f : ans o → Script ω ans β} {b : β} {st st' : σ}
    {tr : List (Entry σ ε ω)} :
    Runs exec (op o >>= f) st tr b st' ↔
      ∃ e tr', tr = ⟨st, o, e⟩ :: tr' ∧
        Runs exec (f (exec st e o).2) (exec st e o).1 tr' b st' :=
  runs_call_iff

theorem runs_op_iff {o : ω} {a : ans o} {st st' : σ} {tr : List (Entry σ ε ω)} :
    Runs exec (op o : Script ω ans (ans o)) st tr a st' ↔
      ∃ e, tr = [⟨st, o, e⟩] ∧ a = (exec st e o).2 ∧ st' = (exec st e o).1 := by
  rw [op, runs_call_iff]
  constructor
  · rintro ⟨e, tr', rfl, h⟩
    obtain ⟨rfl, rfl, rfl⟩ := runs_pure_iff.1 h
    exact ⟨e, rfl, rfl, rfl⟩
  · rintro ⟨e, rfl, rfl, rfl⟩
    exact ⟨e, [], rfl, .nil _ _⟩

theorem runs_ite_iff {c : Prop} [Decidable c] {s t : Script ω ans α} {a : α} {st st' : σ}
    {tr : List (Entry σ ε ω)} :
    Runs exec (if c then s else t) st tr a st' ↔
      c ∧ Runs exec s st tr a st' ∨ ¬ c ∧ Runs exec t st tr a st' := by
  split
  · next hc => simp [hc]
  · next hc => simp [hc]

/-- The calls of a run are calls of the script. -/
theorem Calls.of_runs {P : ω → Prop} {s : Script ω ans α} {st st' : σ}
    {tr : List (Entry σ ε ω)} {a : α} (hs : s.Calls P) (h : Runs exec s st tr a st') :
    ∀ x ∈ tr, P x.op := by
  induction s generalizing st tr with
  | done b =>
    obtain ⟨rfl, -, -⟩ := runs_pure_iff.1 h
    exact fun x hx => absurd hx List.not_mem_nil
  | call o k ih =>
    obtain ⟨e, tr', rfl, h'⟩ := runs_call_iff.1 h
    rintro x (_ | ⟨_, hx⟩)
    · exact hs.1
    · exact ih _ (hs.2 _) h' x hx

/-- What the calls of a script keep is kept by its runs. -/
theorem Calls.keeps {P : ω → Prop} (I : σ → Prop) {s : Script ω ans α} {st st' : σ}
    {tr : List (Entry σ ε ω)} {a : α} (hs : s.Calls P)
    (hP : ∀ o, P o → ∀ st e, I st → I (exec st e o).1) (h : Runs exec s st tr a st')
    (hI : I st) : I st' := by
  induction s generalizing st tr with
  | done b =>
    obtain ⟨-, -, rfl⟩ := runs_pure_iff.1 h
    exact hI
  | call o k ih =>
    obtain ⟨e, tr', rfl, h'⟩ := runs_call_iff.1 h
    exact ih _ (hs.2 _) h' (hP o hs.1 st e hI)

variable (exec)

/-- As `exec`, and the calls that `f` singles out are counted. -/
def counted (f : σ → ω → Bool) (st : σ × ℕ) (e : ε) (o : ω) : (σ × ℕ) × ans o :=
  (((exec st.1 e o).1, if f st.1 o then st.2 + 1 else st.2), (exec st.1 e o).2)

/-- To know what a script ensures about the number of calls it is enough to look at its runs. -/
theorem ensures_counted {f : σ → ω → Bool} {s : Script ω ans α} {Q : α → σ × ℕ → Prop} {st : σ}
    {n : ℕ} (h : ∀ tr a st', Runs exec s st tr a st' →
      Q a (st', n + tr.countP fun x => f x.state x.op)) :
    s.Ensures (counted exec f) (fun _ => True) (fun _ => True) Q (st, n) := by
  induction s generalizing st n with
  | done a => exact h [] a st (.nil _ _)
  | call o k ih =>
    refine fun e _ => ⟨trivial, ih _ fun tr a st' hrun => ?_⟩
    have hq := h (⟨st, o, e⟩ :: tr) a st' (.cons e hrun)
    rw [List.countP_cons] at hq
    by_cases hf : f st o = true
    · rw [if_pos hf, Nat.add_comm _ 1, ← Nat.add_assoc] at hq
      simpa only [if_pos hf] using hq
    · rw [if_neg hf, Nat.add_zero] at hq
      simpa only [if_neg hf] using hq

/-- The run in which the environment adds the listed values, if it ends with the last of them. -/
def run (s : Script ω ans α) (st : σ) : List ε → Option (List (Entry σ ε ω) × α × σ)
  | [] =>
    match s with
    | .done a => some ([], a, st)
    | .call _ _ => none
  | e :: es =>
    match s with
    | .done _ => none
    | .call o k =>
      ((k (exec st e o).2).run (exec st e o).1 es).map fun r => (⟨st, o, e⟩ :: r.1, r.2)

variable {exec}

theorem runs_of_run {s : Script ω ans α} {st : σ} {es : List ε} {tr : List (Entry σ ε ω)} {a : α}
    {st' : σ} (h : s.run exec st es = some (tr, a, st')) : Runs exec s st tr a st' := by
  induction es generalizing s st tr with
  | nil =>
    cases s with
    | done b =>
      simp only [run, Option.some.injEq, Prod.mk.injEq] at h
      obtain ⟨rfl, rfl, rfl⟩ := h
      exact .nil _ _
    | call o k => cases h
  | cons e es ih =>
    cases s with
    | done b => cases h
    | call o k =>
      obtain ⟨⟨tr', r⟩, hr, heq⟩ := Option.map_eq_some_iff.1 h
      simp only [Prod.mk.injEq] at heq
      obtain ⟨rfl, rfl⟩ := heq
      exact .cons e (ih hr)

theorem env_of_run {s : Script ω ans α} {st : σ} {es : List ε} {tr : List (Entry σ ε ω)} {a : α}
    {st' : σ} (h : s.run exec st es = some (tr, a, st')) : tr.map (·.env) = es := by
  induction es generalizing s st tr with
  | nil =>
    cases s with
    | done b =>
      simp only [run, Option.some.injEq, Prod.mk.injEq] at h
      rw [← h.1]
      rfl
    | call o k => cases h
  | cons e es ih =>
    cases s with
    | done b => cases h
    | call o k =>
      obtain ⟨⟨tr', r⟩, hr, heq⟩ := Option.map_eq_some_iff.1 h
      simp only [Prod.mk.injEq] at heq
      obtain ⟨rfl, rfl⟩ := heq
      rw [List.map_cons, ih hr]

variable (exec)

/-- Runs can be executed, up to a test of the outcome. -/
theorem exists_runs_env (s : Script ω ans α) (st : σ) (es : List ε)
    (p : List (Entry σ ε ω) → α → σ → Bool)
    (h : (s.run exec st es).any (fun r => p r.1 r.2.1 r.2.2) = true) :
    ∃ tr a st', Runs exec s st tr a st' ∧ tr.map (·.env) = es ∧ p tr a st' = true := by
  cases hr : s.run exec st es with
  | none => simp [hr] at h
  | some r => exact ⟨r.1, r.2.1, r.2.2, runs_of_run hr, env_of_run hr, by simpa [hr] using h⟩

theorem exists_runs (s : Script ω ans α) (st : σ) (es : List ε)
    (p : List (Entry σ ε ω) → α → σ → Bool)
    (h : (s.run exec st es).any (fun r => p r.1 r.2.1 r.2.2) = true) :
    ∃ tr a st', Runs exec s st tr a st' ∧ p tr a st' = true := by
  obtain ⟨tr, a, st', hrun, -, hp⟩ := exists_runs_env exec s st es p h
  exact ⟨tr, a, st', hrun, hp⟩

/-- A script runs to its end against an environment that answers by the call. -/
theorem exists_runs_answered (answer : ω → ε) (s : Script ω ans α) (st : σ) :
    ∃ tr a st', Runs exec s st tr a st' ∧ ∀ e ∈ tr, e.env = answer e.op := by
  induction s generalizing st with
  | done a => exact ⟨[], a, st, .nil _ _, by simp⟩
  | call o k ih =>
    obtain ⟨tr, a, st', hrun, henv⟩ := ih _ (exec st (answer o) o).1
    exact ⟨_, a, st', .cons (answer o) hrun, List.forall_mem_cons.2 ⟨rfl, henv⟩⟩

end Runs

end Script
