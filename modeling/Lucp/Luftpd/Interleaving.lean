import Lucp.General.System
import Lucp.Luftpd.Containment
import Mathlib.Logic.Function.Basic

/-!
# Two calls of `luftpd_resolve_path` at once

The client's path is split with `strtok`, which remembers where to go on in one variable of the
whole process.  Two client threads that resolve a path at the same time take their tokens from one
another: each call of `strtok(NULL, "/")` goes on behind the last token that anyone has taken.

`resolveSystem` runs two calls, `strtok` by `strtok`.  The tokens are pointers into the buffer of
the call they were taken from; what is behind them when that call has returned is anything.

## What is here

* `luftpdResolvePath_eq` — the parts of the function before, between and behind the calls of
  `strtok`.
* `OwnTokens` — each call has found the components of its own path, as far as it has come.
* `OwnStep` — a step gives the thread what it would get alone.
* `ownStep_of_takesTurns` — calls that take turns keep apart.
* `Resolvers.steps_le`, `Resolvers.step_isSome` — every call gets to its end.
* `own_tokens_iff` — **the calls keep apart exactly as long as all steps are such steps**, and then
  they return what they return alone; `mixed_path` is a run with another step in it.
-/

set_option autoImplicit false

namespace Lucp.Luftpd

/-! ## One call -/

/-- The arguments of a call. -/
structure ResolveCall where
  ftpRoot : Bytes
  currentPath : Bytes
  userControlPath : Bytes
  outputSz : ℕ

namespace ResolveCall

variable (fs : FileSystem) (c : ResolveCall)

/-- What happens before the first `strtok`: the root, and the path to start from. -/
def enter : Except Errno (Bytes × Bytes) :=
  if c.outputSz = 0 then .error .einval
  else do
    let (realFtpRoot, realCurrentPath) ← checkPaths fs c.ftpRoot c.currentPath
    let base ← basePath realFtpRoot realCurrentPath c.userControlPath
    if pathMax * 2 ≤ c.userControlPath.length then .error .enametoolong
    else .ok (realFtpRoot, base)

/-- What happens behind the last one. -/
def leave (realFtpRoot base : Bytes) (components : List Bytes) : Except Errno Bytes := do
  let resultPath ← walk realFtpRoot base components
  finish fs realFtpRoot resultPath c.outputSz

/-- The result of the call when it runs alone. -/
def alone : Except Errno Bytes :=
  luftpdResolvePath fs c.ftpRoot c.currentPath c.userControlPath c.outputSz

end ResolveCall

/-- **The function, cut at the loop.** -/
theorem luftpdResolvePath_eq (fs : FileSystem) (c : ResolveCall) :
    c.alone fs = (do
      let (realFtpRoot, base) ← c.enter fs
      c.leave fs realFtpRoot base (splitLoop (pathMax - 1) c.userControlPath)) := by
  unfold ResolveCall.alone luftpdResolvePath ResolveCall.enter ResolveCall.leave splitPath
  by_cases hsize : c.outputSz = 0
  · rw [if_pos hsize, if_pos hsize]
    rfl
  rw [if_neg hsize, if_neg hsize]
  cases checkPaths fs c.ftpRoot c.currentPath with
  | error e => rfl
  | ok paths =>
    cases hbase : basePath paths.1 paths.2 c.userControlPath with
    | error e => simp [bind, Except.bind, hbase]
    | ok base =>
      by_cases hlen : pathMax * 2 ≤ c.userControlPath.length
      · simp [bind, Except.bind, hbase, hlen]
      · simp [bind, Except.bind, hbase, hlen]

/-! ## Tokens -/

/-- One call of `strtok`: the token, and where it goes on. -/
def strtokStep (s : Bytes) : Option Bytes × Bytes :=
  match strtok s with
  | none => (none, [])
  | some (token, rest) => (some token, rest)

/-- Where `strtok` goes on after so many calls. -/
def restAfter : ℕ → Bytes → Bytes
  | 0, s => s
  | n + 1, s => restAfter n (strtokStep s).2

/-- The token after so many others. -/
def tokenAt (n : ℕ) (s : Bytes) : Option Bytes := (strtokStep (restAfter n s)).1

theorem restAfter_nil (n : ℕ) : restAfter n [] = [] := by
  induction n with
  | zero => rfl
  | succ n ih => exact ih

theorem tokenAt_nil (n : ℕ) : tokenAt n [] = none := by
  rw [tokenAt, restAfter_nil]
  rfl

theorem restAfter_succ (n : ℕ) (s : Bytes) :
    restAfter (n + 1) s = (strtokStep (restAfter n s)).2 := by
  induction n generalizing s with
  | zero => rfl
  | succ n ih => exact ih (strtokStep s).2

theorem strtokStep_none {s : Bytes} (h : strtok s = none) : strtokStep s = (none, []) := by
  rw [strtokStep, h]

theorem strtokStep_some {s token rest : Bytes} (h : strtok s = some (token, rest)) :
    strtokStep s = (some token, rest) := by
  rw [strtokStep, h]

/-- The loop takes one token after the other. -/
theorem splitLoop_succ (n : ℕ) (s : Bytes) :
    splitLoop (n + 1) s = splitLoop n s ++ (tokenAt n s).toList := by
  cases hs : strtok s with
  | none =>
    have hnone : ∀ n, splitLoop n s = [] ∧ tokenAt n s = none := by
      intro n
      cases n with
      | zero => exact ⟨rfl, by rw [tokenAt, restAfter, strtokStep_none hs]⟩
      | succ n => exact ⟨by rw [splitLoop, hs], by
          rw [tokenAt, restAfter, strtokStep_none hs]
          exact tokenAt_nil n⟩
    rw [(hnone (n + 1)).1, (hnone n).1, (hnone n).2]
    rfl
  | some t =>
    have hfirst : splitLoop (n + 1) s = t.1 :: splitLoop n t.2 := by rw [splitLoop, hs]
    rw [hfirst]
    cases n with
    | zero =>
      rw [tokenAt, restAfter, strtokStep_some hs]
      rfl
    | succ n =>
      have hnext : tokenAt (n + 1) s = tokenAt n t.2 := by
        rw [tokenAt, restAfter, strtokStep_some hs, tokenAt]
      have hsecond : splitLoop (n + 1) s = t.1 :: splitLoop n t.2 := by rw [splitLoop, hs]
      rw [hsecond, hnext, splitLoop_succ n t.2]
      rfl

/-- Behind the last token there is none. -/
theorem tokenAt_succ_eq_none {n : ℕ} {s : Bytes} (h : tokenAt n s = none) :
    tokenAt (n + 1) s = none := by
  rw [tokenAt] at h
  rw [tokenAt, restAfter_succ]
  cases hs : strtok (restAfter n s) with
  | none =>
    rw [strtokStep_none hs]
    rfl
  | some t =>
    rw [strtokStep_some hs] at h
    cases h

/-- Once there is no token any more, the loop has found all components. -/
theorem splitLoop_eq_of_none {n m : ℕ} {s : Bytes} (h : tokenAt n s = none) (hle : n ≤ m) :
    splitLoop m s = splitLoop n s ∧ tokenAt m s = none := by
  induction hle with
  | refl => exact ⟨rfl, h⟩
  | step _ ih =>
    rw [splitLoop_succ, ih.2]
    exact ⟨by simpa using ih.1, tokenAt_succ_eq_none ih.2⟩

/-! ## Two calls -/

/-- The two client threads. -/
inductive Caller
  | a
  | b
  deriving DecidableEq

/-- A pointer to a token: the call whose buffer it points into, and what is there. -/
structure Token where
  owner : Caller
  text : Bytes

/-- Where a call stands. -/
inductive ResolvePc
  | entering
  /-- In the loop, after a call of `strtok`: `components` and `token`. -/
  | looping (realFtpRoot base : Bytes) (components : List Token) (token : Option Token)
  /-- It has returned, having read these components. -/
  | returned (components : List Bytes) (result : Except Errno Bytes)

/-- The call has returned, and its buffer is no more. -/
def ResolvePc.gone : ResolvePc → Bool
  | .returned _ _ => true
  | _ => false

/-- What it has returned. -/
def ResolvePc.result : ResolvePc → Option (Except Errno Bytes)
  | .returned _ result => some result
  | _ => none

/-- The state of the two calls: where they stand, and where `strtok` goes on: in whose buffer, and
with what. -/
structure Resolvers where
  pc : Caller → ResolvePc
  saved : Caller × Bytes

/-- The next step is that of `caller`; `junk` is what it finds where a buffer has been. -/
structure ResolveEvent where
  caller : Caller
  junk : ℕ → Bytes

namespace Resolvers

variable (s : Resolvers) (junk : ℕ → Bytes)

/-- What `strtok(NULL, "/")` goes on with. -/
def rest : Bytes := if (s.pc s.saved.1).gone then junk 0 else s.saved.2

/-- The components when they are read. -/
def read (components : List Token) : List Bytes :=
  components.mapIdx fun i t => if (s.pc t.owner).gone then junk i else t.text

/-- The state after a step of `x`. -/
def set (x : Caller) (pc : ResolvePc) : Resolvers := { s with pc := Function.update s.pc x pc }

variable (fs : FileSystem) (calls : Caller → ResolveCall)

/-- The end of the call of `x`. -/
def leave (x : Caller) (realFtpRoot base : Bytes) (components : List Token) : Resolvers :=
  s.set x (.returned (s.read junk components)
    ((calls x).leave fs realFtpRoot base (s.read junk components)))

/-- The next step of a call: up to the next call of `strtok`, or to its end. -/
def step (e : ResolveEvent) : Option Resolvers :=
  match s.pc e.caller with
  | .entering =>
    match (calls e.caller).enter fs with
    | .error err => some (s.set e.caller (.returned [] (.error err)))
    | .ok (realFtpRoot, base) =>
      let (token, rest) := strtokStep (calls e.caller).userControlPath
      some { s.set e.caller (.looping realFtpRoot base [] (token.map (⟨e.caller, ·⟩))) with
        saved := (e.caller, rest) }
  | .looping realFtpRoot base components none =>
    some (s.leave e.junk fs calls e.caller realFtpRoot base components)
  | .looping realFtpRoot base components (some token) =>
    if components.length < pathMax - 1 then
      let (next, rest) := strtokStep (s.rest e.junk)
      some { s.set e.caller (.looping realFtpRoot base (components ++ [token])
          (next.map (⟨s.saved.1, ·⟩))) with
        saved := (s.saved.1, rest) }
    else some (s.leave e.junk fs calls e.caller realFtpRoot base components)
  | .returned _ _ => none

/-- Neither call has begun; `strtok` may have been used before. -/
def start (saved : Caller × Bytes) : Resolvers := ⟨fun _ => .entering, saved⟩

end Resolvers

/-- The runs of two calls. -/
def resolveSystem (fs : FileSystem) (calls : Caller → ResolveCall) :
    System Resolvers ResolveEvent where
  init s := ∃ saved, s = .start saved
  step s e s' := s.step fs calls e = some s'

/-! ## What belongs to whom -/

section Own

variable (fs : FileSystem) (calls : Caller → ResolveCall)

/-- The components a call finds when it runs alone. -/
def ResolveCall.components (c : ResolveCall) : List Bytes :=
  match c.enter fs with
  | .error _ => []
  | .ok _ => splitLoop (pathMax - 1) c.userControlPath

/-- What a call has found is what it would have found alone. -/
def OwnSoFar (c : ResolveCall) : ResolvePc → Prop
  | .entering => True
  | .looping _ _ components token =>
    components.map Token.text = splitLoop components.length c.userControlPath ∧
      token.map Token.text = tokenAt components.length c.userControlPath
  | .returned components _ => components = c.components fs

/-- Both calls have found the components of their own paths, as far as they have come. -/
def OwnTokens (s : Resolvers) : Prop := ∀ x, OwnSoFar fs (calls x) (s.pc x)

/-- A call of `strtok(NULL, "/")` finds the token that comes next in the thread's own path, and a
component that is read is what it was when it was found. -/
def OwnStep (s : Resolvers) (e : ResolveEvent) : Prop :=
  match s.pc e.caller with
  | .entering => True
  | .looping _ _ components none => s.read e.junk components = components.map Token.text
  | .looping _ _ components (some _) =>
    if components.length < pathMax - 1 then
      (strtokStep (s.rest e.junk)).1 =
        tokenAt (components.length + 1) (calls e.caller).userControlPath
    else s.read e.junk components = components.map Token.text
  | .returned _ _ => True

/-- What is true of a call whatever it finds. -/
def Consistent (c : ResolveCall) : ResolvePc → Prop
  | .entering => True
  | .looping realFtpRoot base components _ =>
    c.enter fs = .ok (realFtpRoot, base) ∧ components.length ≤ pathMax - 1
  | .returned components result =>
    result = do
      let (realFtpRoot, base) ← c.enter fs
      c.leave fs realFtpRoot base components

end Own

variable {fs : FileSystem} {calls : Caller → ResolveCall} {s s' : Resolvers} {e : ResolveEvent}

/-- **What a step can do**: the call fails before its first `strtok`, or calls `strtok` for the
first time, or calls it again, or comes to its end. -/
theorem Resolvers.step_cases (h : s.step fs calls e = some s') :
    (∃ err, s.pc e.caller = .entering ∧ (calls e.caller).enter fs = .error err ∧
        s' = s.set e.caller (.returned [] (.error err)))
      ∨ (∃ realFtpRoot base, s.pc e.caller = .entering ∧
        (calls e.caller).enter fs = .ok (realFtpRoot, base) ∧
        s' = { s.set e.caller (.looping realFtpRoot base []
            ((tokenAt 0 (calls e.caller).userControlPath).map (⟨e.caller, ·⟩))) with
          saved := (e.caller, restAfter 1 (calls e.caller).userControlPath) })
      ∨ (∃ realFtpRoot base components token,
        s.pc e.caller = .looping realFtpRoot base components (some token) ∧
        components.length < pathMax - 1 ∧
        s' = { s.set e.caller (.looping realFtpRoot base (components ++ [token])
            ((strtokStep (s.rest e.junk)).1.map (⟨s.saved.1, ·⟩))) with
          saved := (s.saved.1, (strtokStep (s.rest e.junk)).2) })
      ∨ (∃ realFtpRoot base components token,
        s.pc e.caller = .looping realFtpRoot base components token ∧
        (token = none ∨ ¬ components.length < pathMax - 1) ∧
        s' = s.leave e.junk fs calls e.caller realFtpRoot base components) := by
  unfold Resolvers.step at h
  cases hpc : s.pc e.caller with
  | entering =>
    rw [hpc] at h
    cases henter : (calls e.caller).enter fs with
    | error err =>
      simp only [henter, Option.some.injEq] at h
      exact .inl ⟨err, rfl, rfl, h.symm⟩
    | ok paths =>
      simp only [henter, Option.some.injEq] at h
      exact .inr (.inl ⟨paths.1, paths.2, rfl, rfl, h.symm⟩)
  | looping realFtpRoot base components token =>
    rw [hpc] at h
    cases token with
    | none =>
      exact .inr (.inr (.inr ⟨realFtpRoot, base, components, none, rfl, .inl rfl,
        (Option.some.inj h).symm⟩))
    | some token =>
      by_cases hroom : components.length < pathMax - 1
      · simp only [if_pos hroom, Option.some.injEq] at h
        exact .inr (.inr (.inl ⟨realFtpRoot, base, components, token, rfl, hroom, h.symm⟩))
      · simp only [if_neg hroom, Option.some.injEq] at h
        exact .inr (.inr (.inr
          ⟨realFtpRoot, base, components, some token, rfl, .inr hroom, h.symm⟩))
  | returned components result =>
    rw [hpc] at h
    cases h

/-- Only one call moves in a step: what holds of the other is left alone. -/
theorem Resolvers.forall_set {P : Caller → ResolvePc → Prop} {x : Caller} {pc : ResolvePc}
    (hother : ∀ y, y ≠ x → P y (s.pc y)) (hx : P x pc) : ∀ y, P y ((s.set x pc).pc y) := by
  intro y
  by_cases hy : y = x
  · subst hy
    simpa [Resolvers.set] using hx
  · simpa [Resolvers.set, hy] using hother y hy

theorem ownTokens_of_set (h : OwnTokens fs calls s) (x : Caller) {pc : ResolvePc}
    (hs : s'.pc = (s.set x pc).pc) : OwnTokens fs calls s' ↔ OwnSoFar fs (calls x) pc := by
  rw [OwnTokens, hs]
  constructor
  · intro hown
    simpa [Resolvers.set] using hown x
  · exact fun hown =>
      Resolvers.forall_set (P := fun y => OwnSoFar fs (calls y)) (fun y _ => h y) hown

/-- At the end of the loop all components have been found. -/
theorem splitLoop_of_end {c : ResolveCall} {components : List Token} {token : Option Token}
    (hown : components.map Token.text = splitLoop components.length c.userControlPath)
    (htoken : token.map Token.text = tokenAt components.length c.userControlPath)
    (hle : components.length ≤ pathMax - 1)
    (hend : token = none ∨ ¬ components.length < pathMax - 1) :
    splitLoop (pathMax - 1) c.userControlPath = components.map Token.text := by
  obtain rfl | hfull := hend
  · rw [hown]
    exact (splitLoop_eq_of_none htoken.symm hle).1
  · rw [hown, show components.length = pathMax - 1 by omega]

/-- The invariant that does not depend on the other call. -/
def AllConsistent (fs : FileSystem) (calls : Caller → ResolveCall) (s : Resolvers) : Prop :=
  ∀ x, Consistent fs (calls x) (s.pc x)

theorem AllConsistent.set (h : AllConsistent fs calls s) (x : Caller) {pc : ResolvePc}
    (hpc : Consistent fs (calls x) pc) : ∀ y, Consistent fs (calls y) ((s.set x pc).pc y) :=
  Resolvers.forall_set (P := fun y => Consistent fs (calls y)) (fun y _ => h y) hpc

theorem AllConsistent.step (h : AllConsistent fs calls s) (hs : s.step fs calls e = some s') :
    AllConsistent fs calls s' := by
  have hcons := h e.caller
  obtain ⟨err, -, henter, rfl⟩ | ⟨r, base, -, henter, rfl⟩ |
    ⟨r, base, comps, token, hpc, hroom, rfl⟩ | ⟨r, base, comps, token, hpc, -, rfl⟩ :=
    Resolvers.step_cases hs
  · refine h.set e.caller ?_
    rw [Consistent, henter]
    rfl
  · exact h.set e.caller ⟨henter, Nat.zero_le _⟩
  · rw [hpc] at hcons
    refine h.set e.caller ⟨hcons.1, ?_⟩
    rw [List.length_append, List.length_singleton]
    omega
  · rw [hpc] at hcons
    refine h.set e.caller ?_
    rw [Consistent, hcons.1]
    rfl

/-- **A step keeps the calls apart exactly if it gives the thread what it would get alone.** -/
theorem OwnTokens.step_iff (h : OwnTokens fs calls s) (hcons : AllConsistent fs calls s)
    (hs : s.step fs calls e = some s') : OwnTokens fs calls s' ↔ OwnStep calls s e := by
  obtain ⟨err, hpc, henter, rfl⟩ | ⟨r, base, hpc, henter, rfl⟩ |
    ⟨r, base, comps, token, hpc, hroom, rfl⟩ | ⟨r, base, comps, token, hpc, hend, rfl⟩ :=
    Resolvers.step_cases hs
  · have hstep : OwnStep calls s e := by simp [OwnStep, hpc]
    refine (ownTokens_of_set h e.caller rfl).trans (iff_of_true ?_ hstep)
    rw [OwnSoFar, ResolveCall.components, henter]
  · have hstep : OwnStep calls s e := by simp [OwnStep, hpc]
    refine (ownTokens_of_set h e.caller rfl).trans (iff_of_true ⟨rfl, ?_⟩ hstep)
    cases tokenAt 0 (calls e.caller).userControlPath <;> rfl
  · have hown := h e.caller
    rw [hpc] at hown
    refine (ownTokens_of_set h e.caller rfl).trans ?_
    have htoken : tokenAt comps.length (calls e.caller).userControlPath = some token.text :=
      hown.2.symm
    have hcomps : (comps ++ [token]).map Token.text
        = splitLoop (comps ++ [token]).length (calls e.caller).userControlPath := by
      rw [List.map_append, hown.1, List.length_append, List.length_singleton, splitLoop_succ,
        htoken]
      rfl
    have hnext :
        ((strtokStep (s.rest e.junk)).1.map fun t => (⟨s.saved.1, t⟩ : Token)).map Token.text
          = (strtokStep (s.rest e.junk)).1 := by
      cases (strtokStep (s.rest e.junk)).1 <;> rfl
    rw [OwnSoFar, hnext, and_iff_right hcomps, OwnStep, hpc]
    simp only [if_pos hroom, List.length_append, List.length_singleton]
  · have hown := h e.caller
    have hc := hcons e.caller
    rw [hpc] at hown hc
    have hall := splitLoop_of_end hown.1 hown.2 hc.2 hend
    refine (ownTokens_of_set h e.caller rfl).trans ?_
    rw [OwnSoFar, ResolveCall.components, hc.1]
    dsimp only
    rw [hall, OwnStep, hpc]
    cases token with
    | none => rfl
    | some token => simp only [if_neg (hend.resolve_left (by simp))]

/-! ## The end of a call -/

/-- How many steps a call has left at most. -/
def ResolvePc.left : ResolvePc → ℕ
  | .entering => pathMax + 1
  | .looping _ _ components _ => pathMax - components.length
  | .returned _ _ => 0

/-- A call that has not returned can go on. -/
theorem Resolvers.step_isSome {x : Caller} (h : (s.pc x).gone = false) (junk : ℕ → Bytes) :
    ∃ s', s.step fs calls ⟨x, junk⟩ = some s' := by
  rw [Resolvers.step]
  dsimp only
  cases hpc : s.pc x with
  | entering =>
    cases (calls x).enter fs with
    | error err => exact ⟨_, rfl⟩
    | ok paths => exact ⟨_, rfl⟩
  | looping realFtpRoot base components token =>
    cases token with
    | none => exact ⟨_, rfl⟩
    | some token =>
      by_cases hroom : components.length < pathMax - 1
      · exact ⟨_, if_pos hroom⟩
      · exact ⟨_, if_neg hroom⟩
  | returned components result =>
    rw [hpc] at h
    cases h

/-- A step is one step less for its call, and leaves the other alone. -/
theorem Resolvers.step_left (hcons : AllConsistent fs calls s) (h : s.step fs calls e = some s') :
    (s'.pc e.caller).left + 1 ≤ (s.pc e.caller).left ∧ ∀ x, x ≠ e.caller → s'.pc x = s.pc x := by
  have hset : ∀ {pc : ResolvePc}, s'.pc = (s.set e.caller pc).pc →
      pc.left + 1 ≤ (s.pc e.caller).left →
      (s'.pc e.caller).left + 1 ≤ (s.pc e.caller).left ∧ ∀ x, x ≠ e.caller → s'.pc x = s.pc x := by
    intro pc hpc hle
    rw [hpc]
    exact ⟨by simpa [Resolvers.set] using hle, fun x hx => by simp [Resolvers.set, hx]⟩
  obtain ⟨err, hpc, -, rfl⟩ | ⟨r, base, hpc, -, rfl⟩ |
    ⟨r, base, comps, token, hpc, hroom, rfl⟩ | ⟨r, base, comps, token, hpc, -, rfl⟩ :=
    Resolvers.step_cases h
  · refine hset rfl ?_
    rw [hpc]
    exact Nat.le_add_left 1 pathMax
  · refine hset rfl ?_
    rw [hpc]
    exact Nat.le_refl _
  · refine hset rfl ?_
    rw [hpc, ResolvePc.left, ResolvePc.left, List.length_append, List.length_singleton]
    omega
  · have hc := hcons e.caller
    rw [hpc] at hc
    have hle : comps.length ≤ pathMax - 1 := hc.2
    refine hset rfl ?_
    rw [hpc, ResolvePc.left, ResolvePc.left]
    unfold pathMax at *
    omega

/-! ## Calls one after the other -/

/-- The call is in its loop. -/
def ResolvePc.inLoop : ResolvePc → Bool
  | .looping _ _ _ _ => true
  | _ => false

/-- A call begins only while no other is in its loop. -/
def TakesTurns (s : Resolvers) (e : ResolveEvent) : Prop :=
  s.pc e.caller = .entering → ∀ x, (s.pc x).inLoop = false

/-- If the call is in its loop, `strtok` goes on in its path, and all its tokens are from there. -/
def HasStrtok (calls : Caller → ResolveCall) (saved : Caller × Bytes) (x : Caller)
    (pc : ResolvePc) : Prop :=
  ∀ realFtpRoot base components token, pc = .looping realFtpRoot base components token →
    saved = (x, restAfter (components.length + 1) (calls x).userControlPath) ∧
      (∀ t ∈ components, t.owner = x) ∧ ∀ t ∈ token, t.owner = x

/-- The call in its loop has `strtok` to itself. -/
def Alone (calls : Caller → ResolveCall) (s : Resolvers) : Prop :=
  ∀ x, HasStrtok calls s.saved x (s.pc x)

/-- What a call in its loop goes on with. -/
theorem Alone.rest {x : Caller} {realFtpRoot base : Bytes} {components : List Token}
    {token : Option Token} (h : Alone calls s)
    (hpc : s.pc x = .looping realFtpRoot base components token) (junk : ℕ → Bytes) :
    s.rest junk = restAfter (components.length + 1) (calls x).userControlPath := by
  have hsaved := (h x _ _ _ _ hpc).1
  rw [Resolvers.rest, hsaved, hpc]
  rfl

/-- What it reads at its end. -/
theorem Alone.read {x : Caller} {realFtpRoot base : Bytes} {components : List Token}
    {token : Option Token} (h : Alone calls s)
    (hpc : s.pc x = .looping realFtpRoot base components token) (junk : ℕ → Bytes) :
    s.read junk components = components.map Token.text := by
  refine List.ext_getElem (by simp [Resolvers.read]) fun i hi hj => ?_
  have hlt : i < components.length := by simpa [Resolvers.read] using hi
  have howner : components[i].owner = x := (h x _ _ _ _ hpc).2.1 _ (List.getElem_mem hlt)
  simp [Resolvers.read, howner, hpc, ResolvePc.gone]

theorem HasStrtok.of_not_inLoop {saved : Caller × Bytes} {x : Caller} {pc : ResolvePc}
    (h : pc.inLoop = false) : HasStrtok calls saved x pc := by
  rintro _ _ _ _ rfl
  cases h

/-- No other call is in its loop. -/
theorem Alone.not_inLoop {x y : Caller} {realFtpRoot base : Bytes} {components : List Token}
    {token : Option Token} (h : Alone calls s)
    (hpc : s.pc x = .looping realFtpRoot base components token) (hy : y ≠ x) :
    (s.pc y).inLoop = false := by
  have hsaved := (h x _ _ _ _ hpc).1
  cases hpcy : s.pc y with
  | looping realFtpRoot' base' components' token' =>
    have hother := (h y _ _ _ _ hpcy).1
    rw [hsaved] at hother
    exact absurd (Prod.mk.inj hother).1.symm hy
  | entering => rfl
  | returned components' result => rfl

theorem Alone.step (h : Alone calls s) (hturn : TakesTurns s e) (hs : s.step fs calls e = some s') :
    Alone calls s' := by
  obtain ⟨err, hpc, -, rfl⟩ | ⟨r, base, hpc, -, rfl⟩ |
    ⟨r, base, comps, token, hpc, hroom, rfl⟩ | ⟨r, base, comps, token, hpc, -, rfl⟩ :=
    Resolvers.step_cases hs
  · exact Resolvers.forall_set (P := HasStrtok calls s.saved) (fun y _ => h y) (.of_not_inLoop rfl)
  · refine Resolvers.forall_set (P := HasStrtok calls _)
      (fun y _ => .of_not_inLoop (hturn hpc y)) ?_
    rintro _ _ _ _ ⟨⟩
    refine ⟨rfl, fun t ht => absurd ht List.not_mem_nil, fun t ht => ?_⟩
    obtain ⟨text, -, rfl⟩ := Option.map_eq_some_iff.1 ht
    rfl
  · obtain ⟨hsaved, howner, htoken⟩ := h _ _ _ _ _ hpc
    have hrest := h.rest hpc e.junk
    refine Resolvers.forall_set (P := HasStrtok calls _)
      (fun y hy => .of_not_inLoop (h.not_inLoop hpc hy)) ?_
    rintro _ _ _ _ ⟨⟩
    refine ⟨?_, fun t ht => ?_, fun t ht => ?_⟩
    · rw [hrest, hsaved, List.length_append, List.length_singleton, ← restAfter_succ]
    · obtain ht | ht := List.mem_append.1 ht
      · exact howner t ht
      · rw [List.mem_singleton.1 ht]
        exact htoken token rfl
    · obtain ⟨text, -, rfl⟩ := Option.map_eq_some_iff.1 ht
      rw [hsaved]
  · exact Resolvers.forall_set (P := HasStrtok calls s.saved) (fun y _ => h y) (.of_not_inLoop rfl)

/-- Such steps give the thread what it would get alone. -/
theorem Alone.ownStep (h : Alone calls s) : OwnStep calls s e := by
  rw [OwnStep]
  cases hpc : s.pc e.caller with
  | entering => trivial
  | looping realFtpRoot base components token =>
    cases token with
    | none => exact h.read hpc e.junk
    | some token =>
      dsimp only
      split_ifs
      · rw [h.rest hpc, tokenAt]
      · exact h.read hpc e.junk
  | returned components result => trivial

/-- **Calls that take turns keep apart**, and so does a call that is the only one. -/
theorem ownStep_of_takesTurns {saved : Caller × Bytes} {es : List ResolveEvent}
    (h : ((resolveSystem fs calls).restrict TakesTurns).Run (.start saved) es s) :
    ((resolveSystem fs calls).restrict (OwnStep calls)).Run (.start saved) es s := by
  have hstart : Alone calls (.start saved) := fun _ => .of_not_inLoop rfl
  exact h.restrict_mono TakesTurns (OwnStep calls) (Alone calls) hstart
    fun _ _ _ halone hturn hs => ⟨halone.step hturn hs, halone.ownStep⟩

/-! ## All runs -/

/-- A call that has read the components of its own path returns what it returns alone. -/
theorem Consistent.result_eq {c : ResolveCall} {pc : ResolvePc} {result : Except Errno Bytes}
    (hcons : Consistent fs c pc) (hown : OwnSoFar fs c pc) (h : pc.result = some result) :
    result = c.alone fs := by
  cases pc with
  | entering => cases h
  | looping realFtpRoot base components token => cases h
  | returned components result' =>
    obtain rfl : result' = result := Option.some.inj h
    have hcomps : components = c.components fs := hown
    rw [show result' = _ from hcons, luftpdResolvePath_eq, hcomps, ResolveCall.components]
    cases c.enter fs <;> rfl

theorem AllConsistent.start (saved : Caller × Bytes) : AllConsistent fs calls (.start saved) :=
  fun _ => trivial

theorem OwnTokens.start (saved : Caller × Bytes) : OwnTokens fs calls (.start saved) :=
  fun _ => trivial

/-- A call takes so many steps and no more. -/
theorem Resolvers.steps_le {saved : Caller × Bytes} {es : List ResolveEvent}
    (h : (resolveSystem fs calls).Run (.start saved) es s) (x : Caller) :
    es.countP (·.caller = x) + (s.pc x).left ≤ pathMax + 1 := by
  refine (h.invariant_of (fun _ _ => True)
    (fun es s => AllConsistent fs calls s ∧ es.countP (·.caller = x) + (s.pc x).left ≤ pathMax + 1)
    ⟨.start saved, Nat.le_of_eq (Nat.zero_add _)⟩ ?_ fun _ _ _ _ _ _ => trivial).2
  intro fs t e t' _ hinv _ hs
  obtain ⟨hcons, hle⟩ := hinv
  obtain ⟨hless, hother⟩ := Resolvers.step_left hcons hs
  refine ⟨hcons.step hs, ?_⟩
  rw [List.countP_append]
  by_cases hx : e.caller = x
  · subst hx
    rw [List.countP_singleton, if_pos (by simp)]
    omega
  · rw [List.countP_singleton, if_neg (by simpa using hx), hother x (Ne.symm hx)]
    exact hle

/-- **Two calls of `luftpd_resolve_path` keep apart exactly as long as every step gives the thread
what it would get alone**: then each has the components of its own path all the time, and returns
what it returns alone.  Both get to their ends in any case. -/
theorem own_tokens_iff (fs : FileSystem) (calls : Caller → ResolveCall) (saved : Caller × Bytes)
    (es : List ResolveEvent) (s : Resolvers) :
    (((resolveSystem fs calls).within (OwnTokens fs calls)).Run (.start saved) es s ↔
        ((resolveSystem fs calls).restrict (OwnStep calls)).Run (.start saved) es s) ∧
      (((resolveSystem fs calls).restrict (OwnStep calls)).Run (.start saved) es s →
        ∀ x result, (s.pc x).result = some result → result = (calls x).alone fs) ∧
      ((resolveSystem fs calls).Run (.start saved) es s →
        ∀ x, es.countP (·.caller = x) ≤ pathMax + 1 ∧
          ((s.pc x).gone = false → ∀ junk, ∃ s', s.step fs calls ⟨x, junk⟩ = some s')) := by
  have hiff : ((resolveSystem fs calls).within (OwnTokens fs calls)).Run (.start saved) es s ↔
      ((resolveSystem fs calls).restrict (OwnStep calls)).Run (.start saved) es s :=
    System.Run.within_iff (OwnStep calls) (AllConsistent fs calls) (OwnTokens fs calls)
      (.start saved) (.start saved)
      fun _ _ _ hcons hown hs => ⟨hcons.step hs, hown.step_iff hcons hs⟩
  refine ⟨hiff, fun hrun x result hresult => ?_, fun hrun x => ⟨?_, Resolvers.step_isSome⟩⟩
  · have hcons : AllConsistent fs calls s :=
      hrun.invariant (AllConsistent fs calls) (.start saved) fun _ _ _ hinv hs => hinv.step hs.2
    have hown : OwnTokens fs calls s := (hiff.2 hrun).within_last (.start saved)
    exact (hcons x).result_eq (hown x) hresult
  · exact Nat.le_trans (Nat.le_add_right _ _) (Resolvers.steps_le hrun x)

/-- Two clients in the directory `/srv`, one going to `a/b` and the other to `c/d`. -/
def twoCalls : Caller → ResolveCall
  | .a => ⟨textBytes "/srv", textBytes "/srv", textBytes "a/b", pathMax⟩
  | .b => ⟨textBytes "/srv", textBytes "/srv", textBytes "c/d", pathMax⟩

/-- A file system with this directory. -/
def srvFileSystem : FileSystem := .ofTable [(textBytes "/srv", ⟨[textBytes "srv"], by decide⟩)]

/-- **A path of both**: the other call begins between the first two tokens of this one, which gets
`a/d`; the other gets `c`. -/
theorem mixed_path : srvFileSystem.Lawful ∧ ∃ saved es s,
    (resolveSystem srvFileSystem twoCalls).Run (.start saved) es s ∧
      (s.pc .a).result = some (.ok (textBytes "/srv/a/d")) ∧
      (s.pc .b).result = some (.ok (textBytes "/srv/c")) ∧
      (twoCalls .a).alone srvFileSystem = .ok (textBytes "/srv/a/b") ∧
      (twoCalls .b).alone srvFileSystem = .ok (textBytes "/srv/c/d") := by
  obtain ⟨s, hrun, hs⟩ := System.Run.of_exec (S := resolveSystem srvFileSystem twoCalls)
    (fun s e => s.step srvFileSystem twoCalls e) (fun _ _ _ h => h)
    (fun s => decide ((s.pc .a).result = some (.ok (textBytes "/srv/a/d")) ∧
      (s.pc .b).result = some (.ok (textBytes "/srv/c"))))
    (.start (.a, [])) ([.a, .b, .a, .a, .a, .b, .b].map (⟨·, fun _ => []⟩)) (by decide +kernel)
  obtain ⟨ha, hb⟩ := of_decide_eq_true hs
  exact ⟨.of_table (by decide) (by decide), _, _, s, hrun, ha, hb, by decide +kernel,
    by decide +kernel⟩

end Lucp.Luftpd
