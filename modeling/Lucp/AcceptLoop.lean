import Lucp.General.System
import Mathlib.Algebra.Group.Int.Defs
import Mathlib.Data.List.Basic

/-!
# Admission of clients: the accept loop of `lucpd`

The main thread of `lucpd` accepts connections, turns a connection away when `client_count` has
reached `network.max_clients`, and otherwise creates a session thread and *then* increments the
counter; a session thread decrements it as its last action.  So the counter does not always say how
many threads there are, and it can even be negative.  The result of `pthread_create` is not looked
at: a thread that could not be created is counted like any other.

## What is here

* `Lucpd`, `Lucpd.step`, `lucpdSystem` — the main thread, step by step, and any number of session
  threads, in every interleaving; `Lucpd.failed` is what the code does not see.
* `Lucpd.Accounted` — **the invariant**: the counter and the increment that is due make up the live
  threads and the failed creations.  From it, that the 32-bit counter never overflows.
* `sessions_bounded` — never more than `max_clients` live session threads.
* `refused_when_full_iff` — a slot is taken by a live thread and by nothing else exactly in the runs
  in which no creation fails.
-/

set_option autoImplicit false

namespace Lucp

/-! ## The main thread and the session threads -/

/-- Where the main thread stands. -/
inductive MainPc
  /-- At the head of its loop. -/
  | top
  /-- In `accept()`. -/
  | accepting
  /-- With a connection, before the test of `client_count`. -/
  | testing
  /-- Behind the test, before `pthread_create()`. -/
  | creating
  /-- Before the increment of `client_count`. -/
  | counting
  /-- Behind the loop. -/
  | left
  deriving DecidableEq

/-- Where a session thread stands. -/
inductive SessionPc
  /-- In its loop. -/
  | running
  /-- The connection is closed and the session freed; the decrement is still to come. -/
  | closed
  | finished
  deriving DecidableEq

/-- Has the thread not executed its decrement yet? -/
def SessionPc.live : SessionPc → Bool
  | .finished => false
  | _ => true

/-- The process. -/
structure Lucpd where
  main : MainPc
  /-- `client_count`. -/
  clientCount : Int32
  /-- The session threads that were created, oldest first. -/
  threads : List SessionPc
  /-- How many calls of `pthread_create()` have failed. -/
  failed : ℕ
  deriving DecidableEq

/-- What `accept()` answers. -/
inductive AcceptResult
  | connection
  | eintr
  | error
  deriving DecidableEq

/-- Who takes a step, and what the environment answers. -/
inductive LucpdEvent
  /-- The loop test of the main thread. -/
  | loop (serverRunning : Bool)
  | accept (r : AcceptResult)
  /-- The test of `client_count`. -/
  | test
  | create (ok : Bool)
  | increment
  /-- Session thread `i` leaves its loop and closes its connection. -/
  | close (i : ℕ)
  | decrement (i : ℕ)
  deriving DecidableEq

namespace Lucpd

/-- Before the first turn of the loop. -/
def start : Lucpd := ⟨.top, 0, [], 0⟩

/-- `atomic_load(&client_count) >= max_clients`. -/
def full (maxClients : Int32) (s : Lucpd) : Bool := maxClients ≤ s.clientCount

/-- One step; `none` where the thread in question does not do that. -/
def step (maxClients : Int32) (s : Lucpd) : LucpdEvent → Option Lucpd
  | .loop serverRunning =>
    if s.main = .top then some { s with main := if serverRunning then .accepting else .left }
    else none
  | .accept r =>
    if s.main = .accepting then
      match r with
      | .connection => some { s with main := .testing }
      | .eintr => some { s with main := .top }
      | .error => some { s with main := .left }
    else none
  | .test =>
    if s.main = .testing then
      if s.full maxClients then some { s with main := .top } else some { s with main := .creating }
    else none
  | .create ok =>
    if s.main = .creating then
      if ok then some { s with main := .counting, threads := s.threads ++ [.running] }
      else some { s with main := .counting, failed := s.failed + 1 }
    else none
  | .increment =>
    if s.main = .counting then some { s with main := .top, clientCount := s.clientCount + 1 }
    else none
  | .close i =>
    if s.threads[i]? = some .running then some { s with threads := s.threads.set i .closed }
    else none
  | .decrement i =>
    if s.threads[i]? = some .closed then
      some { s with threads := s.threads.set i .finished, clientCount := s.clientCount - 1 }
    else none

/-- The session threads that were created and have not executed their decrement. -/
def live (s : Lucpd) : ℕ := s.threads.countP SessionPc.live

/-- The increment the main thread still owes to the counter. -/
def due (s : Lucpd) : ℕ := if s.main = .counting then 1 else 0

end Lucpd

/-- The runs of the process. -/
def lucpdSystem (maxClients : Int32) : System Lucpd LucpdEvent where
  init s := s = .start
  step s e t := s.step maxClients e = some t

/-! ## The counter -/

theorem toInt_add_one {x : Int32} (h : x.toInt + 1 < 2 ^ 31) : (x + 1).toInt = x.toInt + 1 := by
  have hlow := x.le_toInt
  rw [Int32.toInt_add]
  exact Int.bmod_eq_of_le (by simp; omega) (by simp; omega)

theorem toInt_sub_one {x : Int32} (h : -2 ^ 31 < x.toInt) : (x - 1).toInt = x.toInt - 1 := by
  have hhigh := x.toInt_lt
  rw [Int32.toInt_sub]
  exact Int.bmod_eq_of_le (by simp; omega) (by simp; omega)

namespace Lucpd

variable {maxClients : Int32}

/-- What the counter counts. -/
structure Accounted (maxClients : Int32) (s : Lucpd) : Prop where
  /-- With the increment that is due, it counts the live threads and the failed creations. -/
  count : s.clientCount.toInt + s.due = s.live + s.failed
  bound : (s.live + s.failed : ℤ) ≤ maxClients.toInt
  /-- Behind the test there is room for one more. -/
  room : s.main = .creating → (s.live + s.failed : ℤ) < maxClients.toInt

theorem accounted_start (h : 1 ≤ maxClients.toInt) : Accounted maxClients start := by
  refine ⟨rfl, ?_, fun h => (by cases h)⟩
  show (0 : ℤ) ≤ _
  omega

theorem full_iff (s : Lucpd) :
    s.full maxClients = true ↔ maxClients.toInt ≤ s.clientCount.toInt := by
  rw [full, decide_eq_true_iff, Int32.le_iff_toInt_le]

/-- The live threads after one of them has moved on. -/
theorem live_set {s : Lucpd} {i : ℕ} {pc : SessionPc} (h : s.threads[i]? = some pc)
    (pc' : SessionPc) :
    (s.threads.set i pc').countP SessionPc.live + (if pc.live then 1 else 0)
      = s.live + (if pc'.live then 1 else 0) := by
  obtain ⟨hi, rfl⟩ := List.getElem?_eq_some_iff.1 h
  have hpos : (if s.threads[i].live = true then 1 else 0) ≤ s.threads.countP SessionPc.live := by
    split
    · next hlive => exact List.countP_pos_iff.2 ⟨_, List.getElem_mem hi, hlive⟩
    · exact Nat.zero_le _
  rw [List.countP_set hi, live]
  omega

/-- What a step does to the counter and to what it counts. -/
inductive Effect (maxClients : Int32) (s : Lucpd) (e : LucpdEvent) (t : Lucpd) : Prop
  | quiet (he : ∀ ok, e ≠ .create ok) (hcount : t.clientCount = s.clientCount)
      (hlive : t.live = s.live) (hfailed : t.failed = s.failed) (hdue : t.due = s.due)
      (hroom : t.main = .creating →
        s.main = .creating ∨ s.due = 0 ∧ s.full maxClients = false)
  | created (ok : Bool) (he : e = .create ok) (hroom : s.main = .creating) (hdue : s.due = 0)
      (hmain : t.main = .counting) (hcount : t.clientCount = s.clientCount)
      (hlive : t.live = s.live + if ok then 1 else 0)
      (hfailed : t.failed = s.failed + if ok then 0 else 1)
  | incremented (he : e = .increment) (hdue : s.due = 1) (hmain : t.main = .top)
      (hcount : t.clientCount = s.clientCount + 1) (hlive : t.live = s.live)
      (hfailed : t.failed = s.failed)
  | decremented (i : ℕ) (he : e = .decrement i) (hmain : t.main = s.main)
      (hcount : t.clientCount = s.clientCount - 1) (hlive : t.live + 1 = s.live)
      (hfailed : t.failed = s.failed)

theorem due_eq_zero {s : Lucpd} (h : s.main ≠ .counting) : s.due = 0 := if_neg h

theorem due_eq_one {s : Lucpd} (h : s.main = .counting) : s.due = 1 := if_pos h

/-- The main thread goes on, and there is nothing to count. -/
theorem Effect.moved {s : Lucpd} {e : LucpdEvent} {pc : MainPc} (he : ∀ ok, e ≠ .create ok)
    (hfrom : s.main ≠ .counting) (hto : pc ≠ .counting)
    (hroom : pc = .creating → s.full maxClients = false) :
    Effect maxClients s e { s with main := pc } := by
  have hdue : s.due = 0 := due_eq_zero hfrom
  refine .quiet he rfl rfl rfl ?_ fun hpc => .inr ⟨hdue, hroom hpc⟩
  rw [hdue]
  exact due_eq_zero hto

/-- Every step has one of the four effects. -/
theorem effect_of_step {s t : Lucpd} {e : LucpdEvent} (hs : s.step maxClients e = some t) :
    Effect maxClients s e t := by
  cases e with
  | loop running =>
    obtain ⟨hmain, heq⟩ := Option.ite_none_right_eq_some.1 hs
    cases heq
    cases running <;> exact .moved (by simp) (by simp [hmain]) (by simp) (by simp)
  | accept r =>
    obtain ⟨hmain, heq⟩ := Option.ite_none_right_eq_some.1 hs
    cases r <;> cases heq <;> exact .moved (by simp) (by simp [hmain]) (by simp) (by simp)
  | test =>
    obtain ⟨hmain, heq⟩ := Option.ite_none_right_eq_some.1 hs
    split at heq
    · cases heq
      exact .moved (by simp) (by simp [hmain]) (by simp) (by simp)
    · next hfull =>
      cases heq
      exact .moved (by simp) (by simp [hmain]) (by simp) fun _ => Bool.not_eq_true _ ▸ hfull
  | create ok =>
    obtain ⟨hmain, heq⟩ := Option.ite_none_right_eq_some.1 hs
    have hdue : s.due = 0 := due_eq_zero (by rw [hmain]; simp)
    cases ok with
    | false =>
      cases heq
      exact .created false rfl hmain hdue rfl rfl rfl rfl
    | true =>
      cases heq
      refine .created true rfl hmain hdue rfl rfl ?_ rfl
      show (s.threads ++ [SessionPc.running]).countP SessionPc.live = _
      rw [List.countP_append, live]
      rfl
  | increment =>
    obtain ⟨hmain, heq⟩ := Option.ite_none_right_eq_some.1 hs
    cases heq
    exact .incremented rfl (due_eq_one hmain) rfl rfl rfl rfl
  | close i =>
    obtain ⟨hi, heq⟩ := Option.ite_none_right_eq_some.1 hs
    cases heq
    refine .quiet (by simp) rfl ?_ rfl rfl .inl
    show (s.threads.set i .closed).countP SessionPc.live = s.live
    simpa [SessionPc.live] using live_set hi .closed
  | decrement i =>
    obtain ⟨hi, heq⟩ := Option.ite_none_right_eq_some.1 hs
    cases heq
    refine .decremented i rfl rfl rfl ?_ rfl
    show (s.threads.set i .finished).countP SessionPc.live + 1 = s.live
    simpa [SessionPc.live] using live_set hi .finished

/-- **Every step keeps the account.** -/
theorem Accounted.step {s t : Lucpd} {e : LucpdEvent} (h : s.Accounted maxClients)
    (hs : s.step maxClients e = some t) : t.Accounted maxClients := by
  have hcount := h.count
  have hbound := h.bound
  have hmax := maxClients.toInt_lt
  cases effect_of_step hs with
  | quiet he hcount' hlive hfailed hdue hroom =>
    refine ⟨by rw [hcount', hlive, hfailed, hdue, hcount], by rwa [hlive, hfailed], fun hmain => ?_⟩
    rw [hlive, hfailed]
    rcases hroom hmain with hmain' | ⟨hdue', hfull⟩
    · exact h.room hmain'
    · -- the test has been passed, and no increment was due when it was
      rw [← Bool.not_eq_true, full_iff] at hfull
      omega
  | created ok he hmain hdue hmain' hcount' hlive hfailed =>
    have hroom := h.room hmain
    have hone : (t.live : ℤ) + t.failed = s.live + s.failed + 1 := by
      rw [hlive, hfailed]
      cases ok <;> simp <;> omega
    refine ⟨?_, by omega, fun hcreating => by rw [hmain'] at hcreating; cases hcreating⟩
    rw [hcount', due_eq_one hmain', hone]
    omega
  | incremented he hdue hmain' hcount' hlive hfailed =>
    have hdue' : t.due = 0 := due_eq_zero (by rw [hmain']; simp)
    refine ⟨?_, by rwa [hlive, hfailed],
      fun hcreating => by rw [hmain'] at hcreating; cases hcreating⟩
    rw [hcount', hdue', hlive, hfailed, toInt_add_one (by omega)]
    omega
  | decremented i he hmain' hcount' hlive hfailed =>
    have hdue : s.due ≤ 1 := by
      rw [due]
      split <;> omega
    have hdue' : t.due = s.due := by rw [due, due, hmain']
    refine ⟨?_, by omega, fun hcreating => ?_⟩
    · rw [hcount', hdue', hfailed, toInt_sub_one (by omega)]
      omega
    · have hroom := h.room (hmain' ▸ hcreating)
      omega

theorem accounted_of_reachable (hmax : 1 ≤ maxClients.toInt) {s : Lucpd}
    (h : (lucpdSystem maxClients).Reachable s) : s.Accounted maxClients := by
  refine h.invariant (Accounted maxClients) ?_ fun t e t' ht hs => ht.step hs
  rintro s rfl
  exact accounted_start hmax

end Lucpd

/-! ## Never too many sessions -/

/-- **There are never more than `max_clients` live sessions**, at any moment of any run and whatever
the order in which the main thread counts and the others finish. -/
theorem sessions_bounded {maxClients : Int32} (hmax : 1 ≤ maxClients.toInt) {s : Lucpd}
    (h : (lucpdSystem maxClients).Reachable s) : (s.live : ℤ) ≤ maxClients.toInt := by
  have := (Lucpd.accounted_of_reachable hmax h).bound
  omega

/-- One slot, and one client that is not counted yet. -/
theorem sessions_bounded_one :
    ∃ s : Lucpd, s.live = 1 ∧ s.clientCount = 0 ∧ (s.live : ℤ) ≤ (1 : Int32).toInt := by
  obtain ⟨s, hrun, hp⟩ := System.Run.of_exec (S := lucpdSystem 1) (Lucpd.step 1) (fun _ _ _ h => h)
    (fun s => s.live == 1 && s.clientCount == 0) .start
    [.loop true, .accept .connection, .test, .create true] (by decide +kernel)
  simp only [Bool.and_eq_true, beq_iff_eq] at hp
  exact ⟨s, hp.1, hp.2, sessions_bounded (by decide) ⟨_, _, rfl, hrun⟩⟩

/-! ## Never too few -/

namespace Lucpd

/-- The connection at hand is about to be turned away. -/
def Refuses (maxClients : Int32) (s : Lucpd) : Prop :=
  s.main = .testing ∧ s.full maxClients = true

/-- A slot is taken by a live session and by nothing else, and a connection is turned away only if
every slot is. -/
structure Fair (maxClients : Int32) (s : Lucpd) : Prop where
  /-- The slots taken, counting one for the increment that is due. -/
  slots : s.clientCount.toInt + s.due = s.live
  refuses : s.Refuses maxClients → (s.live : ℤ) = maxClients.toInt

variable {maxClients : Int32}

/-- Fair are the states without a failed creation. -/
theorem Accounted.fair_iff {s : Lucpd} (h : s.Accounted maxClients) :
    s.Fair maxClients ↔ s.failed = 0 := by
  have hcount := h.count
  have hbound := h.bound
  constructor
  · intro hfair
    have := hfair.slots
    omega
  · intro hfailed
    refine ⟨by omega, ?_⟩
    rintro ⟨hmain, hfull⟩
    have hdue : s.due = 0 := due_eq_zero (by rw [hmain]; simp)
    rw [full_iff] at hfull
    omega

/-- A failed creation is remembered. -/
theorem failed_step {s t : Lucpd} {e : LucpdEvent} (hs : s.step maxClients e = some t)
    (h : s.failed = 0) : t.failed = 0 ↔ e ≠ .create false := by
  cases effect_of_step hs with
  | quiet he _ _ hfailed _ _ => simp [hfailed, h, he]
  | created ok he _ _ _ _ _ hfailed => cases ok <;> simp [hfailed, h, he]
  | incremented he _ _ _ _ hfailed => simp [hfailed, h, he]
  | decremented i he _ _ _ hfailed => simp [hfailed, h, he]

end Lucpd

/-- **A client is refused only when `lucpd` is really full, in the runs in which no creation fails
and in no others.**  In all states of a run the slots taken are those of the live sessions, and a
connection is turned away only if these are `max_clients`, if and only if no `pthread_create()` of
the run failed. -/
theorem refused_when_full_iff {maxClients : Int32} (hmax : 1 ≤ maxClients.toInt) {s : Lucpd}
    {es : List LucpdEvent} :
    ((lucpdSystem maxClients).within (Lucpd.Fair maxClients)).Run .start es s ↔
      ((lucpdSystem maxClients).restrict fun _ e => e ≠ .create false).Run .start es s := by
  have hstart := Lucpd.accounted_start hmax
  refine System.Run.within_iff _ (Lucpd.Accounted maxClients) _ hstart
    (hstart.fair_iff.2 rfl) fun t e t' ht hfair hs => ⟨ht.step hs, ?_⟩
  rw [(ht.step hs).fair_iff]
  exact Lucpd.failed_step hs (ht.fair_iff.1 hfair)

/-- One slot, and one session that comes and goes before it is counted: nothing is left of it. -/
theorem refused_when_full_iff_one :
    ∃ s : Lucpd, s.main = .testing ∧ s.clientCount = 0 ∧ s.Fair 1 := by
  obtain ⟨s, hrun, hp⟩ := System.Run.of_exec
    (S := (lucpdSystem 1).restrict fun _ e => e ≠ .create false)
    (fun s e => if e = .create false then none else s.step 1 e)
    (fun _ _ _ h => Option.ite_none_left_eq_some.1 h)
    (fun s => s.main == .testing && s.clientCount == 0) .start
    [.loop true, .accept .connection, .test, .create true, .close 0, .decrement 0, .increment,
      .loop true, .accept .connection] (by decide +kernel)
  simp only [Bool.and_eq_true, beq_iff_eq] at hp
  exact ⟨s, hp.1, hp.2, ((refused_when_full_iff (by decide)).2 hrun).within_last
    ((Lucpd.accounted_start (by decide)).fair_iff.2 rfl)⟩

/-- **A failed creation takes a slot for good**: one slot, one `pthread_create()` that fails, and a
client is refused although there is no session and never was one. -/
theorem refused_when_empty :
    ∃ es s, (lucpdSystem 1).Run .start es s ∧ s.Refuses 1 ∧ s.threads = [] := by
  obtain ⟨s, hrun, hp⟩ := System.Run.of_exec (S := lucpdSystem 1) (Lucpd.step 1) (fun _ _ _ h => h)
    (fun s => s.main == .testing && s.full 1 && s.threads == []) .start
    [.loop true, .accept .connection, .test, .create false, .increment, .loop true,
      .accept .connection] (by decide +kernel)
  simp only [Bool.and_eq_true, beq_iff_eq] at hp
  exact ⟨_, s, hrun, hp.1, hp.2⟩

end Lucp
