import Lucp.Luftpd.Daemon

/-!
# Whose record a client thread works on

The records of `g_clients` move, the pointers of the threads do not.  `Isolated` says that this has
done no harm: each thread that has not ended designates the record that was made for it, no two of
them designate the same one, and whatever they have done so far they have done on their own record
and their own control connection.

Two kinds of steps can end this, and `Harmless` says when they do not: a new connection must not be
given a slot that a thread still designates, and a removal must not move another record into such a
slot.  `isolated_iff_harmless` says that nothing else matters: a run is isolated from beginning to
end exactly if all its steps are harmless.  That a record which has been moved away never comes back
to the slot its thread designates is the invariant `Behind`.
-/

set_option autoImplicit false

namespace Lucp.Luftpd

/-! ## What is to be shown -/

/-- Something a thread has done on its own record, whose control connection is its own or given
up. -/
def Access.Own (threads : List FtpThread) (a : Access) : Prop :=
  a.owner = some a.thread ∧
    ∃ th, threads[a.thread]? = some th ∧ (a.control = th.sock ∨ a.control = -1)

/-- Thread `t` is `th`, and has not ended. -/
def Daemon.Live (s : Daemon) (t : ℕ) (th : FtpThread) : Prop :=
  s.threads[t]? = some th ∧ th.pc.alive = true

/-- The threads do not get into each other's way. -/
structure Isolated (s : Daemon) : Prop where
  /-- A thread designates the record that was made for it. -/
  owner : ∀ t th, s.Live t th → (s.clients th.slot).owner = some t
  /-- The socket in it is the one accepted for the thread, until the thread closes it. -/
  control : ∀ t th, s.Live t th →
    (s.clients th.slot).client.controlSock = if th.hungUp then -1 else th.sock
  /-- Different threads designate different slots. -/
  apart : ∀ t u th uh, s.Live t th → s.Live u uh → th.slot = uh.slot → t = u
  /-- What has been done was done on the own record. -/
  accesses : ∀ a ∈ s.accesses, a.Own s.threads

/-- The step does not touch a slot that another thread designates: an accepted connection is not
given such a slot, and a removal does not move a record into one. -/
def Harmless (cfg : LuftpdConfig) (s : Daemon) : DaemonEvent → Prop
  | .accept sock _ =>
    sock < 0 ∨ cfg.maxConnections ≤ s.clientCount ∨
      ∀ t th, s.Live t th → th.slot ≠ s.clientCount
  | .advance _ _ => True
  | .remove t =>
    ∀ (th : FtpThread) (i : ℕ), s.threads[t]? = some th →
      s.find (s.clients th.slot).client.threadId = some i →
        ∀ u uh, u ≠ t → s.Live u uh → ¬ (i ≤ uh.slot ∧ uh.slot + 1 < s.clientCount)

/-- A record is in the slot of the thread it was made for, or in a lower one. -/
def Behind (s : Daemon) : Prop :=
  ∀ j t, (s.clients j).owner = some t → ∃ th : FtpThread, s.threads[t]? = some th ∧ j ≤ th.slot

/-! ## The steps -/

/-- **What a step can do.** -/
theorem Daemon.step_cases {cfg : LuftpdConfig} {s s' : Daemon} {e : DaemonEvent}
    (h : s.step cfg e = some s') :
    (∃ sock created, e = .accept sock created ∧ s' = s.accept cfg sock created)
      ∨ (∃ t os th, e = .advance t os ∧ s.threads[t]? = some th ∧ th.pc.running = true ∧
          s' = s.advance cfg t th os)
      ∨ (∃ t th, e = .remove t ∧ s.threads[t]? = some th ∧ th.pc = .removing ∧
          s' = s.remove t th) := by
  cases e with
  | accept sock created => exact .inl ⟨sock, created, rfl, (Option.some.inj h).symm⟩
  | advance t os =>
    cases hth : s.threads[t]? with
    | none => simp [step, hth] at h
    | some th =>
      simp only [step, hth, Option.ite_none_right_eq_some, Option.some.injEq] at h
      exact .inr (.inl ⟨t, os, th, rfl, hth, h.1, h.2.symm⟩)
  | remove t =>
    cases hth : s.threads[t]? with
    | none => simp [step, hth] at h
    | some th =>
      simp only [step, hth] at h
      cases hpc : th.pc with
      | removing =>
        rw [hpc] at h
        exact .inr (.inr ⟨t, th, rfl, hth, hpc, (Option.some.inj h).symm⟩)
      | serving rest => rw [hpc] at h; cases h
      | closing rest => rw [hpc] at h; cases h
      | finished => rw [hpc] at h; cases h

theorem getElem?_set_eq {α : Type} {l : List α} {t : ℕ} {a : α} (h : l[t]? = some a) (b : α)
    (u : ℕ) : (l.set t b)[u]? = if u = t then some b else l[u]? := by
  have ht : t < l.length := (List.getElem?_eq_some_iff.1 h).1
  rw [List.getElem?_set]
  by_cases hu : t = u
  · subst hu; simp [ht]
  · simp [hu, Ne.symm hu]

theorem shiftLoop_apply (clients : ℕ → Record) (steps j k : ℕ) :
    shiftLoop clients steps j k
      = if j ≤ k ∧ k < j + steps then clients (k + 1) else clients k := by
  induction steps generalizing clients j with
  | zero => rw [shiftLoop, if_neg (by omega)]
  | succ steps ih =>
    rw [shiftLoop, ih]
    by_cases hk : j + 1 ≤ k ∧ k < j + 1 + steps
    · rw [if_pos hk, if_pos (by omega), Function.update_of_ne (by omega)]
    · rw [if_neg hk]
      by_cases hj : k = j
      · subst hj
        rw [Function.update_self, if_pos (by omega)]
      · rw [Function.update_of_ne hj, if_neg (by omega)]

theorem Daemon.find_lt {s : Daemon} {threadId : Int} {i : ℕ} (h : s.find threadId = some i) :
    i < s.clientCount :=
  List.mem_range.1 (List.mem_of_find?_eq_some h)

/-! ### What a thread does to its record -/

theorem FtpPc.alive_of_running {pc : FtpPc} (h : pc.running = true) : pc.alive = true := by
  cases pc with
  | serving rest => rfl
  | closing rest => rfl
  | removing => rfl
  | finished => cases h

theorem ClientOp.controlSock_exec (c : LuftpdClient) (os : OsAnswer) (o : ClientOp) :
    (o.exec c os).1.controlSock = if o.hangsUp then -1 else c.controlSock := by
  cases o with
  | clear f => cases f <;> rfl
  | _ => rfl

/-- A thread changes `control_sock` only by giving it up. -/
theorem FtpPc.controlSock_advance (cfg : LuftpdConfig) (c : LuftpdClient) (os : OsAnswer)
    (pc : FtpPc) :
    (pc.advance cfg c os).1.controlSock = if pc.hangsUp then -1 else c.controlSock := by
  cases pc with
  | serving rest =>
    match rest with
    | .done true => rfl
    | .done false => rfl
    | .call o k => exact ClientOp.controlSock_exec c os o
  | closing rest =>
    match rest with
    | .done () => rfl
    | .call o k => exact ClientOp.controlSock_exec c os o
  | removing => rfl
  | finished => rfl

/-! ## Records do not come back -/

theorem Behind.start (memory : ℕ → LuftpdClient) : Behind (.start memory) := by
  intro j t h
  cases h

/-- The invariant speaks about the slots of the threads only. -/
theorem Behind.set_thread {s : Daemon} {t : ℕ} {th th' : FtpThread} (h : Behind s)
    (hth : s.threads[t]? = some th) (hslot : th'.slot = th.slot) {clients : ℕ → Record}
    {clientCount : ℕ} {accesses : List Access}
    (hclients : ∀ j u, (clients j).owner = some u → ∃ k, j ≤ k ∧ (s.clients k).owner = some u) :
    Behind ⟨clients, clientCount, s.threads.set t th', accesses⟩ := by
  intro j u howner
  obtain ⟨k, hk, howner⟩ := hclients j u howner
  obtain ⟨uh, huh, hle⟩ := h k u howner
  by_cases hu : u = t
  · subst hu
    obtain rfl : uh = th := Option.some.inj (huh.symm.trans hth)
    exact ⟨th', by simp [getElem?_set_eq hth], by omega⟩
  · exact ⟨uh, by simp [getElem?_set_eq hth, hu, huh], by omega⟩

theorem Behind.accept {s : Daemon} (h : Behind s) (cfg : LuftpdConfig) (sock : Int)
    (created : Option Int) : Behind (s.accept cfg sock created) := by
  unfold Daemon.accept
  by_cases hfull : sock < 0 ∨ cfg.maxConnections ≤ s.clientCount
  · rw [if_pos hfull]
    exact h
  · rw [if_neg hfull]
    cases created with
    | none =>
      intro j t howner
      by_cases hj : j = s.clientCount
      · subst hj
        simp at howner
      · exact h j t (by simpa [hj] using howner)
    | some threadId =>
      intro j t howner
      by_cases hj : j = s.clientCount
      · subst hj
        obtain rfl : s.threads.length = t := by simpa using howner
        exact ⟨⟨s.clientCount, sock, .serving luftpdWelcome, false⟩, by simp, le_rfl⟩
      · obtain ⟨th, hth, hle⟩ := h j t (by simpa [hj] using howner)
        exact ⟨th, by simp [List.getElem?_append_left (List.getElem?_eq_some_iff.1 hth).1, hth],
          hle⟩

theorem Behind.advance {s : Daemon} (h : Behind s) (cfg : LuftpdConfig) {t : ℕ} {th : FtpThread}
    (hth : s.threads[t]? = some th) (os : OsAnswer) : Behind (s.advance cfg t th os) := by
  refine h.set_thread hth (by rfl) fun j u howner => ⟨j, le_rfl, ?_⟩
  by_cases hj : j = th.slot
  · subst hj
    simpa using howner
  · simpa [hj] using howner

theorem Behind.remove {s : Daemon} (h : Behind s) {t : ℕ} {th : FtpThread}
    (hth : s.threads[t]? = some th) : Behind (s.remove t th) := by
  unfold Daemon.remove
  dsimp only
  split
  · exact h.set_thread hth (by rfl) fun j u howner => ⟨j, le_rfl, howner⟩
  · refine h.set_thread hth (by rfl) fun j u howner => ?_
    rw [shiftLoop_apply] at howner
    split at howner
    · exact ⟨j + 1, by omega, howner⟩
    · exact ⟨j, le_rfl, howner⟩

theorem Behind.step {cfg : LuftpdConfig} {s s' : Daemon} {e : DaemonEvent} (h : Behind s)
    (hs : s.step cfg e = some s') : Behind s' := by
  obtain ⟨sock, created, -, rfl⟩ | ⟨t, os, th, -, hth, -, rfl⟩ | ⟨t, th, -, hth, -, rfl⟩ :=
    Daemon.step_cases hs
  · exact h.accept cfg sock created
  · exact h.advance cfg hth os
  · exact h.remove hth

/-! ## Isolation, step by step -/

theorem Isolated.start (memory : ℕ → LuftpdClient) : Isolated (.start memory) where
  owner t th h := by simp [Daemon.Live, Daemon.start] at h
  control t th h := by simp [Daemon.Live, Daemon.start] at h
  apart t u th uh h := by simp [Daemon.Live, Daemon.start] at h
  accesses a h := by simp [Daemon.start] at h

theorem Access.Own.mono {threads threads' : List FtpThread} {a : Access} (h : a.Own threads)
    (hsock : ∀ (t : ℕ) (th : FtpThread), threads[t]? = some th →
      ∃ th' : FtpThread, threads'[t]? = some th' ∧ th'.sock = th.sock) :
    a.Own threads' := by
  obtain ⟨howner, th, hth, hcontrol⟩ := h
  obtain ⟨th', hth', heq⟩ := hsock _ th hth
  exact ⟨howner, th', hth', heq ▸ hcontrol⟩

theorem Access.Own.set {threads : List FtpThread} {a : Access} (h : a.Own threads) {t : ℕ}
    {th th' : FtpThread} (hth : threads[t]? = some th) (hsock : th'.sock = th.sock) :
    a.Own (threads.set t th') := by
  refine h.mono fun u uh huh => ?_
  rw [getElem?_set_eq hth]
  by_cases hu : u = t
  · subst hu
    obtain rfl : uh = th := Option.some.inj (huh.symm.trans hth)
    exact ⟨th', if_pos rfl, hsock⟩
  · exact ⟨uh, by rw [if_neg hu, huh], rfl⟩

/-- Who lives after one thread has been changed. -/
theorem Daemon.Live.of_set {s : Daemon} {t u : ℕ} {th th' uh : FtpThread}
    (hth : s.threads[t]? = some th) {clients : ℕ → Record} {clientCount : ℕ}
    {accesses : List Access}
    (h : Live ⟨clients, clientCount, s.threads.set t th', accesses⟩ u uh) :
    (u = t ∧ uh = th' ∧ th'.pc.alive = true) ∨ (u ≠ t ∧ s.Live u uh) := by
  obtain ⟨huh, halive⟩ := h
  rw [getElem?_set_eq hth] at huh
  by_cases hu : u = t
  · rw [if_pos hu, Option.some.injEq] at huh
    exact .inl ⟨hu, huh.symm, huh ▸ halive⟩
  · rw [if_neg hu] at huh
    exact .inr ⟨hu, huh, halive⟩

/-- A thread at work leaves the others alone. -/
theorem Isolated.advance {s : Daemon} (h : Isolated s) (cfg : LuftpdConfig) {t : ℕ}
    {th : FtpThread} (hth : s.threads[t]? = some th) (hrun : th.pc.running = true)
    (os : OsAnswer) : Isolated (s.advance cfg t th os) := by
  have hlive : s.Live t th := ⟨hth, FtpPc.alive_of_running hrun⟩
  have hcontrol := h.control t th hlive
  constructor
  · intro u uh hu
    obtain ⟨rfl, rfl, -⟩ | ⟨hne, hu⟩ := Daemon.Live.of_set hth hu
    · simpa [Daemon.advance] using h.owner u th hlive
    · have hslot : uh.slot ≠ th.slot := fun heq => hne (h.apart u t uh th hu hlive heq)
      simpa [Daemon.advance, hslot] using h.owner u uh hu
  · intro u uh hu
    obtain ⟨rfl, rfl, -⟩ | ⟨hne, hu⟩ := Daemon.Live.of_set hth hu
    · simp only [Daemon.advance, Function.update_self, FtpPc.controlSock_advance, hcontrol]
      cases th.pc.hangsUp <;> cases th.hungUp <;> rfl
    · have hslot : uh.slot ≠ th.slot := fun heq => hne (h.apart u t uh th hu hlive heq)
      simpa [Daemon.advance, hslot] using h.control u uh hu
  · intro u v uh vh hu hv heq
    obtain ⟨rfl, rfl, -⟩ | ⟨-, hu'⟩ := Daemon.Live.of_set hth hu
    · obtain ⟨rfl, -, -⟩ | ⟨-, hv'⟩ := Daemon.Live.of_set hth hv
      · rfl
      · exact h.apart u v th vh hlive hv' heq
    · obtain ⟨rfl, rfl, -⟩ | ⟨-, hv'⟩ := Daemon.Live.of_set hth hv
      · exact h.apart u v uh th hu' hlive heq
      · exact h.apart u v uh vh hu' hv' heq
  · have hold : ∀ a ∈ s.accesses, a.Own (s.advance cfg t th os).threads :=
      fun a ha => (h.accesses a ha).set hth (by rfl)
    intro a ha
    cases hop : th.pc.next with
    | none => exact hold a (by simpa [Daemon.advance, hop] using ha)
    | some op =>
      have hmem : a ∈ s.accesses ∨ a = ⟨t, op, (s.clients th.slot).owner,
          (s.clients th.slot).client.controlSock⟩ := by
        simpa [Daemon.advance, hop] using ha
      rcases hmem with ha | rfl
      · exact hold a ha
      · refine Access.Own.set ⟨h.owner t th hlive, th, hth, ?_⟩ hth (by rfl)
        rw [hcontrol]
        cases th.hungUp
        · exact .inl rfl
        · exact .inr rfl

theorem Daemon.Live.lt {s : Daemon} {t : ℕ} {th : FtpThread} (h : s.Live t th) :
    t < s.threads.length :=
  (List.getElem?_eq_some_iff.1 h.1).1

/-- A record is initialised in a slot that no living thread designates. -/
theorem Isolated.initialise {s : Daemon} (h : Isolated s) {j : ℕ} (r : Record)
    (hj : ∀ t th, s.Live t th → th.slot ≠ j) :
    Isolated { s with clients := Function.update s.clients j r } where
  owner t th hth := by simpa [hj t th hth] using h.owner t th hth
  control t th hth := by simpa [hj t th hth] using h.control t th hth
  apart := h.apart
  accesses := h.accesses

/-- A thread is started on a record that was made for it. -/
theorem Isolated.spawn {s : Daemon} (h : Isolated s) {j : ℕ} {sock threadId : Int}
    (hrecord : s.clients j = ⟨newClient sock threadId, some s.threads.length⟩)
    (hj : ∀ t th, s.Live t th → th.slot ≠ j) (clientCount : ℕ) :
    Isolated { s with
      clientCount := clientCount
      threads := s.threads ++ [⟨j, sock, .serving luftpdWelcome, false⟩] } := by
  have hsplit : ∀ {t : ℕ} {th : FtpThread},
      Daemon.Live { s with
        clientCount := clientCount
        threads := s.threads ++ [⟨j, sock, .serving luftpdWelcome, false⟩] } t th →
      s.Live t th ∨ (t = s.threads.length ∧ th = ⟨j, sock, .serving luftpdWelcome, false⟩) := by
    rintro t th ⟨hth, halive⟩
    rw [List.getElem?_append] at hth
    by_cases ht : t < s.threads.length
    · rw [if_pos ht] at hth
      exact .inl ⟨hth, halive⟩
    · rw [if_neg ht] at hth
      obtain ⟨hlt, hth⟩ := List.getElem?_eq_some_iff.1 hth
      simp only [List.length_singleton, List.getElem_singleton] at hlt hth
      exact .inr ⟨by omega, hth.symm⟩
  constructor
  · intro t th hth
    obtain hth | ⟨rfl, rfl⟩ := hsplit hth
    · exact h.owner t th hth
    · simp [hrecord]
  · intro t th hth
    obtain hth | ⟨rfl, rfl⟩ := hsplit hth
    · exact h.control t th hth
    · simp [hrecord, newClient]
  · intro t u th uh ht hu heq
    obtain ht | ⟨rfl, rfl⟩ := hsplit ht
    · obtain hu | ⟨rfl, rfl⟩ := hsplit hu
      · exact h.apart t u th uh ht hu heq
      · exact absurd heq (hj t th ht)
    · obtain hu | ⟨rfl, rfl⟩ := hsplit hu
      · exact absurd heq.symm (hj u uh hu)
      · rfl
  · intro a ha
    refine (h.accesses a ha).mono fun t th hth => ⟨th, ?_, rfl⟩
    rw [List.getElem?_append_left (List.getElem?_eq_some_iff.1 hth).1, hth]

/-- **A new connection gets into nobody's way exactly if no living thread designates its slot.** -/
theorem Isolated.accept_iff {s : Daemon} (h : Isolated s) (cfg : LuftpdConfig) (sock : Int)
    (created : Option Int) :
    Isolated (s.accept cfg sock created) ↔ Harmless cfg s (.accept sock created) := by
  by_cases hfull : sock < 0 ∨ cfg.maxConnections ≤ s.clientCount
  · have hsame : s.accept cfg sock created = s := if_pos hfull
    rw [hsame]
    exact iff_of_true h (or_assoc.1 (.inl hfull))
  · have hcond : Harmless cfg s (.accept sock created) ↔
        ∀ t th, s.Live t th → th.slot ≠ s.clientCount := by
      rw [Harmless, ← or_assoc, or_iff_right hfull]
    unfold Daemon.accept
    rw [hcond, if_neg hfull]
    cases created with
    | none =>
      refine ⟨fun hs t th hth heq => ?_, fun hfree => h.initialise _ hfree⟩
      have howner := hs.owner t th hth
      simp [heq] at howner
    | some threadId =>
      constructor
      · intro hs t th hth heq
        have howner := hs.owner t th
          ⟨by simp [List.getElem?_append_left hth.lt, hth.1], hth.2⟩
        have hlt := hth.lt
        simp only [heq, Function.update_self, Option.some.injEq] at howner
        omega
      · intro hfree
        exact (h.initialise _ hfree).spawn (Function.update_self _ _ _) hfree _

/-- A thread ends, and records are moved that no living thread designates. -/
theorem Isolated.finish {s : Daemon} (h : Isolated s) {t : ℕ} {th : FtpThread}
    (hth : s.threads[t]? = some th) {clients : ℕ → Record} {clientCount : ℕ}
    (hclients : ∀ u uh, u ≠ t → s.Live u uh → clients uh.slot = s.clients uh.slot) :
    Isolated ⟨clients, clientCount, s.threads.set t { th with pc := .finished }, s.accesses⟩ := by
  have hsplit : ∀ {u : ℕ} {uh : FtpThread},
      Daemon.Live ⟨clients, clientCount, s.threads.set t { th with pc := .finished }, s.accesses⟩
        u uh → u ≠ t ∧ s.Live u uh := by
    intro u uh hu
    obtain ⟨-, -, hdead⟩ | hlive := hu.of_set hth
    · cases hdead
    · exact hlive
  constructor
  · intro u uh hu
    obtain ⟨hne, hu⟩ := hsplit hu
    simpa only [hclients u uh hne hu] using h.owner u uh hu
  · intro u uh hu
    obtain ⟨hne, hu⟩ := hsplit hu
    simpa only [hclients u uh hne hu] using h.control u uh hu
  · exact fun u v uh vh hu hv heq => h.apart u v uh vh (hsplit hu).2 (hsplit hv).2 heq
  · exact fun a ha => (h.accesses a ha).set hth (by rfl)

/-- **A removal gets into nobody's way exactly if it moves nothing into the slot of a living
thread.** -/
theorem Isolated.remove_iff {s : Daemon} (h : Isolated s) (hb : Behind s) (cfg : LuftpdConfig)
    {t : ℕ} {th : FtpThread} (hth : s.threads[t]? = some th) :
    Isolated (s.remove t th) ↔ Harmless cfg s (.remove t) := by
  have hcond : Harmless cfg s (.remove t) ↔
      ∀ i, s.find (s.clients th.slot).client.threadId = some i →
        ∀ u uh, u ≠ t → s.Live u uh → ¬ (i ≤ uh.slot ∧ uh.slot + 1 < s.clientCount) := by
    constructor
    · exact fun hs i => hs th i hth
    · intro hs th' i hth'
      obtain rfl : th = th' := Option.some.inj (hth.symm.trans hth')
      exact hs i
  rw [hcond]
  unfold Daemon.remove
  cases hfind : s.find (s.clients th.slot).client.threadId with
  | none => exact iff_of_true (h.finish hth fun _ _ _ _ => rfl) (by simp)
  | some i =>
    have hi := Daemon.find_lt hfind
    simp only [Option.some.injEq, forall_eq']
    constructor
    · -- a record moved in belongs to a thread with a pointer to a higher slot
      rintro hs u uh hne hu ⟨hle, hlt⟩
      have howner := hs.owner u uh ⟨by simp [getElem?_set_eq hth, hne, hu.1], hu.2⟩
      dsimp only at howner
      rw [shiftLoop_apply, if_pos (by omega)] at howner
      obtain ⟨uh', huh', hslot⟩ := hb _ _ howner
      obtain rfl : uh = uh' := Option.some.inj (hu.1.symm.trans huh')
      omega
    · intro hfree
      refine h.finish hth fun u uh hne hu => ?_
      have := hfree u uh hne hu
      rw [shiftLoop_apply, if_neg (by omega)]

/-- One step from an isolated state. -/
theorem Isolated.step_iff {cfg : LuftpdConfig} {s s' : Daemon} {e : DaemonEvent} (h : Isolated s)
    (hb : Behind s) (hs : s.step cfg e = some s') : Isolated s' ↔ Harmless cfg s e := by
  obtain ⟨sock, created, rfl, rfl⟩ | ⟨t, os, th, rfl, hth, hrun, rfl⟩ | ⟨t, th, rfl, hth, -, rfl⟩ :=
    Daemon.step_cases hs
  · exact h.accept_iff cfg sock created
  · exact iff_of_true (h.advance cfg hth hrun os) trivial
  · exact h.remove_iff hb cfg hth

/-- **Sessions are isolated all the way exactly in the runs whose steps are all harmless.** -/
theorem isolated_iff_harmless (cfg : LuftpdConfig) (memory : ℕ → LuftpdClient)
    (es : List DaemonEvent) (s : Daemon) :
    (((daemonSystem cfg).within Isolated).Run (.start memory) es s
        ↔ ((daemonSystem cfg).restrict (Harmless cfg)).Run (.start memory) es s) ∧
      (((daemonSystem cfg).restrict (Harmless cfg)).Run (.start memory) es s → Isolated s) := by
  have hiff : ((daemonSystem cfg).within Isolated).Run (.start memory) es s
      ↔ ((daemonSystem cfg).restrict (Harmless cfg)).Run (.start memory) es s :=
    System.Run.within_iff (Harmless cfg) Behind Isolated (.start memory) (.start memory)
      fun t e t' hb hiso hs => ⟨hb.step hs, hiso.step_iff hb hs⟩
  exact ⟨hiff, fun hrun => (hiff.2 hrun).within_last (.start memory)⟩

/-! ## Two clients on one record -/

/-- A server with the default limit. -/
def defaultConfig : LuftpdConfig where
  address := some (0, 0, 0, 0)
  rootDir := textBytes "/tmp/luftp_root"
  maxConnections := 10
  dataPortMin := 30000
  dataPortMax := 30100

/-- The clients A and B connect; A is greeted, closes its connection, and its thread cleans up; C
connects; B is greeted. -/
def sharedSlotRun : List DaemonEvent :=
  let quiet : OsAnswer := { ret := 0, fs := .ofTable [] }
  [DaemonEvent.accept 4 (some 1001), .accept 5 (some 1002)] ++
    List.replicate 12 (DaemonEvent.advance 0 quiet) ++
    [DaemonEvent.remove 0, .accept 6 (some 1003), .advance 1 quiet]

/-- The greeting of B goes to C: the records that B and C designate are one, with the socket of
C. -/
theorem shared_slot :
    ∃ s, (daemonSystem defaultConfig).Reachable s ∧ ¬ Isolated s ∧
      ∃ b c, s.Live 1 b ∧ s.Live 2 c ∧ b.slot = c.slot ∧ b.sock = 5 ∧ c.sock = 6 ∧
        b.hungUp = false ∧ (s.clients b.slot).client.controlSock = 6 ∧
        ∃ a ∈ s.accesses, a.thread = 1 ∧ a.control = 6 ∧ a.op = .reply (luftpdSendResponse
          (textBytes "220 Welcome to Luftpd FTP Server")) := by
  obtain ⟨s, hrun, hs⟩ := System.Run.of_exec (S := daemonSystem defaultConfig)
    (Daemon.step defaultConfig) (fun _ _ _ h => h)
    (fun s => match s.threads[1]?, s.threads[2]?, s.accesses.getLast? with
      | some b, some c, some a => decide (b.pc.alive = true ∧ c.pc.alive = true ∧
          b.slot = c.slot ∧ b.sock = 5 ∧ c.sock = 6 ∧ b.hungUp = false ∧
          (s.clients b.slot).client.controlSock = 6 ∧ a.thread = 1 ∧ a.control = 6 ∧
          a.op = .reply (luftpdSendResponse (textBytes "220 Welcome to Luftpd FTP Server")))
      | _, _, _ => false)
    (.start fun _ => newClient (-1) 0) sharedSlotRun (by decide +kernel)
  have hreach : (daemonSystem defaultConfig).Reachable s := ⟨_, _, ⟨_, rfl⟩, hrun⟩
  split at hs
  · rename_i b c a hb hc ha
    obtain ⟨hbl, hcl, hslot, hb5, hc6, hup, hcontrol, hthread, hsix, hop⟩ := of_decide_eq_true hs
    have hlive : s.Live 1 b ∧ s.Live 2 c := ⟨⟨hb, hbl⟩, ⟨hc, hcl⟩⟩
    refine ⟨s, hreach, fun hiso => ?_, b, c, hlive.1, hlive.2, hslot, hb5, hc6, hup, hcontrol, a,
      List.mem_of_getLast? ha, hthread, hsix, hop⟩
    exact absurd (hiso.apart 1 2 b c hlive.1 hlive.2 hslot) (by decide)
  · cases hs

end Lucp.Luftpd
