import Lucp.Luftpd.Isolation
import Lucp.Luftpd.Replies
import Mathlib.Data.List.Nodup
import Mathlib.Data.List.Perm.Basic

/-!
# Connection accounting

What the server has on its books when every client thread has ended: `g_client_count` is to be zero,
and the control sockets that were handed to the threads are to be closed, each of them once.

Both can fail as soon as two threads work on one record, which is the defect of
`Lucp.Luftpd.Isolation`.  Here it is shown that it is the only reason: in a run without it
(`accounted_of_harmless`) a thread reads its own identifier when it looks for its record, so the
identifiers in the array are those of the living threads (`Daemon.IdsMatch`), and a thread closes
its control socket once, whether in `LIST` and `RETR` or behind the loop (`FtpPc.Accounts`).
-/

set_option autoImplicit false

namespace Lucp.Luftpd

/-! ## The books -/

/-- The access has closed a control connection. -/
def Access.closes (a : Access) : Bool := a.op.closesAt a.control

/-- How often a thread has closed a control connection. -/
def Daemon.closesOf (s : Daemon) (t : ℕ) : ℕ :=
  ((s.accesses.filter Access.closes).map Access.thread).count t

/-- The control sockets that have been closed. -/
def Daemon.closed (s : Daemon) : List Int := (s.accesses.filter Access.closes).map Access.control

/-- Every thread has ended. -/
def Daemon.Quiescent (s : Daemon) : Prop := ∀ th ∈ s.threads, th.pc.alive = false

/-- Nothing is left of the clients: their slots are free, and the closed sockets are those handed to
the threads, each of them once. -/
structure Accounted (s : Daemon) : Prop where
  count : s.clientCount = 0
  closed : s.closed.Perm (s.threads.map FtpThread.sock)

/-! ## A thread closes its control connection once -/

/-- The closed control connections are counted. -/
abbrev countingExec := Script.counted ClientOp.exec fun c o => o.closesAt c.controlSock

/-- Between two turns: how often the control connection has been closed shows in the record. -/
structure Balanced (st : LuftpdClient × ℕ) : Prop where
  closes : st.2 = if st.1.controlSock = -1 then 1 else 0
  active : st.1.isActive = true → st.1.controlSock ≠ -1

/-- From here on the thread closes its control connection as often as is missing to one. -/
def FtpPc.Accounts (st : LuftpdClient × ℕ) : FtpPc → Prop
  | .serving rest =>
    rest.Ensures countingExec (fun _ => True) (fun _ => True) (fun _ => Balanced) st
  | .closing rest =>
    rest.Ensures countingExec (fun _ => True) (fun _ => True) (fun _ st => st.2 = 1) st
  | .removing => st.2 = 1
  | .finished => st.2 = 1

theorem balanced_new {sock : Int} (threadId : Int) (hsock : 0 ≤ sock) :
    Balanced (newClient sock threadId, 0) := by
  have hopen : (newClient sock threadId).controlSock ≠ -1 := by
    simp only [newClient]
    omega
  exact ⟨(if_neg hopen).symm, fun _ => hopen⟩

theorem welcome_ensures {c : LuftpdClient} {n : ℕ} (h : Balanced (c, n)) :
    luftpdWelcome.Ensures countingExec (fun _ => True) (fun _ => True) (fun _ => Balanced) (c, n) :=
  fun _ _ => ⟨trivial, h⟩

/-- A turn leaves the record balanced. -/
theorem serve_ensures (cfg : LuftpdConfig) {c : LuftpdClient} {n : ℕ} (h : Balanced (c, n)) :
    (luftpdServe cfg).Ensures countingExec (fun _ => True) (fun _ => True) (fun _ => Balanced)
      (c, n) := by
  refine Script.ensures_counted _ fun tr more c' hrun => ?_
  obtain ⟨-, -, rfl, e, rfl⟩ | ⟨hactive, e, os, tr', rfl, ⟨-, -, rfl, rfl⟩ | ⟨-, hcommand⟩⟩ :=
    serve_runs_iff.1 hrun
  · exact h
  · exact h
  · have hopen : c.controlSock ≠ -1 := h.active hactive
    have hn : n = 0 := h.closes.trans (if_neg hopen)
    have hcount : (⟨c, .isActive, e⟩ :: ⟨c, .sys .control .recv, os⟩ :: tr' : ClientTrace).countP
        (fun x => x.op.closesAt x.state.controlSock) = closings tr' := by
      simp [closings, ClientOp.closesAt]
    rw [hcount, hn, Nat.zero_add]
    obtain ⟨k, hans⟩ | hdrop := kept_or_dropped hopen hcommand
    · have hopen' : c'.controlSock ≠ -1 := by rwa [hans.same.control]
      exact ⟨hans.closings.trans (if_neg hopen').symm, fun _ => hopen'⟩
    · exact ⟨hdrop.closings.trans (if_pos hdrop.control).symm,
        fun hactive' => absurd (hdrop.active.symm.trans hactive') (by decide)⟩

theorem closeClient_ensures {c : LuftpdClient} {n : ℕ} (h : Balanced (c, n)) :
    lufptdCloseClient.Ensures countingExec (fun _ => True) (fun _ => True) (fun _ st => st.2 = 1)
      (c, n) := by
  refine Script.ensures_counted _ fun tr a c' hrun => ?_
  have hcount := (closeClient_runs hrun).2.2
  have hn : n = if c.controlSock = -1 then 1 else 0 := h.closes
  dsimp only
  rw [← closings, hcount, hn]
  split <;> rfl

/-- The next step of a thread. -/
theorem FtpPc.Accounts.advance {c : LuftpdClient} {n : ℕ} {pc : FtpPc} (h : pc.Accounts (c, n))
    (cfg : LuftpdConfig) (hrun : pc.running = true) (os : OsAnswer) :
    (pc.advance cfg c os).2.Accounts ((pc.advance cfg c os).1,
      if pc.next.any (fun o => o.closesAt c.controlSock) then n + 1 else n) := by
  cases pc with
  | serving rest =>
    match rest with
    | .done true => exact serve_ensures cfg h
    | .done false => exact closeClient_ensures h
    | .call o k => exact (h os trivial).2
  | closing rest =>
    match rest with
    | .done () => exact h
    | .call o k => exact (h os trivial).2
  | removing => cases hrun
  | finished => cases hrun

/-! ## In a run of the server -/

/-- How often each thread has closed its control connection fits to where it stands. -/
def Daemon.ClosesMatch (s : Daemon) : Prop :=
  ∀ (t : ℕ) (th : FtpThread), s.threads[t]? = some th →
    th.pc.Accounts ((s.clients th.slot).client, s.closesOf t)

/-- The record of a thread that has ended does not matter. -/
theorem FtpPc.Accounts.of_ended {pc : FtpPc} {c : LuftpdClient} {n : ℕ} (hst : pc.Accounts (c, n))
    (h : pc.alive = false) (c' : LuftpdClient) : pc.Accounts (c', n) := by
  cases pc with
  | serving rest => cases h
  | closing rest => cases h
  | removing => cases h
  | finished => exact hst

theorem Daemon.closesOf_advance (s : Daemon) (cfg : LuftpdConfig) (t : ℕ) (th : FtpThread)
    (os : OsAnswer) (u : ℕ) :
    (s.advance cfg t th os).closesOf u =
      if u = t ∧ th.pc.next.any (fun o => o.closesAt (s.clients th.slot).client.controlSock) = true
      then s.closesOf u + 1 else s.closesOf u := by
  unfold closesOf Daemon.advance
  dsimp only
  cases hnext : th.pc.next with
  | none => simp
  | some o =>
    rw [List.filter_append, List.map_append, List.count_append]
    by_cases hclose : o.closesAt (s.clients th.slot).client.controlSock = true
    · by_cases hu : u = t
      · simp [Access.closes, hclose, hu]
      · simp [Access.closes, hclose, hu, Ne.symm hu]
    · simp [Access.closes, hclose]

/-- A thread that has not begun has closed nothing. -/
theorem Isolated.closesOf_new {s : Daemon} (h : Isolated s) : s.closesOf s.threads.length = 0 := by
  refine List.count_eq_zero.2 fun hmem => ?_
  obtain ⟨a, ha, hthread⟩ := List.mem_map.1 hmem
  obtain ⟨-, th, hth, -⟩ := h.accesses a (List.mem_of_mem_filter ha)
  have hlt := (List.getElem?_eq_some_iff.1 hth).1
  omega

theorem Daemon.ClosesMatch.advance {s : Daemon} (h : s.ClosesMatch) (hiso : Isolated s)
    (cfg : LuftpdConfig) {t : ℕ} {th : FtpThread} (hth : s.threads[t]? = some th)
    (hrun : th.pc.running = true) (os : OsAnswer) : (s.advance cfg t th os).ClosesMatch := by
  intro u uh hu
  rw [Daemon.closesOf_advance]
  have hset : (s.threads.set t { th with
      pc := (th.pc.advance cfg (s.clients th.slot).client os).2
      hungUp := th.hungUp || th.pc.hangsUp })[u]? = some uh := hu
  rw [getElem?_set_eq hth] at hset
  by_cases hut : u = t
  · subst hut
    rw [if_pos rfl, Option.some.injEq] at hset
    subst hset
    have hnext := (h u th hth).advance cfg hrun os
    simpa [Daemon.advance] using hnext
  · rw [if_neg hut] at hset
    rw [if_neg fun hc => hut hc.1]
    cases halive : uh.pc.alive with
    | false => exact (h u uh hset).of_ended halive _
    | true =>
      have hslot : uh.slot ≠ th.slot := fun heq =>
        hut (hiso.apart u t uh th ⟨hset, halive⟩ ⟨hth, FtpPc.alive_of_running hrun⟩ heq)
      simpa [Daemon.advance, hslot] using h u uh hset

theorem Daemon.ClosesMatch.accept {s : Daemon} (h : s.ClosesMatch) (hiso : Isolated s)
    (cfg : LuftpdConfig) (sock : Int) (created : Option Int)
    (hharm : Harmless cfg s (.accept sock created)) : (s.accept cfg sock created).ClosesMatch := by
  by_cases hfull : sock < 0 ∨ cfg.maxConnections ≤ s.clientCount
  · have hsame : s.accept cfg sock created = s := if_pos hfull
    rw [hsame]
    exact h
  have hfree : ∀ t th, s.Live t th → th.slot ≠ s.clientCount :=
    ((or_assoc.2 hharm).resolve_left hfull)
  -- a thread that has been there before
  have hold : ∀ (r : Record) (t : ℕ) (th : FtpThread), s.threads[t]? = some th →
      th.pc.Accounts
        ((Function.update s.clients s.clientCount r th.slot).client, s.closesOf t) := by
    intro r t th hth
    cases halive : th.pc.alive with
    | false => exact (h t th hth).of_ended halive _
    | true =>
      rw [Function.update_of_ne (hfree t th ⟨hth, halive⟩)]
      exact h t th hth
  unfold Daemon.accept
  rw [if_neg hfull]
  cases created with
  | none => exact fun t th hth => hold _ t th hth
  | some threadId =>
    intro t th hth
    dsimp only at hth ⊢
    rw [List.getElem?_append] at hth
    by_cases ht : t < s.threads.length
    · rw [if_pos ht] at hth
      exact hold _ t th hth
    · rw [if_neg ht] at hth
      obtain ⟨hlt, hnew⟩ := List.getElem?_eq_some_iff.1 hth
      simp only [List.length_singleton, List.getElem_singleton] at hlt hnew
      obtain rfl : t = s.threads.length := by omega
      subst hnew
      have hsock : 0 ≤ sock := by omega
      rw [Function.update_self]
      show FtpPc.Accounts (newClient sock threadId, s.closesOf s.threads.length)
        (.serving luftpdWelcome)
      rw [hiso.closesOf_new]
      exact welcome_ensures (balanced_new threadId hsock)

/-- What a removal leaves alone. -/
theorem Harmless.remove_slot {cfg : LuftpdConfig} {s : Daemon} {t : ℕ} {th : FtpThread}
    (hharm : Harmless cfg s (.remove t)) (hth : s.threads[t]? = some th) {u : ℕ} {uh : FtpThread}
    (hne : u ≠ t) (hu : s.Live u uh) : (s.remove t th).clients uh.slot = s.clients uh.slot := by
  unfold Daemon.remove
  dsimp only
  split
  · rfl
  · next i hfind =>
    have hi := Daemon.find_lt hfind
    have := hharm th i hth hfind u uh hne hu
    dsimp only
    rw [shiftLoop_apply, if_neg (by omega)]

theorem Daemon.threads_remove (s : Daemon) (t : ℕ) (th : FtpThread) :
    (s.remove t th).threads = s.threads.set t { th with pc := .finished } := by
  unfold Daemon.remove
  dsimp only
  split <;> rfl

theorem Daemon.accesses_remove (s : Daemon) (t : ℕ) (th : FtpThread) :
    (s.remove t th).accesses = s.accesses := by
  unfold Daemon.remove
  dsimp only
  split <;> rfl

theorem Daemon.ClosesMatch.remove {cfg : LuftpdConfig} {s : Daemon} (h : s.ClosesMatch) {t : ℕ}
    {th : FtpThread} (hth : s.threads[t]? = some th) (hpc : th.pc = .removing)
    (hharm : Harmless cfg s (.remove t)) : (s.remove t th).ClosesMatch := by
  intro u uh hu
  have hsame : (s.remove t th).closesOf u = s.closesOf u := by
    rw [Daemon.closesOf, Daemon.accesses_remove, Daemon.closesOf]
  rw [Daemon.threads_remove, getElem?_set_eq hth] at hu
  rw [hsame]
  by_cases hut : u = t
  · subst hut
    rw [if_pos rfl, Option.some.injEq] at hu
    subst hu
    have hone := h u th hth
    rw [hpc] at hone
    exact hone
  · rw [if_neg hut] at hu
    cases halive : uh.pc.alive with
    | false => exact (h u uh hu).of_ended halive _
    | true =>
      rw [hharm.remove_slot hth hut ⟨hu, halive⟩]
      exact h u uh hu

/-! ## The identifiers in the array -/

/-- The identifiers in the used part of the array. -/
def Daemon.arrayIds (s : Daemon) : List Int :=
  (List.range s.clientCount).map fun i => (s.clients i).client.threadId

/-- The identifier a living thread finds behind its pointer. -/
def Daemon.liveId (s : Daemon) (th : FtpThread) : Option Int :=
  if th.pc.alive then some (s.clients th.slot).client.threadId else none

/-- The identifiers in the array are those of the living threads. -/
def Daemon.IdsMatch (s : Daemon) : Prop := s.arrayIds.Perm (s.threads.filterMap s.liveId)

/-- No operation changes the identifier. -/
theorem FtpPc.threadId_advance (cfg : LuftpdConfig) (c : LuftpdClient) (os : OsAnswer)
    (pc : FtpPc) : (pc.advance cfg c os).1.threadId = c.threadId := by
  have hexec : ∀ o : ClientOp, (o.exec c os).1.threadId = c.threadId := by
    intro o
    cases o with
    | clear f => cases f <;> rfl
    | _ => rfl
  cases pc with
  | serving rest =>
    match rest with
    | .done true => rfl
    | .done false => rfl
    | .call o k => exact hexec o
  | closing rest =>
    match rest with
    | .done () => rfl
    | .call o k => exact hexec o
  | removing => rfl
  | finished => rfl

/-- A thread does not end outside the mutex. -/
theorem FtpPc.alive_advance (cfg : LuftpdConfig) (c : LuftpdClient) (os : OsAnswer) {pc : FtpPc}
    (h : pc.running = true) : (pc.advance cfg c os).2.alive = true := by
  cases pc with
  | serving rest =>
    match rest with
    | .done true => rfl
    | .done false => rfl
    | .call o k => rfl
  | closing rest =>
    match rest with
    | .done () => rfl
    | .call o k => rfl
  | removing => cases h
  | finished => cases h

/-- A list with one element replaced. -/
theorem exists_split_set {α : Type} {l : List α} {t : ℕ} {a : α} (h : l[t]? = some a) (b : α) :
    ∃ l₁ l₂, l = l₁ ++ a :: l₂ ∧ l.set t b = l₁ ++ b :: l₂ := by
  obtain ⟨hlt, rfl⟩ := List.getElem?_eq_some_iff.1 h
  obtain ⟨l₁, l₂, hl, -, hset⟩ := @List.exists_of_set _ t b l hlt
  exact ⟨l₁, l₂, hl, hset⟩

theorem Daemon.IdsMatch.advance {s : Daemon} (h : s.IdsMatch) (cfg : LuftpdConfig) {t : ℕ}
    {th : FtpThread} (hth : s.threads[t]? = some th) (hrun : th.pc.running = true) (os : OsAnswer) :
    (s.advance cfg t th os).IdsMatch := by
  have hids : ∀ i, ((s.advance cfg t th os).clients i).client.threadId
      = (s.clients i).client.threadId := by
    intro i
    by_cases hi : i = th.slot
    · subst hi
      simp [Daemon.advance, FtpPc.threadId_advance]
    · simp [Daemon.advance, hi]
  have hlive : (s.advance cfg t th os).liveId = s.liveId := by
    funext uh
    rw [Daemon.liveId, hids, Daemon.liveId]
  have halive : (th.pc.advance cfg (s.clients th.slot).client os).2.alive = th.pc.alive :=
    (FtpPc.alive_advance cfg _ os hrun).trans (FtpPc.alive_of_running hrun).symm
  obtain ⟨l₁, l₂, hl, hset⟩ := exists_split_set hth { th with
      pc := (th.pc.advance cfg (s.clients th.slot).client os).2
      hungUp := th.hungUp || th.pc.hangsUp }
  have hthreads : (s.advance cfg t th os).threads.filterMap s.liveId
      = s.threads.filterMap s.liveId := by
    have hset' : (s.advance cfg t th os).threads = _ := hset
    rw [hset', hl, List.filterMap_append, List.filterMap_append, List.filterMap_cons,
      List.filterMap_cons]
    simp [Daemon.liveId, halive]
  have harray : (s.advance cfg t th os).arrayIds = s.arrayIds :=
    List.map_congr_left fun i _ => hids i
  rw [Daemon.IdsMatch, harray, hlive, hthreads]
  exact h

theorem Daemon.filterMap_liveId_congr {s s' : Daemon} {l : List FtpThread}
    (h : ∀ th ∈ l, th.pc.alive = true →
      (s'.clients th.slot).client.threadId = (s.clients th.slot).client.threadId) :
    l.filterMap s'.liveId = l.filterMap s.liveId := by
  refine List.filterMap_congr fun th hth => ?_
  unfold Daemon.liveId
  split
  · next halive => rw [h th hth halive]
  · rfl

theorem Daemon.IdsMatch.accept {s : Daemon} (h : s.IdsMatch) (cfg : LuftpdConfig) (sock : Int)
    (created : Option Int) (hharm : Harmless cfg s (.accept sock created)) :
    (s.accept cfg sock created).IdsMatch := by
  by_cases hfull : sock < 0 ∨ cfg.maxConnections ≤ s.clientCount
  · have hsame : s.accept cfg sock created = s := if_pos hfull
    rw [hsame]
    exact h
  have hfree : ∀ t th, s.Live t th → th.slot ≠ s.clientCount :=
    (or_assoc.2 hharm).resolve_left hfull
  -- neither the used part of the array nor a living thread is concerned
  have harray : ∀ r : Record, ((List.range s.clientCount).map fun i =>
      (Function.update s.clients s.clientCount r i).client.threadId) = s.arrayIds := by
    refine fun r => List.map_congr_left fun i hi => ?_
    rw [Function.update_of_ne (List.mem_range.1 hi).ne]
  have hlive : ∀ s' : Daemon, ∀ r : Record, s'.clients = Function.update s.clients s.clientCount r →
      s.threads.filterMap s'.liveId = s.threads.filterMap s.liveId := by
    refine fun s' r hclients => Daemon.filterMap_liveId_congr fun th hth halive => ?_
    obtain ⟨t, ht⟩ := List.mem_iff_getElem?.1 hth
    rw [hclients, Function.update_of_ne (hfree t th ⟨ht, halive⟩)]
  unfold Daemon.accept
  rw [if_neg hfull]
  cases created with
  | none =>
    unfold Daemon.IdsMatch Daemon.arrayIds
    dsimp only
    rw [harray, hlive _ _ rfl]
    exact h
  | some threadId =>
    unfold Daemon.IdsMatch Daemon.arrayIds
    dsimp only
    rw [List.range_succ, List.map_append, harray, List.filterMap_append, hlive _ _ rfl]
    simpa [Daemon.liveId, FtpPc.alive, newClient] using List.Perm.append_right [threadId] h

/-- What is left of the array when one record is removed. -/
theorem map_shiftLoop (clients : ℕ → Record) {n i : ℕ} (hi : i < n) :
    ((List.range (n - 1)).map fun k => (shiftLoop clients (n - 1 - i) i k).client.threadId)
      = ((List.range n).map fun k => (clients k).client.threadId).eraseIdx i := by
  refine List.ext_getElem ?_ fun k hk _ => ?_
  · rw [List.length_map, List.length_range, List.length_eraseIdx_of_lt (by simpa using hi),
      List.length_map, List.length_range]
  · rw [List.length_map, List.length_range] at hk
    rw [List.getElem_eraseIdx, List.getElem_map, List.getElem_range, shiftLoop_apply]
    by_cases hlt : k < i
    · rw [if_neg (by omega), dif_pos hlt]
      simp
    · rw [if_pos (by omega), dif_neg hlt]
      simp

/-- The array after a removal. -/
theorem Daemon.arrayIds_remove {s : Daemon} {t : ℕ} {th : FtpThread} {i : ℕ}
    (hfind : s.find (s.clients th.slot).client.threadId = some i) :
    (s.remove t th).arrayIds = s.arrayIds.eraseIdx i := by
  have hremove : s.remove t th = ⟨shiftLoop s.clients (s.clientCount - 1 - i) i,
      s.clientCount - 1, s.threads.set t { th with pc := .finished }, s.accesses⟩ := by
    unfold Daemon.remove
    rw [hfind]
  rw [hremove]
  exact map_shiftLoop s.clients (Daemon.find_lt hfind)

/-- The living threads after a removal. -/
theorem Harmless.liveIds_remove {cfg : LuftpdConfig} {s : Daemon} {t : ℕ} {th : FtpThread}
    (hharm : Harmless cfg s (.remove t)) (hth : s.threads[t]? = some th) :
    (s.remove t th).threads.filterMap (s.remove t th).liveId
      = (s.threads.set t { th with pc := .finished }).filterMap s.liveId := by
  rw [Daemon.threads_remove]
  refine Daemon.filterMap_liveId_congr fun uh huh halive => ?_
  obtain ⟨u, hu⟩ := List.mem_iff_getElem?.1 huh
  rw [getElem?_set_eq hth] at hu
  by_cases hut : u = t
  · rw [if_pos hut, Option.some.injEq] at hu
    subst hu
    cases halive
  · rw [if_neg hut] at hu
    rw [hharm.remove_slot hth hut ⟨hu, halive⟩]

theorem Daemon.IdsMatch.remove {cfg : LuftpdConfig} {s : Daemon} (h : s.IdsMatch) {t : ℕ}
    {th : FtpThread} (hth : s.threads[t]? = some th) (hpc : th.pc = .removing)
    (hharm : Harmless cfg s (.remove t)) : (s.remove t th).IdsMatch := by
  have hself : s.liveId th = some (s.clients th.slot).client.threadId := by
    simp [Daemon.liveId, hpc, FtpPc.alive]
  obtain ⟨l₁, l₂, hl, hset⟩ := exists_split_set hth { th with pc := .finished }
  have hthreads : (s.threads.filterMap s.liveId).Perm ((s.clients th.slot).client.threadId ::
      (s.threads.set t { th with pc := .finished }).filterMap s.liveId) := by
    rw [hset, hl, List.filterMap_append, List.filterMap_append, List.filterMap_cons, hself,
      List.filterMap_cons]
    exact List.perm_middle
  -- the thread finds a record with its identifier
  have hmem : (s.clients th.slot).client.threadId ∈ s.arrayIds :=
    h.mem_iff.2 (hthreads.mem_iff.2 List.mem_cons_self)
  obtain ⟨j, hj, hid⟩ := List.mem_map.1 hmem
  rw [Daemon.IdsMatch, hharm.liveIds_remove hth]
  cases hfind : s.find (s.clients th.slot).client.threadId with
  | none =>
    have hnone := List.find?_eq_none.1 hfind j hj
    exact absurd hid (by simpa using hnone)
  | some i =>
    have hlen : i < s.arrayIds.length := by simpa [Daemon.arrayIds] using Daemon.find_lt hfind
    have hget : s.arrayIds[i] = (s.clients th.slot).client.threadId := by
      simpa [Daemon.arrayIds] using List.find?_some hfind
    have hperm := (List.getElem_cons_eraseIdx_perm hlen).trans (h.trans hthreads)
    rw [hget] at hperm
    rw [Daemon.arrayIds_remove hfind]
    exact hperm.cons_inv

/-! ## Runs without a shared record -/

/-- The threads are isolated, and the books are right. -/
structure Booked (s : Daemon) : Prop where
  isolated : Isolated s
  behind : Behind s
  closes : s.ClosesMatch
  ids : s.IdsMatch

theorem booked_start (memory : ℕ → LuftpdClient) : Booked (.start memory) where
  isolated := .start memory
  behind := .start memory
  closes t th hth := by simp [Daemon.start] at hth
  ids := by simp [Daemon.IdsMatch, Daemon.arrayIds, Daemon.start]

/-- A harmless step keeps the books right. -/
theorem Booked.step {cfg : LuftpdConfig} {s s' : Daemon} {e : DaemonEvent} (h : Booked s)
    (hs : ((daemonSystem cfg).restrict (Harmless cfg)).step s e s') : Booked s' := by
  obtain ⟨hharm, hs⟩ := hs
  have hisolated : Isolated s' := (h.isolated.step_iff h.behind hs).2 hharm
  have hbehind : Behind s' := h.behind.step hs
  obtain ⟨sock, created, rfl, rfl⟩ | ⟨t, os, th, rfl, hth, hrun, rfl⟩ |
    ⟨t, th, rfl, hth, hpc, rfl⟩ := Daemon.step_cases hs
  · exact ⟨hisolated, hbehind, h.closes.accept h.isolated cfg sock created hharm,
      h.ids.accept cfg sock created hharm⟩
  · exact ⟨hisolated, hbehind, h.closes.advance h.isolated cfg hth hrun os,
      h.ids.advance cfg hth hrun os⟩
  · exact ⟨hisolated, hbehind, h.closes.remove hth hpc hharm, h.ids.remove hth hpc hharm⟩

/-- Each of the closed sockets was handed to the thread that has closed it. -/
theorem Isolated.control_of_closes {s : Daemon} (h : Isolated s) {a : Access}
    (ha : a ∈ s.accesses.filter Access.closes) :
    ∃ th, s.threads[a.thread]? = some th ∧ a.control = th.sock := by
  obtain ⟨hmem, hcloses⟩ := List.mem_filter.1 ha
  obtain ⟨-, th, hth, hcontrol⟩ := h.accesses a hmem
  have hopen : a.control ≠ -1 := by
    rw [Access.closes, ClientOp.closesAt, Bool.and_eq_true] at hcloses
    simpa using hcloses.2
  exact ⟨th, hth, hcontrol.resolve_right hopen⟩

/-- When all threads have ended, each of them has closed one control connection. -/
theorem Booked.closesOf_eq_one {s : Daemon} (h : Booked s) (hend : s.Quiescent) {t : ℕ}
    (ht : t < s.threads.length) : s.closesOf t = 1 := by
  have hth : s.threads[t]? = some s.threads[t] := List.getElem?_eq_getElem ht
  have hpc := h.closes t _ hth
  have hdead := hend _ (List.mem_of_getElem? hth)
  cases hcase : s.threads[t].pc with
  | serving rest => rw [hcase] at hdead; cases hdead
  | closing rest => rw [hcase] at hdead; cases hdead
  | removing => rw [hcase] at hdead; cases hdead
  | finished =>
    rw [hcase] at hpc
    exact hpc

theorem Booked.accounted {s : Daemon} (h : Booked s) (hend : s.Quiescent) : Accounted s := by
  constructor
  · have hnone : s.threads.filterMap s.liveId = [] :=
      List.filterMap_eq_nil_iff.2 fun th hth => by simp [Daemon.liveId, hend th hth]
    have hlen := h.ids.length_eq
    rw [hnone] at hlen
    simpa [Daemon.arrayIds] using hlen
  · -- each thread occurs once among those that have closed a control connection
    have hthreads : ((s.accesses.filter Access.closes).map Access.thread).Perm
        (List.range s.threads.length) := by
      have hlt : ∀ t ∈ (s.accesses.filter Access.closes).map Access.thread,
          t < s.threads.length := by
        intro t ht
        obtain ⟨a, ha, rfl⟩ := List.mem_map.1 ht
        obtain ⟨th, hth, -⟩ := h.isolated.control_of_closes ha
        exact (List.getElem?_eq_some_iff.1 hth).1
      have hone : ∀ t, t < s.threads.length →
          ((s.accesses.filter Access.closes).map Access.thread).count t = 1 :=
        fun t ht => h.closesOf_eq_one hend ht
      refine (List.perm_ext_iff_of_nodup ?_ List.nodup_range).2 fun t => ?_
      · exact List.nodup_iff_count_eq_one.2 fun t ht => hone t (hlt t ht)
      · rw [List.mem_range]
        refine ⟨hlt t, fun ht => List.count_pos_iff.1 ?_⟩
        rw [hone t ht]
        exact Nat.one_pos
    have hclosed : s.closed = ((s.accesses.filter Access.closes).map Access.thread).map
        fun t => (s.threads[t]?.map FtpThread.sock).getD 0 := by
      rw [Daemon.closed, List.map_map]
      refine List.map_congr_left fun a ha => ?_
      obtain ⟨th, hth, hcontrol⟩ := h.isolated.control_of_closes ha
      simp [hth, hcontrol]
    have hhanded : (List.range s.threads.length).map
        (fun t => (s.threads[t]?.map FtpThread.sock).getD 0) = s.threads.map FtpThread.sock := by
      refine List.ext_getElem (by simp) fun t ht _ => ?_
      rw [List.length_map, List.length_range] at ht
      simp [ht]
    rw [hclosed, ← hhanded]
    exact hthreads.map _

/-- **Without a shared record the books are right**: whenever all threads have ended, every slot is
free, the closed control sockets are those handed to the threads, and the next client is let in. -/
theorem accounted_of_harmless (cfg : LuftpdConfig) (memory : ℕ → LuftpdClient)
    (es : List DaemonEvent) (s : Daemon)
    (hrun : ((daemonSystem cfg).restrict (Harmless cfg)).Run (.start memory) es s)
    (hend : s.Quiescent) :
    Accounted s ∧ (0 < cfg.maxConnections → ∀ sock threadId, 0 ≤ sock →
      (s.accept cfg sock (some threadId)).clientCount = 1) := by
  have hbooked : Booked s :=
    hrun.invariant Booked (booked_start memory) fun _ _ _ ht hs => ht.step hs
  have hacc := hbooked.accounted hend
  refine ⟨hacc, fun hmax sock threadId hsock => ?_⟩
  have hroom : ¬ (sock < 0 ∨ cfg.maxConnections ≤ (s.clientCount : Int)) := by
    rw [hacc.count]
    omega
  unfold Daemon.accept
  rw [if_neg hroom, hacc.count]

/-- All threads that have not ended pass a test. -/
def Daemon.allLive (s : Daemon) (test : ℕ → FtpThread → Bool) : Bool :=
  s.threads.zipIdx.all fun p => !p.1.pc.alive || test p.2 p.1

theorem Daemon.of_allLive {s : Daemon} {test : ℕ → FtpThread → Bool} (h : s.allLive test = true)
    {t : ℕ} {th : FtpThread} (hlive : s.Live t th) : test t th = true := by
  have hmem : (th, t) ∈ s.threads.zipIdx := List.mem_zipIdx_iff_getElem?.2 hlive.1
  have htest := List.all_eq_true.1 h _ hmem
  rwa [hlive.2, Bool.not_true, Bool.false_or] at htest

/-- A test for harmless steps, which does not look at the limit on connections. -/
def harmlessTest (s : Daemon) : DaemonEvent → Bool
  | .accept _ _ => s.allLive fun _ th => th.slot != s.clientCount
  | .advance _ _ => true
  | .remove t => s.threads[t]?.all fun th =>
    (s.find (s.clients th.slot).client.threadId).all fun i =>
      s.allLive fun u uh => u == t || !decide (i ≤ uh.slot ∧ uh.slot + 1 < s.clientCount)

theorem harmless_of_test (cfg : LuftpdConfig) {s : Daemon} {e : DaemonEvent}
    (h : harmlessTest s e = true) : Harmless cfg s e := by
  rcases e with ⟨sock, created⟩ | ⟨t, os⟩ | t
  · rw [harmlessTest] at h
    exact .inr (.inr fun t th hlive => by simpa using s.of_allLive h hlive)
  · trivial
  · intro th i hth hfind u uh hne hlive hbetween
    rw [harmlessTest, hth, Option.all_some, hfind, Option.all_some] at h
    have htest := s.of_allLive h hlive
    rw [decide_eq_true hbetween, Bool.not_true, Bool.or_false, beq_iff_eq] at htest
    exact hne htest

/-- A step that passes the test. -/
def harmlessStep (cfg : LuftpdConfig) (s : Daemon) (e : DaemonEvent) : Option Daemon :=
  if harmlessTest s e then s.step cfg e else none

theorem harmlessStep_harmless (cfg : LuftpdConfig) (s : Daemon) (e : DaemonEvent) (s' : Daemon)
    (h : harmlessStep cfg s e = some s') :
    ((daemonSystem cfg).restrict (Harmless cfg)).step s e s' := by
  rw [harmlessStep] at h
  split_ifs at h with htest
  exact ⟨harmless_of_test cfg htest, h⟩

/-- What the operating system answers to a client that goes away without a word. -/
def goneAnswer : OsAnswer := { ret := 0, fs := .ofTable [] }

/-- So many steps of the thread of a client that is gone. -/
def goneSteps (t steps : ℕ) : List DaemonEvent := List.replicate steps (.advance t goneAnswer)

/-- Two clients connect, and the second goes away before the first. -/
theorem accounted_last_in_first_out : ∃ (es : List DaemonEvent) (s : Daemon),
    ((daemonSystem defaultConfig).restrict (Harmless defaultConfig)).Run
        (.start fun _ => newClient (-1) 0) es s ∧
      s.threads.map FtpThread.sock = [4, 5] ∧ Accounted s := by
  obtain ⟨s, hrun, hs⟩ := System.Run.of_exec
    (S := (daemonSystem defaultConfig).restrict (Harmless defaultConfig))
    (harmlessStep defaultConfig) (harmlessStep_harmless defaultConfig)
    (fun s => decide (s.threads.map FtpThread.sock = [4, 5]) &&
      s.threads.all fun th => !th.pc.alive)
    (.start fun _ => newClient (-1) 0)
    ([DaemonEvent.accept 4 (some 1001), .accept 5 (some 1002)] ++ goneSteps 1 12 ++
      [DaemonEvent.remove 1] ++ goneSteps 0 12 ++ [DaemonEvent.remove 0])
    (by decide +kernel)
  rw [Bool.and_eq_true, decide_eq_true_eq, List.all_eq_true] at hs
  have hend : s.Quiescent := fun th hth => by simpa using hs.2 th hth
  exact ⟨_, s, hrun, hs.1, (accounted_of_harmless defaultConfig _ _ s hrun hend).1⟩

/-- **A slot is lost, and a socket is never closed**: A and B connect, A leaves, C connects and gets
the record that B still works on; then B and C leave. -/
theorem slot_lost : ∃ s, (daemonSystem defaultConfig).Reachable s ∧ s.Quiescent ∧
    s.clientCount = 1 ∧ s.threads.map FtpThread.sock = [4, 5, 6] ∧ s.closed = [4, 6] := by
  obtain ⟨s, hrun, hs⟩ := System.Run.of_exec (S := daemonSystem defaultConfig)
    (Daemon.step defaultConfig) (fun _ _ _ h => h)
    (fun s => decide (s.clientCount = 1 ∧ s.threads.map FtpThread.sock = [4, 5, 6] ∧
      s.closed = [4, 6]) && s.threads.all fun th => !th.pc.alive)
    (.start fun _ => newClient (-1) 0)
    ([DaemonEvent.accept 4 (some 1001), .accept 5 (some 1002)] ++ goneSteps 0 12 ++
      [DaemonEvent.remove 0, .accept 6 (some 1003)] ++ goneSteps 1 12 ++
      [DaemonEvent.remove 1] ++ goneSteps 2 9 ++ [DaemonEvent.remove 2])
    (by decide +kernel)
  rw [Bool.and_eq_true, decide_eq_true_eq, List.all_eq_true] at hs
  exact ⟨s, ⟨_, _, ⟨_, rfl⟩, hrun⟩, fun th hth => by simpa using hs.2 th hth, hs.1⟩

end Lucp.Luftpd
