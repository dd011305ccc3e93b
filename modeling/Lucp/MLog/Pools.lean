import Lucp.General.Pool
import Lucp.Lucfg.Load
import Lucp.MLog.Serialize

/-!
# The pools

A client keeps its connections in a `ConnectionPool` and its frames in a `LogFramePool`.  Several
threads use them at the same time.  `connection_pool_acquire()` connects when it has found the pool
empty, without the mutex and whatever the pool holds by then; `connection_pool_release()` closes
what does not fit, and neither looks at whether a connection still works.  The frame that
`log_frame_pool_acquire()` reuses is reset, but for its `max_frame_size`.

## What is here

* `connectionPoolTake`, `connectionPoolAcquire`, `connectionPoolRelease`, `connectionSystem` — the
  connections and the threads that use them.
* `connections_balanced` — **every open connection** is used by one thread or pooled.
* `connections_kept` — **a client with few threads** that have a connection or are about to never
  gets rid of one.
* `logFramePoolAcquire`, `logFramePoolRelease`, `frameSystem` — the frames and the threads.
* `pooled_frame_eq` — **a frame from the pool** is as a new one, but for a limit that may be old.
-/

set_option autoImplicit false

namespace Lucp.MLog

/-! ## Connections -/

/-- `ConnectionPool`: the sockets, and how many there may be. -/
abbrev ConnectionPool (capacity : ℕ) : Type := Pool ℕ capacity

/-- What `connection_pool_acquire()` does under the mutex: it takes a socket from the pool, if there
is one. -/
def connectionPoolTake {capacity : ℕ} (pool : ConnectionPool capacity) :
    Option ℕ × ConnectionPool capacity :=
  pool.acquire.elim (none, pool) fun r => (some r.1, r.2)

/-- `connection_pool_acquire()`, with the result that `log_protocol_connect()` would have, as long
as no other thread uses the pool between the two. -/
def connectionPoolAcquire {capacity : ℕ} (pool : ConnectionPool capacity) (connect : Option ℕ) :
    Option ℕ × ConnectionPool capacity :=
  let taken := connectionPoolTake pool
  (taken.1.or connect, taken.2)

/-- `connection_pool_release()`, for a valid socket: the pool, and the socket that it closes. -/
def connectionPoolRelease {capacity : ℕ} (pool : ConnectionPool capacity) (sockfd : ℕ) :
    ConnectionPool capacity × Option ℕ :=
  (pool.release sockfd, if pool.items.length < capacity then none else some sockfd)

/-- What the threads do with the connections. -/
inductive ConnectionEvent
  /-- A thread gets a connection of the pool. -/
  | reuses (sockfd : ℕ)
  /-- A thread finds the pool empty, and unlocks it. -/
  | looks
  /-- `log_protocol_connect()` of such a thread returns a connection. -/
  | connects (sockfd : ℕ)
  /-- `log_protocol_connect()` of such a thread fails. -/
  | fails
  | releases (sockfd : ℕ)
  deriving DecidableEq

/-- One turn under the mutex, or one call to `log_protocol_connect()`, with the connections that are
open and the number of threads between the two.  The kernel gives out no descriptor that is open,
and a thread releases what it has acquired. -/
inductive ConnectionStep {capacity : ℕ} :
    Pool.Usage ℕ capacity → ConnectionEvent → Pool.Usage ℕ capacity → Prop
  | reuse {s : Pool.Usage ℕ capacity} {sockfd : ℕ} {pool : ConnectionPool capacity}
      (h : connectionPoolTake s.pool = (some sockfd, pool)) :
      ConnectionStep s (.reuses sockfd) ⟨pool, sockfd :: s.held, s.alive, s.making⟩
  | look {s : Pool.Usage ℕ capacity} {pool : ConnectionPool capacity}
      (h : connectionPoolTake s.pool = (none, pool)) :
      ConnectionStep s .looks ⟨pool, s.held, s.alive, s.making + 1⟩
  | connect {s : Pool.Usage ℕ capacity} {sockfd : ℕ} (hlooked : 0 < s.making)
      (hnew : sockfd ∉ s.alive) :
      ConnectionStep s (.connects sockfd)
        ⟨s.pool, sockfd :: s.held, sockfd :: s.alive, s.making - 1⟩
  | fail {s : Pool.Usage ℕ capacity} (hlooked : 0 < s.making) :
      ConnectionStep s .fails { s with making := s.making - 1 }
  | release {s : Pool.Usage ℕ capacity} {sockfd : ℕ} {pool : ConnectionPool capacity}
      {closed : Option ℕ} (hheld : sockfd ∈ s.held)
      (h : connectionPoolRelease s.pool sockfd = (pool, closed)) :
      ConnectionStep s (.releases sockfd)
        ⟨pool, s.held.erase sockfd, closed.elim s.alive s.alive.erase, s.making⟩

/-- A pool of connections and its threads. -/
def connectionSystem (capacity : ℕ) : System (Pool.Usage ℕ capacity) ConnectionEvent where
  init s := s = Pool.Usage.fresh ℕ capacity
  step := ConnectionStep

/-- What a turn is to the pool. -/
def ConnectionEvent.use : ConnectionEvent → Pool.Use ℕ
  | .reuses sockfd => .takes sockfd
  | .looks => .looks
  | .connects sockfd => .makes sockfd
  | .fails => .fails
  | .releases sockfd => .returns sockfd

/-- **One turn** is one use of the pool. -/
theorem ConnectionStep.use {capacity : ℕ} {s s' : Pool.Usage ℕ capacity} {e : ConnectionEvent}
    (h : ConnectionStep s e s') : Pool.UseStep s e.use s' := by
  rcases h with ⟨hget⟩ | ⟨hget⟩ | ⟨hlooked, hnew⟩ | ⟨hlooked⟩ | ⟨hheld, hput⟩
  · rw [connectionPoolTake] at hget
    rcases hpool : s.pool.acquire with _ | ⟨taken, rest⟩
    · rw [hpool] at hget
      cases congrArg Prod.fst hget
    · rw [hpool] at hget
      obtain ⟨hfd, rfl⟩ := Prod.mk.inj hget
      obtain rfl := Option.some.inj hfd
      exact .take hpool
  · rw [connectionPoolTake] at hget
    rcases hpool : s.pool.acquire with _ | taken
    · rw [hpool] at hget
      obtain ⟨-, rfl⟩ := Prod.mk.inj hget
      exact .look hpool
    · rw [hpool] at hget
      cases congrArg Prod.fst hget
  · exact .make hlooked hnew
  · exact .fail hlooked
  · obtain ⟨rfl, rfl⟩ := Prod.mk.inj hput
    by_cases hroom : s.pool.items.length < capacity
    · rw [if_pos hroom]
      exact .keep hheld hroom
    · rw [if_neg hroom]
      exact .destroy hheld hroom

/-- **The connections**, whatever the threads do and in whatever order: every open connection is
pooled or used by one thread only, nobody has a connection that is closed, and no open connection is
forgotten. -/
theorem connections_balanced {capacity : ℕ} {s : Pool.Usage ℕ capacity} {es : List ConnectionEvent}
    (h : (connectionSystem capacity).Run (Pool.Usage.fresh ℕ capacity) es s) :
    s.alive.Perm (s.held ++ s.pool.items) ∧ (s.held ++ s.pool.items).Nodup ∧
      s.pool.items.length ≤ capacity := by
  have hrun : (Pool.usage ℕ capacity).Run (Pool.Usage.fresh ℕ capacity)
      (es.map ConnectionEvent.use) s :=
    h.map ConnectionEvent.use fun _ _ _ hs => ConnectionStep.use hs
  obtain ⟨hperm, hnodup⟩ := Pool.usage_balanced hrun
  exact ⟨hperm, hnodup, s.pool.fits⟩

/-- The connections that were made. -/
def connected (es : List ConnectionEvent) : List ℕ :=
  es.filterMap fun
    | .connects sockfd => some sockfd
    | .reuses _ | .looks | .fails | .releases _ => none

theorem made_map_use (es : List ConnectionEvent) :
    Pool.made (es.map ConnectionEvent.use) = connected es := by
  rw [Pool.made, List.filterMap_map, connected]
  congr 1
  funext e
  cases e <;> rfl

/-- **A client that never has more threads with a connection, or on their way to one, than the pool
has room for** connects at most that often, and never closes a connection: one that has failed is
pooled, and used again. -/
theorem connections_kept {capacity : ℕ} {s : Pool.Usage ℕ capacity} {es : List ConnectionEvent}
    (h : ((connectionSystem capacity).within fun t => t.held.length + t.making ≤ capacity).Run
      (Pool.Usage.fresh ℕ capacity) es s) :
    (connected es).Perm (s.held ++ s.pool.items) ∧ (connected es).length ≤ capacity := by
  have hstep : ∀ s e s', ((connectionSystem capacity).within fun t =>
      t.held.length + t.making ≤ capacity).step s e s' →
      ((Pool.usage ℕ capacity).within Pool.Roomy).step s (ConnectionEvent.use e) s' :=
    fun _ _ _ hs => ⟨hs.1, ConnectionStep.use hs.2⟩
  rw [← made_map_use]
  exact Pool.usage_kept (h.map ConnectionEvent.use hstep)

/-- A thread connects while another is about to, and one of the two connections is used again. -/
theorem used_twice : ((connectionSystem 2).within fun t => t.held.length + t.making ≤ 2).Run
    (Pool.Usage.fresh ℕ 2)
    [.looks, .looks, .connects 5, .releases 5, .connects 6, .releases 6, .reuses 6]
    ⟨⟨[5], by decide⟩, [6], [6, 5], 0⟩ :=
  .cons ⟨by decide, .look rfl⟩ (.cons ⟨by decide, .look rfl⟩
    (.cons ⟨by decide, .connect (by decide) (by decide)⟩
    (.cons ⟨by decide, .release (by decide) rfl⟩
    (.cons ⟨by decide, .connect (by decide) (by decide)⟩
    (.cons ⟨by decide, .release (by decide) rfl⟩ (.cons ⟨by decide, .reuse rfl⟩ (.nil _)))))))

theorem connections_kept_twice :
    (connected [.looks, .looks, .connects 5, .releases 5, .connects 6, .releases 6,
      .reuses 6]).Perm ([6] ++ [5]) :=
  (connections_kept used_twice).1

/-- With room for one, two threads can both connect though at no time both have a connection: the
one that is put back second is closed. -/
theorem connections_balanced_one : [5].Perm ([] ++ [5]) :=
  (connections_balanced (show (connectionSystem 1).Run (Pool.Usage.fresh ℕ 1)
    [.looks, .connects 5, .looks, .releases 5, .connects 6, .releases 6]
    ⟨⟨[5], by decide⟩, [], [5], 0⟩ from
      .cons (.look rfl) (.cons (.connect (by decide) (by decide)) (.cons (.look rfl)
        (.cons (.release (by decide) rfl) (.cons (.connect (by decide) (by decide))
          (.cons (.release (by decide) rfl) (.nil _)))))))).1

/-! ## Frames -/

/-- `LogFramePool`, with `FRAME_POOL_SIZE` frames. -/
abbrev LogFramePool : Type := Pool LogFrame 32

/-- `log_frame_pool_acquire()`. -/
def logFramePoolAcquire (host : ByteOrder) (pool : LogFramePool) (config : LogProtocolConfig)
    (mtyp : MessageType) (sequence : UInt16) (statusCode : UInt8) (now : LogTimestamp) :
    LogFrame × LogFramePool :=
  pool.acquire.elim (logFrameCreate host config mtyp sequence statusCode now, pool) fun r =>
    ({ r.1 with header := newHeader host mtyp sequence statusCode now, tlvs := [], rawData := [] },
      r.2)

/-- `log_frame_pool_release()`. -/
def logFramePoolRelease (pool : LogFramePool) (frame : LogFrame) : LogFramePool :=
  pool.release { frame with tlvs := [], rawData := [] }

/-- A pool of frames, and the frames that the threads have. -/
structure FrameUsage where
  pool : LogFramePool
  held : List LogFrame

/-- What the threads do with the frames: they acquire one, build it, and put it back or give it
away. -/
inductive FrameEvent
  | acquires (config : LogProtocolConfig) (mtyp : MessageType) (sequence : UInt16)
    (statusCode : UInt8) (now : LogTimestamp) (frame : LogFrame)
  | builds (frame : LogFrame) (calls : List FrameCall)
  | releases (frame : LogFrame)
  | frees (frame : LogFrame)

/-- The frames of one pool. -/
def frameSystem (host : ByteOrder) (block : (n : ℕ) → CArray UInt8 n) :
    System FrameUsage FrameEvent where
  init s := s = ⟨Pool.empty LogFrame 32, []⟩
  step s e s' :=
    match e with
    | .acquires config mtyp sequence statusCode now frame =>
      logFramePoolAcquire host s.pool config mtyp sequence statusCode now = (frame, s'.pool) ∧
        s'.held = frame :: s.held
    | .builds frame calls =>
      frame ∈ s.held ∧ s' = { s with held := callAll host block frame calls :: s.held.erase frame }
    | .releases frame =>
      frame ∈ s.held ∧ s' = ⟨logFramePoolRelease s.pool frame, s.held.erase frame⟩
    | .frees frame => frame ∈ s.held ∧ s' = { s with held := s.held.erase frame }

/-- The limits of the configurations that were used. -/
def usedLimits (es : List FrameEvent) : List ℕ :=
  es.filterMap fun
    | .acquires config _ _ _ _ _ => some config.maxFrameSize
    | .builds _ _ | .releases _ | .frees _ => none

/-- Every frame has the limit of some configuration. -/
def Limited (es : List FrameEvent) (s : FrameUsage) : Prop :=
  ∀ frame ∈ s.held ++ s.pool.items, frame.maxFrameSize ∈ usedLimits es

/-- A frame of the pool is as a new one, but for its limit. -/
theorem logFramePoolAcquire_cases {host : ByteOrder} {pool pool' : LogFramePool}
    {config : LogProtocolConfig} {mtyp : MessageType} {sequence : UInt16} {statusCode : UInt8}
    {now : LogTimestamp} {frame : LogFrame}
    (h : logFramePoolAcquire host pool config mtyp sequence statusCode now = (frame, pool')) :
    (frame = logFrameCreate host config mtyp sequence statusCode now ∧ pool' = pool) ∨
      ∃ old, pool.items = old :: pool'.items ∧
        frame = logFrameCreate host { config with maxFrameSize := old.maxFrameSize } mtyp sequence
          statusCode now := by
  rw [logFramePoolAcquire] at h
  by_cases hpool : pool.items = []
  · rw [Pool.acquire_eq_none_iff.2 hpool] at h
    obtain ⟨rfl, rfl⟩ := Prod.mk.inj h
    exact .inl ⟨rfl, rfl⟩
  · obtain ⟨⟨old, rest⟩, hr⟩ := Pool.exists_acquire hpool
    rw [hr] at h
    obtain ⟨rfl, rfl⟩ := Prod.mk.inj h
    exact .inr ⟨old, Pool.acquire_eq_some hr, rfl⟩

theorem usedLimits_snoc (es : List FrameEvent) (e : FrameEvent) :
    usedLimits (es ++ [e]) = usedLimits es ++ usedLimits [e] := List.filterMap_append

/-- Calls do not change the limit of a frame. -/
theorem maxFrameSize_callAll (host : ByteOrder) (block : (n : ℕ) → CArray UInt8 n)
    (frame : LogFrame) (calls : List FrameCall) :
    (callAll host block frame calls).maxFrameSize = frame.maxFrameSize :=
  @callAll_keeps (fun f => f.maxFrameSize = frame.maxFrameSize) (fun _ _ hf _ => hf)
    (fun _ _ hf => hf) _ _ _ rfl calls

/-- **One step** uses no other limits. -/
theorem Limited.step {host : ByteOrder} {block : (n : ℕ) → CArray UInt8 n} {es : List FrameEvent}
    {e : FrameEvent} {s s' : FrameUsage} (h : Limited es s)
    (hstep : (frameSystem host block).step s e s') : Limited (es ++ [e]) s' := by
  have hold : ∀ frame, frame ∈ s.held ∨ frame ∈ s.pool.items →
      frame.maxFrameSize ∈ usedLimits (es ++ [e]) := fun frame hmem => by
    rw [usedLimits_snoc]
    exact List.mem_append_left _ (h frame (List.mem_append.2 hmem))
  intro frame hmem
  rcases e with ⟨config, mtyp, sequence, statusCode, now, new⟩ | ⟨old, calls⟩ | old | old
  · obtain ⟨hget, hheld⟩ := hstep
    rw [hheld, List.cons_append, List.mem_cons, List.mem_append] at hmem
    rcases logFramePoolAcquire_cases hget with ⟨rfl, hpool⟩ | ⟨old, hitems, rfl⟩
    · rcases hmem with rfl | hmem | hmem
      · rw [usedLimits_snoc]
        exact List.mem_append_right _ List.mem_cons_self
      · exact hold frame (.inl hmem)
      · exact hold frame (.inr (hpool ▸ hmem))
    · rcases hmem with rfl | hmem | hmem
      · exact hold old (.inr (hitems ▸ List.mem_cons_self))
      · exact hold frame (.inl hmem)
      · exact hold frame (.inr (hitems ▸ List.mem_cons_of_mem _ hmem))
  · obtain ⟨hheld, rfl⟩ := hstep
    rw [List.cons_append, List.mem_cons, List.mem_append] at hmem
    rcases hmem with rfl | hmem | hmem
    · rw [maxFrameSize_callAll]
      exact hold old (.inl hheld)
    · exact hold frame (.inl (List.mem_of_mem_erase hmem))
    · exact hold frame (.inr hmem)
  · obtain ⟨hheld, rfl⟩ := hstep
    rcases List.mem_append.1 hmem with hmem | hmem
    · exact hold frame (.inl (List.mem_of_mem_erase hmem))
    · rcases Pool.mem_release hmem with rfl | hmem
      · exact hold old (.inl hheld)
      · exact hold frame (.inr hmem)
  · obtain ⟨hheld, rfl⟩ := hstep
    rcases List.mem_append.1 hmem with hmem | hmem
    · exact hold frame (.inl (List.mem_of_mem_erase hmem))
    · exact hold frame (.inr hmem)

/-- **A frame from the pool** is as a new one for a configuration with a limit that has been used
before, and so as a new one for the same configuration as long as its limit has not changed. -/
theorem pooled_frame_eq {host : ByteOrder} {block : (n : ℕ) → CArray UInt8 n} {s : FrameUsage}
    {es : List FrameEvent} (h : (frameSystem host block).Run ⟨Pool.empty LogFrame 32, []⟩ es s)
    {fs gs : List FrameEvent} {config : LogProtocolConfig} {mtyp : MessageType} {sequence : UInt16}
    {statusCode : UInt8} {now : LogTimestamp} {frame : LogFrame}
    (hes : es = fs ++ .acquires config mtyp sequence statusCode now frame :: gs) :
    (∃ limit ∈ config.maxFrameSize :: usedLimits fs,
        frame = logFrameCreate host { config with maxFrameSize := limit } mtyp sequence statusCode
          now) ∧
      ((∀ limit ∈ usedLimits fs, limit = config.maxFrameSize) →
        frame = logFrameCreate host config mtyp sequence statusCode now) := by
  subst hes
  obtain ⟨t, hbefore, hafter⟩ := h.split
  have hlimited : Limited fs t := hbefore.invariant_of (fun _ _ => True) Limited
    (fun _ hmem => absurd hmem List.not_mem_nil) (fun _ _ _ _ _ hi _ hs => hi.step hs)
    fun _ _ _ _ _ _ => trivial
  rcases hafter with _ | ⟨hstep, -⟩
  rcases logFramePoolAcquire_cases hstep.1 with ⟨rfl, -⟩ | ⟨old, hitems, rfl⟩
  · exact ⟨⟨_, List.mem_cons_self, rfl⟩, fun _ => rfl⟩
  · have hold : old.maxFrameSize ∈ usedLimits fs :=
      hlimited old (List.mem_append_right _ (hitems ▸ List.mem_cons_self))
    exact ⟨⟨_, List.mem_cons_of_mem _ hold, rfl⟩, fun hall => by rw [hall _ hold]⟩

/-- A configuration with a limit of 100 bytes. -/
def smallConfig : LogProtocolConfig := ⟨Lucfg.strdup [], .info, 100⟩

/-- A frame is acquired, put back, and acquired again after the limit has become smaller. -/
theorem pooled_frame_stale :
    let frame := logFrameCreate .little smallConfig .singleLog 0 0 ⟨0, 0⟩
    ∃ limit ∈ [50, 100],
      frame = logFrameCreate .little { smallConfig with maxFrameSize := limit } .singleLog 0 0
        ⟨0, 0⟩ := by
  intro frame
  have hrun : (frameSystem .little fun n => CArray.fill n 0).Run ⟨Pool.empty LogFrame 32, []⟩
      [.acquires smallConfig .singleLog 0 0 ⟨0, 0⟩ frame, .releases frame,
        .acquires { smallConfig with maxFrameSize := 50 } .singleLog 0 0 ⟨0, 0⟩ frame]
      ⟨Pool.empty LogFrame 32, [frame]⟩ :=
    .cons (show (frameSystem _ _).step _ _ ⟨Pool.empty LogFrame 32, [frame]⟩ from ⟨rfl, rfl⟩)
      (.cons (show (frameSystem _ _).step _ _ ⟨⟨[frame], by decide⟩, []⟩ from
        ⟨List.mem_cons_self, by simp [logFramePoolRelease, Pool.release, Pool.empty]; rfl⟩)
        (.single ⟨rfl, rfl⟩))
  exact (@pooled_frame_eq _ _ _ _ hrun [_, _] [] _ _ _ _ _ _ rfl).1

end Lucp.MLog
