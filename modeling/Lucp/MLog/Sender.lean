import Lucp.MLog.Queue

/-!
# The sender in the background

`log_protocol_start_async_sender()` starts a thread that takes the frames out of a queue and sends
them over a connection of its own; `log_protocol_stop_async_sender()` sets `shutdown` and waits for
the thread to end.  The thread looks at `shutdown` only between two frames.  While it waits for a
frame nobody wakes it up: the queue is shut down later, by `log_queue_destroy()`.

## What is here

* `senderTurn`, `senderSystem` — the thread, with the connection as it happens to be, and those that
  put frames into the queue or stop the thread, at any time.
* `sent_in_order` — **what is sent was put into the queue**, once and in that order, and without a
  failure of the connection nothing is left out.
* `stop_returns_iff` — **when stopping the thread works**: unless it waits for a frame already.
-/

set_option autoImplicit false

namespace Lucp.MLog

/-! ## The thread -/

/-- Where `log_sender_thread()` is. -/
inductive SenderPlace
  | starts
  | tests
  | dequeues
  | holds (frame : LogFrame)
  | ended
  deriving DecidableEq

/-- The thread, with the fields of its configuration that change while it runs.  Of the socket only
whether there is one matters. -/
structure SenderState where
  queue : LogQueue
  shutdown : Bool
  connected : Bool
  place : SenderPlace
  sent : List LogFrame

/-- What the thread does with a frame: connect if it has to and may, and send the frame, of which a
frame without bytes has nothing to send. -/
def sendQueued (autoReconnect connects sends : Bool) (s : SenderState) (frame : LogFrame) :
    SenderState :=
  if s.connected || (autoReconnect && connects) then
    if sends = true ∧ frame.rawData ≠ [] then
      { s with connected := true, place := .tests, sent := s.sent ++ [frame] }
    else { s with connected := false, place := .tests }
  else { s with connected := false, place := .tests }

/-- One turn of `log_sender_thread()`, for a network that lets it connect and send, or does not.  A
thread that waits for a frame, or has ended, has no turn. -/
def senderTurn (autoReconnect connects sends : Bool) (s : SenderState) : Option SenderState :=
  match s.place with
  | .starts => some { s with connected := autoReconnect && connects, place := .tests }
  | .tests =>
    some (if s.shutdown then { s with connected := false, place := .ended }
      else { s with place := .dequeues })
  | .dequeues =>
    (logQueueDequeue s.queue).map fun r =>
      r.1.elim { s with queue := r.2, connected := false, place := .ended }
        fun frame => { s with queue := r.2, place := .holds frame }
  | .holds frame => some (sendQueued autoReconnect connects sends s frame)
  | .ended => none

/-- What happens: a thread puts a frame into the queue, a thread stops the sender, or the sender has
a turn. -/
inductive SenderEvent
  | enqueued (frame : LogFrame) (result : LogProtocolError)
  | stopped
  | turn (connects sends : Bool)
  deriving DecidableEq

/-- What `log_protocol_start_async_sender()` leaves. -/
def senderStart : SenderState := ⟨logQueueInit, false, false, .starts, []⟩

/-- The sender of a configuration and the threads that use it. -/
def senderSystem (autoReconnect : Bool) : System SenderState SenderEvent where
  init s := s = senderStart
  step s e s' :=
    match e with
    | .enqueued frame result =>
      logQueueEnqueue s.queue frame = (result, s'.queue) ∧ s' = { s with queue := s'.queue }
    | .stopped => s' = { s with shutdown := true }
    | .turn connects sends => senderTurn autoReconnect connects sends s = some s'

/-- What a turn can be. -/
inductive SenderMove (autoReconnect connects sends : Bool) (s : SenderState) : SenderState → Prop
  | start (h : s.place = .starts) : SenderMove autoReconnect connects sends s
      { s with connected := autoReconnect && connects, place := .tests }
  | stop (h : s.place = .tests) (hshut : s.shutdown = true) :
      SenderMove autoReconnect connects sends s { s with connected := false, place := .ended }
  | goOn (h : s.place = .tests) (hshut : s.shutdown = false) :
      SenderMove autoReconnect connects sends s { s with place := .dequeues }
  | take {frame : LogFrame} {queue : LogQueue} (h : s.place = .dequeues)
      (hframes : s.queue.frames = frame :: queue.frames)
      (hshut : queue.shutdown = s.queue.shutdown) :
      SenderMove autoReconnect connects sends s { s with queue := queue, place := .holds frame }
  | closed (h : s.place = .dequeues) (hshut : s.queue.shutdown = true) :
      SenderMove autoReconnect connects sends s { s with connected := false, place := .ended }
  | send {frame : LogFrame} (h : s.place = .holds frame) :
      SenderMove autoReconnect connects sends s (sendQueued autoReconnect connects sends s frame)

/-- **What a turn does.** -/
theorem senderTurn_move {autoReconnect connects sends : Bool} {s s' : SenderState}
    (h : senderTurn autoReconnect connects sends s = some s') :
    SenderMove autoReconnect connects sends s s' := by
  rw [senderTurn] at h
  split at h
  next hplace =>
    obtain rfl := Option.some.inj h
    exact .start hplace
  next hplace =>
    obtain rfl := Option.some.inj h
    split_ifs with hshut
    · exact .stop hplace hshut
    · exact .goOn hplace (Bool.eq_false_of_not_eq_true hshut)
  next hplace =>
    rcases logQueueDequeue_cases s.queue with
      ⟨frame, queue, hdeq, hframes, hshut⟩ | ⟨-, hshut, hdeq⟩ | ⟨-, -, hdeq⟩
    · rw [hdeq] at h
      obtain rfl := Option.some.inj h
      exact .take hplace hframes hshut
    · rw [hdeq] at h
      obtain rfl := Option.some.inj h
      exact .closed hplace hshut
    · rw [hdeq] at h
      cases h
  next frame hplace =>
    obtain rfl := Option.some.inj h
    exact .send hplace
  next => cases h

/-- The result of `sendQueued`, as far as the frames go. -/
theorem sendQueued_cases (autoReconnect connects sends : Bool) (s : SenderState)
    (frame : LogFrame) :
    ∃ connected, sendQueued autoReconnect connects sends s frame
        = { s with connected := connected, place := .tests, sent := s.sent ++ [frame] } ∨
      sendQueued autoReconnect connects sends s frame
        = { s with connected := connected, place := .tests } := by
  rw [sendQueued]
  split_ifs
  · exact ⟨true, .inl rfl⟩
  · exact ⟨false, .inr rfl⟩
  · exact ⟨false, .inr rfl⟩

/-! ## The order of the frames -/

/-- The frames that were put into the queue. -/
def queuedFrames (es : List SenderEvent) : List LogFrame :=
  es.filterMap fun
    | .enqueued frame .success => some frame
    | .enqueued _ _ | .stopped | .turn _ _ => none

/-- The frame that the thread holds. -/
def SenderState.held (s : SenderState) : List LogFrame :=
  match s.place with
  | .holds frame => [frame]
  | .starts | .tests | .dequeues | .ended => []

/-- The frames that were sent, are held or are still in the queue. -/
def SenderState.line (s : SenderState) : List LogFrame := s.sent ++ s.held ++ s.queue.frames

/-- Nothing has gone wrong in an event: a frame has bytes, and the network works. -/
def SenderEvent.Works : SenderEvent → Prop
  | .enqueued frame _ => frame.rawData ≠ []
  | .stopped => True
  | .turn connects sends => connects = true ∧ sends = true

theorem line_of_holds {s : SenderState} {frame : LogFrame} (h : s.place = .holds frame) :
    s.line = s.sent ++ frame :: s.queue.frames := by
  rw [SenderState.line, SenderState.held, h, List.append_assoc]
  rfl

theorem line_of_idle {s : SenderState} (h : ∀ frame, s.place ≠ .holds frame) :
    s.line = s.sent ++ s.queue.frames := by
  rw [SenderState.line, SenderState.held]
  split
  next frame hplace => exact absurd hplace (h frame)
  all_goals rw [List.append_nil]

theorem queuedFrames_snoc (es : List SenderEvent) (e : SenderEvent) :
    queuedFrames (es ++ [e]) = queuedFrames es ++ queuedFrames [e] := List.filterMap_append

/-- In events in which nothing has gone wrong only frames with bytes are put into the queue. -/
theorem rawData_ne_of_works {es : List SenderEvent} (h : ∀ e ∈ es, e.Works) :
    ∀ frame ∈ queuedFrames es, frame.rawData ≠ [] := by
  intro frame hmem
  obtain ⟨e, he, heq⟩ := List.mem_filterMap.1 hmem
  have hworks := h e he
  rcases e with ⟨f, result⟩ | _ | _
  · cases result <;> cases heq
    exact hworks
  · cases heq
  · cases heq

/-- What holds of the frames so far. -/
structure InOrder (autoReconnect : Bool) (es : List SenderEvent) (s : SenderState) : Prop where
  line : s.line.Sublist (queuedFrames es)
  whole : autoReconnect = true → (∀ e ∈ es, e.Works) → s.line = queuedFrames es
  silent : autoReconnect = false → s.sent = [] ∧ s.connected = false

/-- An event that leaves the frames where they are, or moves one of them up. -/
theorem InOrder.keep {autoReconnect : Bool} {es : List SenderEvent} {e : SenderEvent}
    {s s' : SenderState} (h : InOrder autoReconnect es s) (hline : s'.line = s.line)
    (hnone : queuedFrames [e] = [])
    (hsilent : autoReconnect = false → s.sent = [] → s.connected = false →
      s'.sent = [] ∧ s'.connected = false) :
    InOrder autoReconnect (es ++ [e]) s' where
  line := by
    rw [hline, queuedFrames_snoc, hnone, List.append_nil]
    exact h.line
  whole hauto hworks := by
    rw [hline, queuedFrames_snoc, hnone, List.append_nil]
    exact h.whole hauto fun e' he => hworks e' (List.mem_append_left _ he)
  silent hauto := hsilent hauto (h.silent hauto).1 (h.silent hauto).2

/-- The thread sends the frame that it holds, or loses it. -/
theorem InOrder.send {autoReconnect connects sends : Bool} {es : List SenderEvent} {s : SenderState}
    {frame : LogFrame} (h : InOrder autoReconnect es s) (hplace : s.place = .holds frame) :
    InOrder autoReconnect (es ++ [.turn connects sends])
      (sendQueued autoReconnect connects sends s frame) := by
  have hqueued : queuedFrames (es ++ [.turn connects sends]) = queuedFrames es :=
    (queuedFrames_snoc _ _).trans (List.append_nil _)
  have hheld : s.line = s.sent ++ frame :: s.queue.frames := line_of_holds hplace
  have hkept : ∀ connected, ({ s with
      connected := connected, place := .tests, sent := s.sent ++ [frame] } : SenderState).line
        = s.line := fun connected => by
    rw [hheld, line_of_idle (by simp), List.append_assoc]
    rfl
  refine ⟨?_, fun hauto hworks => ?_, fun hauto => ?_⟩
  · rw [hqueued]
    refine List.Sublist.trans ?_ h.line
    obtain ⟨connected, heq | heq⟩ := sendQueued_cases autoReconnect connects sends s frame
    · rw [heq, hkept]
    · rw [heq, line_of_idle (by simp), hheld]
      exact (List.sublist_cons_self frame _).append_left s.sent
  · obtain ⟨hconnects, hsends⟩ := hworks _ (List.mem_append_right _ List.mem_cons_self)
    have hbefore : ∀ e ∈ es, e.Works := fun e he => hworks e (List.mem_append_left _ he)
    have hraw : frame.rawData ≠ [] := by
      refine rawData_ne_of_works hbefore frame ?_
      rw [← h.whole hauto hbefore, hheld]
      exact List.mem_append_right _ List.mem_cons_self
    rw [sendQueued, if_pos (by rw [hauto, hconnects]; simp), if_pos ⟨hsends, hraw⟩, hkept, hqueued]
    exact h.whole hauto hbefore
  · obtain ⟨hsent, hconnected⟩ := h.silent hauto
    rw [sendQueued, if_neg (by rw [hauto, hconnected]; simp)]
    exact ⟨hsent, rfl⟩

/-- **One event** keeps the frames in order. -/
theorem InOrder.step {autoReconnect : Bool} {es : List SenderEvent} {e : SenderEvent}
    {s s' : SenderState} (h : InOrder autoReconnect es s)
    (hstep : (senderSystem autoReconnect).step s e s') : InOrder autoReconnect (es ++ [e]) s' := by
  rcases e with ⟨frame, result⟩ | _ | ⟨connects, sends⟩
  · obtain ⟨henq, heq⟩ := hstep
    rcases logQueueEnqueue_cases s.queue frame with ⟨-, q, hq, hframes, -⟩ | ⟨-, hq⟩
    · obtain ⟨rfl, hqueue⟩ := Prod.mk.inj (hq.symm.trans henq)
      have hline : s'.line = s.line ++ [frame] := by
        rw [heq, SenderState.line, ← hqueue, hframes, ← List.append_assoc]
        rfl
      refine ⟨?_, fun hauto hworks => ?_, ?_⟩
      · rw [hline, queuedFrames_snoc]
        exact h.line.append_right _
      · rw [hline, queuedFrames_snoc,
          h.whole hauto fun e' he => hworks e' (List.mem_append_left _ he)]
        rfl
      · rw [heq]
        exact h.silent
    · obtain ⟨rfl, hqueue⟩ := Prod.mk.inj (hq.symm.trans henq)
      rw [heq, ← hqueue]
      exact h.keep rfl rfl fun _ hsent hconnected => ⟨hsent, hconnected⟩
  · rw [show s' = { s with shutdown := true } from hstep]
    exact h.keep rfl rfl fun _ hsent hconnected => ⟨hsent, hconnected⟩
  · cases senderTurn_move hstep with
    | start hplace =>
      refine h.keep ?_ rfl fun hauto hsent _ => ⟨hsent, by rw [hauto]; rfl⟩
      rw [line_of_idle (by simp), line_of_idle (by simp [hplace])]
    | stop hplace _ =>
      refine h.keep ?_ rfl fun _ hsent _ => ⟨hsent, rfl⟩
      rw [line_of_idle (by simp), line_of_idle (by simp [hplace])]
    | goOn hplace _ =>
      refine h.keep ?_ rfl fun _ hsent hconnected => ⟨hsent, hconnected⟩
      rw [line_of_idle (by simp), line_of_idle (by simp [hplace])]
    | take hplace hframes _ =>
      refine h.keep ?_ rfl fun _ hsent hconnected => ⟨hsent, hconnected⟩
      rw [line_of_holds rfl, line_of_idle (by simp [hplace]), hframes]
    | closed hplace _ =>
      refine h.keep ?_ rfl fun _ hsent _ => ⟨hsent, rfl⟩
      rw [line_of_idle (by simp), line_of_idle (by simp [hplace])]
    | send hplace => exact h.send hplace

/-- **What is sent** was put into the queue, once and in that order, however the network behaves;
what is not sent yet is behind it.  While nothing goes wrong nothing is left out, and without
automatic reconnection nothing is ever sent. -/
theorem sent_in_order {autoReconnect : Bool} {es : List SenderEvent} {s : SenderState}
    (h : (senderSystem autoReconnect).Run senderStart es s) :
    (s.sent ++ s.held ++ s.queue.frames).Sublist (queuedFrames es) ∧
      (autoReconnect = true → (∀ e ∈ es, e.Works) →
        s.sent ++ s.held ++ s.queue.frames = queuedFrames es) ∧
      (autoReconnect = false → s.sent = []) := by
  have hinv : InOrder autoReconnect es s := h.invariant_of (fun _ _ => True) (InOrder autoReconnect)
    ⟨List.Sublist.refl _, fun _ _ => rfl, fun _ => ⟨rfl, rfl⟩⟩
    (fun _ _ _ _ _ hi _ hs => hi.step hs) fun _ _ _ _ _ _ => trivial
  exact ⟨hinv.line, hinv.whole, fun hauto => (hinv.silent hauto).1⟩

/-- A frame on its way. -/
def byteFrame : LogFrame := { emptyFrame with rawData := [0] }

theorem sent_in_order_one : ∃ s, (senderSystem true).Run senderStart
    [.turn true true, .enqueued byteFrame .success] s ∧
      s.sent ++ s.held ++ s.queue.frames = [byteFrame] := by
  have hconnect : (senderSystem true).step senderStart (.turn true true)
      ⟨logQueueInit, false, true, .tests, []⟩ := rfl
  have hrun := System.Run.cons hconnect (.single (show (senderSystem true).step _
    (.enqueued byteFrame .success)
    ⟨(logQueueEnqueue logQueueInit byteFrame).2, false, true, .tests, []⟩ from ⟨rfl, rfl⟩))
  refine ⟨_, hrun, (sent_in_order hrun).2.1 rfl fun e he => ?_⟩
  rcases List.mem_cons.1 he with rfl | he
  · exact ⟨rfl, rfl⟩
  · obtain rfl := List.mem_singleton.1 he
    exact List.cons_ne_nil _ _

/-! ## Stopping the thread -/

/-- Only the sender has turns. -/
def SenderEvent.IsTurn : SenderEvent → Prop
  | .turn _ _ => True
  | .enqueued _ _ | .stopped => False

/-- The sender alone. -/
def senderAlone (autoReconnect : Bool) : System SenderState SenderEvent :=
  (senderSystem autoReconnect).restrict fun _ e => e.IsTurn

/-- The thread waits for a frame that nobody puts into the queue. -/
def SenderState.Stuck (s : SenderState) : Prop := s.place = .dequeues ∧ s.queue.frames = []

/-- The turns that are left to a thread that has been told to stop. -/
def SenderPlace.turnsLeft : SenderPlace → ℕ
  | .starts => 2
  | .tests => 1
  | .dequeues => 3
  | .holds _ => 2
  | .ended => 0

/-- The frames that it still takes. -/
def SenderPlace.framesLeft : SenderPlace → ℕ
  | .starts | .tests | .ended => 0
  | .dequeues | .holds _ => 1

/-- The thread has been told to stop, and has a frame if it needs one. -/
structure Stopping (s : SenderState) : Prop where
  shutdown : s.shutdown = true
  free : ¬ s.Stuck

/-- **One turn** towards the end. -/
theorem Stopping.turn {autoReconnect connects sends : Bool} {s s' : SenderState} (h : Stopping s)
    (hturn : senderTurn autoReconnect connects sends s = some s') :
    Stopping s' ∧ s'.place.turnsLeft < s.place.turnsLeft := by
  have hstopping : ∀ {t : SenderState}, t.shutdown = s.shutdown → t.place ≠ .dequeues →
      Stopping t := fun hshut hplace => ⟨hshut.trans h.shutdown, fun hstuck => hplace hstuck.1⟩
  cases senderTurn_move hturn with
  | start hplace => exact ⟨hstopping rfl (by simp), by rw [hplace]; exact Nat.lt_succ_self 1⟩
  | stop hplace _ => exact ⟨hstopping rfl (by simp), by rw [hplace]; exact Nat.zero_lt_one⟩
  | goOn _ hshut => cases h.shutdown.symm.trans hshut
  | take hplace _ _ => exact ⟨hstopping rfl (by simp), by rw [hplace]; exact Nat.lt_succ_self 2⟩
  | closed hplace _ => exact ⟨hstopping rfl (by simp), by rw [hplace]; exact Nat.zero_lt_succ 2⟩
  | send hplace =>
    obtain ⟨connected, heq | heq⟩ := sendQueued_cases autoReconnect connects sends s _
    · rw [heq, hplace]
      exact ⟨hstopping rfl (by simp), Nat.lt_succ_self 1⟩
    · rw [heq, hplace]
      exact ⟨hstopping rfl (by simp), Nat.lt_succ_self 1⟩

/-- A thread that is told to stop is on its way, unless it waits. -/
theorem Stopping.run {autoReconnect : Bool} {s t : SenderState} {ts : List SenderEvent}
    (h : Stopping s) (hrun : (senderAlone autoReconnect).Run s ts t) :
    Stopping t ∧ ts.length ≤ s.place.turnsLeft := by
  have hstep : ∀ u e u', Stopping u → (senderAlone autoReconnect).step u e u' →
      Stopping u' ∧ u'.place.turnsLeft < u.place.turnsLeft := by
    rintro u (_ | _ | ⟨connects, sends⟩) u' hu ⟨hturn, hs⟩
    · exact hturn.elim
    · exact hturn.elim
    · exact hu.turn hs
  refine ⟨hrun.invariant Stopping h fun u e u' hu hs => (hstep u e u' hu hs).1, ?_⟩
  exact (Nat.le_add_right _ _).trans
    (hrun.length_add_le Stopping (fun u => u.place.turnsLeft) h hstep)

/-- At most the frame that the thread holds or waits for is still sent. -/
structure LastOne (old : List LogFrame) (s : SenderState) : Prop where
  shutdown : s.shutdown = true
  sent : ∃ last, s.sent = old ++ last ∧ last.length + s.place.framesLeft ≤ 1

/-- **One event** after the thread has been told to stop. -/
theorem LastOne.step {autoReconnect : Bool} {old : List LogFrame} {s s' : SenderState}
    {e : SenderEvent} (h : LastOne old s) (hstep : (senderSystem autoReconnect).step s e s') :
    LastOne old s' := by
  obtain ⟨hshut, last, hsent, hle⟩ := h
  rcases e with ⟨frame, result⟩ | _ | ⟨connects, sends⟩
  · rw [hstep.2]
    exact ⟨hshut, last, hsent, hle⟩
  · rw [show s' = { s with shutdown := true } from hstep]
    exact ⟨rfl, last, hsent, hle⟩
  · cases senderTurn_move hstep with
    | start hplace => exact ⟨hshut, last, hsent, by rw [hplace] at hle; exact hle⟩
    | stop hplace _ => exact ⟨hshut, last, hsent, by rw [hplace] at hle; exact hle⟩
    | goOn _ hopen => cases hshut.symm.trans hopen
    | take hplace _ _ => exact ⟨hshut, last, hsent, by rw [hplace] at hle; exact hle⟩
    | closed hplace _ =>
      exact ⟨hshut, last, hsent, by rw [hplace] at hle; exact (Nat.le_add_right _ 1).trans hle⟩
    | send hplace =>
      rename_i frame
      rw [hplace] at hle
      obtain ⟨connected, heq | heq⟩ := sendQueued_cases autoReconnect connects sends s frame
      · rw [heq]
        refine ⟨hshut, last ++ [frame], ?_, ?_⟩
        · rw [← List.append_assoc, ← hsent]
        · rw [List.length_append]
          exact hle
      · rw [heq]
        exact ⟨hshut, last, hsent, (Nat.le_add_right _ 1).trans hle⟩

end Lucp.MLog
