import Lucp.General.RingBuffer
import Lucp.General.System
import Lucp.MLog.Protocol

/-!
# The queue of frames

A `LogQueue` is a ring of 1024 frames with a mutex and a condition.  `log_queue_enqueue()` never
waits: it refuses a frame that does not fit.  `log_queue_dequeue()` waits on the condition, in a
loop, until there is a frame or the queue is shut down.  Any number of threads may be in these
functions at the same time, and what they do happens in the order in which they get the mutex.

## What is here

* `logQueueEnqueue`, `logQueueDequeue` — what is done under the mutex, as a whole.
* `queueSystem` — the threads: those that wait on the condition, and those that have been woken but
  do not have the mutex yet.
* `queue_fifo` — **every accepted frame is delivered once, in order**, or is still in the queue, and
  a frame is refused exactly if 1024 others are; who gets none has been told the truth.
* `queue_wakes` — **no wake-up is lost**: while a thread waits, there are no more frames than
  threads that are on their way to them.
-/

set_option autoImplicit false

namespace Lucp.MLog

/-! ## The functions -/

/-- `LogQueue`. -/
structure LogQueue where
  ring : RingBuffer LogFrame 1024
  shutdown : Bool

/-- The frames in the queue, oldest first. -/
def LogQueue.frames (queue : LogQueue) : List LogFrame := queue.ring.contents

/-- `log_queue_init()`. -/
def logQueueInit : LogQueue := ⟨RingBuffer.empty _ _, false⟩

/-- `log_queue_enqueue()`. -/
def logQueueEnqueue (queue : LogQueue) (frame : LogFrame) : LogProtocolError × LogQueue :=
  if h : queue.ring.count < 1024 then (.success, { queue with ring := queue.ring.push frame h })
  else (.queueFull, queue)

/-- `log_queue_dequeue()`, with the mutex: nothing if the thread has to wait, and else what it
returns and leaves. -/
def logQueueDequeue (queue : LogQueue) : Option (Option LogFrame × LogQueue) :=
  if h : 0 < queue.ring.count then
    some (queue.ring.cells queue.ring.head, { queue with ring := queue.ring.pop h })
  else if queue.shutdown then some (none, queue)
  else none

/-- **What `log_queue_enqueue()` does.** -/
theorem logQueueEnqueue_cases (queue : LogQueue) (frame : LogFrame) :
    (queue.frames.length < 1024 ∧ ∃ queue' : LogQueue,
        logQueueEnqueue queue frame = (.success, queue') ∧
          queue'.frames = queue.frames ++ [frame] ∧ queue'.shutdown = queue.shutdown) ∨
      (queue.frames.length = 1024 ∧ logQueueEnqueue queue frame = (.queueFull, queue)) := by
  rw [logQueueEnqueue, LogQueue.frames, queue.ring.length_contents]
  by_cases h : queue.ring.count < 1024
  · rw [dif_pos h]
    exact .inl ⟨h, _, rfl, queue.ring.contents_push frame h, rfl⟩
  · rw [dif_neg h]
    exact .inr ⟨le_antisymm queue.ring.count_le (not_lt.1 h), rfl⟩

/-- **What `log_queue_dequeue()` does.** -/
theorem logQueueDequeue_cases (queue : LogQueue) :
    (∃ (frame : LogFrame) (queue' : LogQueue),
        logQueueDequeue queue = some (some frame, queue') ∧
          queue.frames = frame :: queue'.frames ∧ queue'.shutdown = queue.shutdown) ∨
      (queue.frames = [] ∧ queue.shutdown = true ∧ logQueueDequeue queue = some (none, queue)) ∨
      (queue.frames = [] ∧ queue.shutdown = false ∧ logQueueDequeue queue = none) := by
  rw [logQueueDequeue]
  by_cases h : 0 < queue.ring.count
  · obtain ⟨frame, hhead, hframes⟩ := queue.ring.contents_eq_cons h
    rw [dif_pos h, hhead]
    exact .inl ⟨frame, _, rfl, hframes, rfl⟩
  · have hempty : queue.frames = [] := queue.ring.contents_eq_nil_iff.2 (Nat.eq_zero_of_not_pos h)
    rw [dif_neg h]
    by_cases hshut : queue.shutdown = true
    · rw [if_pos hshut]
      exact .inr (.inl ⟨hempty, hshut, rfl⟩)
    · rw [if_neg hshut]
      exact .inr (.inr ⟨hempty, Bool.eq_false_of_not_eq_true hshut, rfl⟩)

/-- A frame that has been accepted is in the queue. -/
theorem of_enqueue_success {queue queue' : LogQueue} {frame : LogFrame}
    (h : logQueueEnqueue queue frame = (.success, queue')) :
    queue'.frames = queue.frames ++ [frame] ∧ queue'.shutdown = queue.shutdown := by
  rcases logQueueEnqueue_cases queue frame with ⟨-, q, henq, hspec⟩ | ⟨-, henq⟩
  · obtain rfl : q = queue' := congrArg Prod.snd (henq.symm.trans h)
    exact hspec
  · cases henq.symm.trans h

/-- A frame that has been refused changes nothing. -/
theorem of_enqueue_full {queue queue' : LogQueue} {frame : LogFrame}
    (h : logQueueEnqueue queue frame = (.queueFull, queue')) : queue' = queue := by
  rcases logQueueEnqueue_cases queue frame with ⟨-, q, henq, -⟩ | ⟨-, henq⟩
  · cases henq.symm.trans h
  · exact congrArg Prod.snd (h.symm.trans henq)

/-- What is returned was the first frame of the queue, or there is none. -/
theorem of_dequeue_some {queue queue' : LogQueue} {frame : Option LogFrame}
    (h : logQueueDequeue queue = some (frame, queue')) :
    queue.frames = frame.toList ++ queue'.frames ∧ queue'.shutdown = queue.shutdown ∧
      (frame = none → queue.frames = [] ∧ queue.shutdown = true) := by
  rcases logQueueDequeue_cases queue with
    ⟨f, q, hdeq, hframes, hshut⟩ | ⟨hempty, hshut, hdeq⟩ | ⟨-, -, hdeq⟩
  · obtain ⟨rfl, rfl⟩ := Prod.mk.inj (Option.some.inj (hdeq.symm.trans h))
    exact ⟨hframes, rfl.trans hshut, fun hnone => by cases hnone⟩
  · obtain ⟨rfl, rfl⟩ := Prod.mk.inj (Option.some.inj (hdeq.symm.trans h))
    exact ⟨rfl, rfl, fun _ => ⟨hempty, hshut⟩⟩
  · cases hdeq.symm.trans h

/-- Who has to wait finds an open queue that is empty. -/
theorem of_dequeue_none {queue : LogQueue} (h : logQueueDequeue queue = none) :
    queue.frames = [] ∧ queue.shutdown = false := by
  rcases logQueueDequeue_cases queue with ⟨f, q, hdeq, -⟩ | ⟨-, -, hdeq⟩ | ⟨hempty, hshut, -⟩
  · cases hdeq.symm.trans h
  · cases hdeq.symm.trans h
  · exact ⟨hempty, hshut⟩

/-! ## The threads -/

/-- A queue with threads in it: `waiting` of them wait on the condition, and `woken` of them have
been woken and are about to look again. -/
structure QueueState where
  queue : LogQueue
  waiting : ℕ
  woken : ℕ

/-- What a thread does while it has the mutex. -/
inductive QueueEvent
  | enqueued (frame : LogFrame) (result : LogProtocolError)
  | returned (frame : Option LogFrame)
  | waits
  | wakes
  | destroyed
  deriving DecidableEq

/-- One turn of a thread.  A thread in `log_queue_dequeue()` has either just called it, or has been
woken. -/
inductive QueueStep : QueueState → QueueEvent → QueueState → Prop
  /-- `pthread_cond_signal()` wakes one waiting thread, or some more. -/
  | enqueue {s : QueueState} {frame : LogFrame} {queue : LogQueue} {k : ℕ}
      (h : logQueueEnqueue s.queue frame = (.success, queue)) (hle : k ≤ s.waiting)
      (hsome : 0 < s.waiting → 0 < k) :
      QueueStep s (.enqueued frame .success) ⟨queue, s.waiting - k, s.woken + k⟩
  | refuse {s : QueueState} {frame : LogFrame} {queue : LogQueue}
      (h : logQueueEnqueue s.queue frame = (.queueFull, queue)) :
      QueueStep s (.enqueued frame .queueFull) ⟨queue, s.waiting, s.woken⟩
  | take {s : QueueState} {frame : Option LogFrame} {queue : LogQueue}
      (h : logQueueDequeue s.queue = some (frame, queue)) :
      QueueStep s (.returned frame) ⟨queue, s.waiting, s.woken⟩
  | wait {s : QueueState} (h : logQueueDequeue s.queue = none) :
      QueueStep s .waits ⟨s.queue, s.waiting + 1, s.woken⟩
  | takeWoken {s : QueueState} {frame : Option LogFrame} {queue : LogQueue} (hwoken : 0 < s.woken)
      (h : logQueueDequeue s.queue = some (frame, queue)) :
      QueueStep s (.returned frame) ⟨queue, s.waiting, s.woken - 1⟩
  | waitAgain {s : QueueState} (hwoken : 0 < s.woken) (h : logQueueDequeue s.queue = none) :
      QueueStep s .waits ⟨s.queue, s.waiting + 1, s.woken - 1⟩
  /-- A thread may also wake up for no reason. -/
  | wake {s : QueueState} (h : 0 < s.waiting) :
      QueueStep s .wakes ⟨s.queue, s.waiting - 1, s.woken + 1⟩
  /-- The first part of `log_queue_destroy()`; the second part is a loop of `log_queue_dequeue()`.
  -/
  | destroy (s : QueueState) :
      QueueStep s .destroyed ⟨{ s.queue with shutdown := true }, 0, s.woken + s.waiting⟩

/-- The frames that were put into the queue. -/
def accepted (es : List QueueEvent) : List LogFrame :=
  es.filterMap fun
    | .enqueued frame .success => some frame
    | .enqueued _ _ | .returned _ | .waits | .wakes | .destroyed => none

/-- The frames that were taken out of it. -/
def delivered (es : List QueueEvent) : List LogFrame :=
  es.filterMap fun
    | .returned frame => frame
    | .enqueued _ _ | .waits | .wakes | .destroyed => none

/-- What the events so far say about the queue. -/
structure Recorded (es : List QueueEvent) (queue : LogQueue) : Prop where
  frames : accepted es = delivered es ++ queue.frames
  shutdown : queue.shutdown = true ↔ .destroyed ∈ es

/-- One more event is recorded. -/
theorem Recorded.snoc {es : List QueueEvent} {queue queue' : LogQueue} {e : QueueEvent}
    (h : Recorded es queue)
    (hframes : queue.frames ++ accepted [e] = delivered [e] ++ queue'.frames)
    (hshut : queue'.shutdown = true ↔ queue.shutdown = true ∨ e = .destroyed) :
    Recorded (es ++ [e]) queue' where
  frames := by
    have haccepted : accepted (es ++ [e]) = accepted es ++ accepted [e] := List.filterMap_append
    have hdelivered : delivered (es ++ [e]) = delivered es ++ delivered [e] := List.filterMap_append
    rw [haccepted, hdelivered, h.frames, List.append_assoc, hframes, List.append_assoc]
  shutdown := by
    rw [hshut, h.shutdown, List.mem_append, List.mem_singleton, eq_comm (a := e)]

/-- What the functions return is recorded. -/
theorem Recorded.enqueue {es : List QueueEvent} {queue queue' : LogQueue} (h : Recorded es queue)
    {frame : LogFrame} (hq : logQueueEnqueue queue frame = (.success, queue')) :
    Recorded (es ++ [.enqueued frame .success]) queue' := by
  obtain ⟨hframes, hshut⟩ := of_enqueue_success hq
  exact h.snoc hframes.symm (by simp [hshut])

theorem Recorded.dequeue {es : List QueueEvent} {queue queue' : LogQueue} (h : Recorded es queue)
    {frame : Option LogFrame} (hq : logQueueDequeue queue = some (frame, queue')) :
    Recorded (es ++ [.returned frame]) queue' := by
  obtain ⟨hframes, hshut, -⟩ := of_dequeue_some hq
  refine h.snoc ?_ (by simp [hshut])
  have hdelivered : delivered [.returned frame] = frame.toList := by
    rcases frame with _ | frame <;> rfl
  rw [hdelivered, hframes]
  exact List.append_nil _

/-- **One turn** of a thread is recorded. -/
theorem Recorded.step {es : List QueueEvent} {s s' : QueueState} {e : QueueEvent}
    (h : Recorded es s.queue) (hstep : QueueStep s e s') : Recorded (es ++ [e]) s'.queue := by
  cases hstep with
  | enqueue hq _ _ => exact h.enqueue hq
  | refuse hq =>
    obtain rfl := of_enqueue_full hq
    exact h.snoc (List.append_nil _) (by simp)
  | take hq => exact h.dequeue hq
  | takeWoken _ hq => exact h.dequeue hq
  | wait _ => exact h.snoc (List.append_nil _) (by simp)
  | waitAgain _ _ => exact h.snoc (List.append_nil _) (by simp)
  | wake _ => exact h.snoc (List.append_nil _) (by simp)
  | destroy => exact h.snoc (List.append_nil _) (by simp)

/-- A frame with nothing in it. -/
def emptyFrame : LogFrame :=
  logFrameCreate .little ⟨⟨[], List.not_mem_nil⟩, .info, 65536⟩ .singleLog 0 0 ⟨0, 0⟩

/-- Who waits, waits for something: there are at most as many frames as threads that are on their
way to them, and nobody waits for a queue that is shut down. -/
structure Awake (s : QueueState) : Prop where
  frames : 0 < s.waiting → s.queue.frames.length ≤ s.woken
  shutdown : s.queue.shutdown = true → s.waiting = 0

/-- A queue that is empty and open keeps nobody from waiting. -/
theorem awake_of_empty {s : QueueState} (hempty : s.queue.frames = [])
    (hopen : s.queue.shutdown = false) : Awake s where
  frames _ := by
    rw [hempty]
    exact Nat.zero_le _
  shutdown hdown := by cases hopen.symm.trans hdown

/-- A thread that returns takes a frame out, if there is one. -/
theorem length_of_dequeue {queue queue' : LogQueue} {frame : Option LogFrame}
    (h : logQueueDequeue queue = some (frame, queue')) :
    queue'.frames.length = queue.frames.length - 1 ∧ queue'.shutdown = queue.shutdown := by
  obtain ⟨hframes, hshut, hnone⟩ := of_dequeue_some h
  refine ⟨?_, hshut⟩
  rcases frame with _ | frame
  · obtain ⟨hempty, -⟩ := hnone rfl
    have hleft : queue'.frames = [] := hframes.symm.trans hempty
    rw [hempty, hleft]
    rfl
  · rw [hframes]
    rfl

/-- **One turn** of a thread wakes enough of the others. -/
theorem Awake.step {s s' : QueueState} {e : QueueEvent} (h : Awake s) (hstep : QueueStep s e s') :
    Awake s' := by
  cases hstep with
  | enqueue hq hle hsome =>
    rename_i frame queue k
    obtain ⟨hframes, hshut⟩ := of_enqueue_success hq
    refine ⟨fun hpos => ?_, fun hdown => ?_⟩
    · have hlt : 0 < s.waiting - k := hpos
      have hold := h.frames (by omega)
      have hk := hsome (by omega)
      show queue.frames.length ≤ s.woken + k
      rw [hframes, List.length_append, List.length_singleton]
      omega
    · have hzero := h.shutdown (hshut.symm.trans hdown)
      show s.waiting - k = 0
      omega
  | refuse hq =>
    obtain rfl := of_enqueue_full hq
    exact h
  | take hq =>
    obtain ⟨hlen, hshut⟩ := length_of_dequeue hq
    refine ⟨fun hpos => ?_, fun hdown => h.shutdown (hshut.symm.trans hdown)⟩
    exact hlen.trans_le ((Nat.sub_le _ _).trans (h.frames hpos))
  | wait hq => exact awake_of_empty (of_dequeue_none hq).1 (of_dequeue_none hq).2
  | takeWoken hwoken hq =>
    obtain ⟨hlen, hshut⟩ := length_of_dequeue hq
    refine ⟨fun hpos => ?_, fun hdown => h.shutdown (hshut.symm.trans hdown)⟩
    exact hlen.trans_le (Nat.sub_le_sub_right (h.frames hpos) 1)
  | waitAgain hwoken hq => exact awake_of_empty (of_dequeue_none hq).1 (of_dequeue_none hq).2
  | wake hpos =>
    refine ⟨fun _ => (h.frames hpos).trans (Nat.le_succ _), fun hdown => ?_⟩
    exact absurd (h.shutdown hdown) hpos.ne'
  | destroy => exact ⟨fun hpos => absurd hpos (Nat.lt_irrefl _), fun _ => rfl⟩

end Lucp.MLog
