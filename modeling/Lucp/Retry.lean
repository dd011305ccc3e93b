import Lucp.Send
import Lucp.Recv

/-!
# Sending with retries: `lucp_net_send_with_retries`

The retry loop of `lucp.c` as a machine: it stands in the loop of `full_write`, in `select()` or in
the loop of `lucp_net_recv`, and moves on with what `write()`, `select()` and `read()` answer.  A
turn of the loop whose frame cannot be packed makes no system call, so `RetryArgs.loop` runs through
such turns at once.  A state also keeps what every attempt has put on the wire, which the code does
not see.

## What is here

* `RetryCall`, `RetryArgs.loop`, `afterWrite`, `afterSelect`, `afterRecv` — the machine;
  `retrySystem` — its runs against every environment.
* `retry_framing_iff` — what the peer is given stays framed exactly in the runs in which no
  `write()` takes a byte after another one failed in the middle of a copy.  A failed attempt is
  followed by a new copy from its first byte, so the framing of the stream is lost in the others
  (`retry_framing_lost`).
-/

set_option autoImplicit false

namespace Lucp

open Framing

/-! ## The machine -/

/-- What `select()` answers: the socket is readable, the time is over, or `-1` with `EINTR` or with
another error. -/
inductive SelectResult
  | ready
  | timeout
  | eintr
  | error
  deriving DecidableEq

/-- The arguments that stay the same during the call, and the host it runs on. -/
structure RetryArgs where
  host : ByteOrder
  frame : LucpFrame
  expectCmd : UInt8

/-- Where the call stands. -/
inductive RetryPc
  /-- In `full_write`, with `written` bytes of `buf` taken. -/
  | sending (buf : Bytes) (written : ℕ)
  | selecting
  /-- In the loop of `lucp_net_recv`. -/
  | receiving
  | returned (ret : Int)
  deriving DecidableEq

/-- A call of `lucp_net_send_with_retries`. -/
structure RetryCall where
  /-- `*ctx` and `*reply`. -/
  recv : RecvState
  /-- The turns of the loop still to come after the present one. -/
  left : ℕ
  pc : RetryPc
  /-- What each attempt put on the wire, newest first. -/
  copies : List Bytes

/-- What has been put on the wire. -/
def RetryCall.sent (c : RetryCall) : Bytes := c.copies.reverse.flatten

/-- The kernel takes `bs` from the present attempt. -/
def accept (bs : Bytes) : List Bytes → List Bytes
  | [] => [bs]
  | x :: copies => (x ++ bs) :: copies

namespace RetryArgs

variable (a : RetryArgs)

/-- The loop from its test on, with `left` turns to come. -/
def loop (recv : RecvState) (copies : List Bytes) : ℕ → RetryCall
  | 0 => ⟨recv, 0, .returned (-1), copies⟩
  | left + 1 =>
    match lucpNetSendPack a.host a.frame with
    | none => loop recv copies left
    | some buf => ⟨recv, left, .sending buf 0, [] :: copies⟩

/-- The call with `n_retries`, on a context and a reply object. -/
def start (ctx : LucpNetCtx) (reply : LucpFrame) (nRetries : Int) : RetryCall :=
  a.loop ⟨ctx, reply⟩ [] nRetries.toNat

/-- `write()` has answered. -/
def afterWrite (c : RetryCall) (buf : Bytes) (written : ℕ) (r : WriteResult) : RetryCall :=
  let copies := accept ((buf.drop written).take r.count) c.copies
  match fullWriteTurn buf.length written r with
  | .failed => a.loop c.recv c.copies c.left
  | .more written => { c with pc := .sending buf written, copies := copies }
  | .done => { c with pc := .selecting, copies := copies }

/-- Is this the reply waited for? -/
def Awaited (m : Msg) : Bool := m.msgType == a.expectCmd && m.seqNum == a.frame.seqNum

/-- A part of `lucp_net_recv` is through: it waits for `read()`, or has returned and the reply is
looked at. -/
def afterRecv (c : RetryCall) (out : RecvState × Option RecvExit) : RetryCall :=
  match out.2 with
  | none => { c with recv := out.1, pc := .receiving }
  | some e =>
    if e.ret = 0 ∧ out.1.frame.msgType = a.expectCmd ∧ out.1.frame.seqNum = a.frame.seqNum then
      { c with recv := out.1, pc := .returned 0 }
    else a.loop out.1 c.copies c.left

/-- `select()` has answered.  An interrupted call leaves the descriptor set as it was passed in, so
the code goes on as if the socket were readable. -/
def afterSelect (c : RetryCall) : SelectResult → RetryCall
  | .error => a.loop c.recv c.copies c.left
  | .timeout => a.loop c.recv c.copies c.left
  | .eintr => a.afterRecv c (lucpNetRecvBuffered a.host c.recv)
  | .ready => a.afterRecv c (lucpNetRecvBuffered a.host c.recv)

end RetryArgs

/-- The answer of the environment. -/
inductive RetryEvent
  | write (r : WriteResult)
  | select (r : SelectResult)
  | read (r : ReadResult)
  deriving DecidableEq

/-- How many bytes `read()` stored. -/
def ReadResult.count : ReadResult → ℕ
  | .got bs => bs.length
  | .eintr => 0
  | .error => 0

/-- One step of the call: a system call answers. -/
inductive RetryStep (a : RetryArgs) : RetryCall → RetryEvent → RetryCall → Prop
  | write {c : RetryCall} {buf : Bytes} {written : ℕ} (r : WriteResult)
      (hpc : c.pc = .sending buf written) (hr : r.count ≤ buf.length - written) :
      RetryStep a c (.write r) (a.afterWrite c buf written r)
  | select {c : RetryCall} (r : SelectResult) (hpc : c.pc = .selecting) :
      RetryStep a c (.select r) (a.afterSelect c r)
  | read {c : RetryCall} (r : ReadResult) (hpc : c.pc = .receiving)
      (hr : r.count ≤ c.recv.ctx.room) :
      RetryStep a c (.read r) (a.afterRecv c (lucpNetRecvRead a.host c.recv r))

/-- The step as a function of the answer; `none` where the code does not make that system call. -/
def RetryArgs.step (a : RetryArgs) (c : RetryCall) : RetryEvent → Option RetryCall
  | .write r =>
    match c.pc with
    | .sending buf written =>
      if r.count ≤ buf.length - written then some (a.afterWrite c buf written r) else none
    | _ => none
  | .select r => if c.pc = .selecting then some (a.afterSelect c r) else none
  | .read r =>
    if c.pc = .receiving ∧ r.count ≤ c.recv.ctx.room then
      some (a.afterRecv c (lucpNetRecvRead a.host c.recv r))
    else none

theorem RetryStep.of_step {a : RetryArgs} {c c' : RetryCall} {e : RetryEvent}
    (h : a.step c e = some c') : RetryStep a c e c' := by
  cases e with
  | write r =>
    rw [RetryArgs.step] at h
    split at h
    · next buf written hpc =>
      obtain ⟨hr, h⟩ := Option.ite_none_right_eq_some.1 h
      cases h
      exact .write r hpc hr
    · cases h
  | select r =>
    obtain ⟨hpc, h⟩ := Option.ite_none_right_eq_some.1 h
    cases h
    exact .select r hpc
  | read r =>
    obtain ⟨⟨hpc, hr⟩, h⟩ := Option.ite_none_right_eq_some.1 h
    cases h
    exact .read r hpc hr

/-- The runs of a call against every environment. -/
def retrySystem (a : RetryArgs) (ctx : LucpNetCtx) (reply : LucpFrame) (nRetries : Int) :
    System RetryCall RetryEvent where
  init c := c = a.start ctx reply nRetries
  step := RetryStep a

variable {a : RetryArgs}

/-- The next turn: the call is over, or it starts to send the frame once more. -/
theorem RetryArgs.loop_cases (recv : RecvState) (copies : List Bytes) (left : ℕ) :
    a.loop recv copies left = ⟨recv, 0, .returned (-1), copies⟩ ∧
        (left = 0 ∨ lucpNetSendPack a.host a.frame = none) ∨
      ∃ buf left', lucpNetSendPack a.host a.frame = some buf ∧ left = left' + 1 ∧
        a.loop recv copies left = ⟨recv, left', .sending buf 0, [] :: copies⟩ := by
  induction left with
  | zero => exact .inl ⟨rfl, .inl rfl⟩
  | succ left ih =>
    rw [loop]
    cases hp : lucpNetSendPack a.host a.frame with
    | none =>
      rcases ih with ⟨hloop, -⟩ | ⟨buf, left', hp', -, -⟩
      · exact .inl ⟨hloop, .inr rfl⟩
      · rw [hp] at hp'; cases hp'
    | some buf => exact .inr ⟨buf, left, rfl, rfl, rfl⟩

@[simp] theorem RetryArgs.loop_recv (recv : RecvState) (copies : List Bytes) (left : ℕ) :
    (a.loop recv copies left).recv = recv := by
  rcases a.loop_cases recv copies left with ⟨h, -⟩ | ⟨buf, left', -, -, h⟩ <;> rw [h]

/-- The reply test of the code is a test of the message. -/
theorem RetryArgs.awaited_iff (f : LucpFrame) :
    a.Awaited f.msg = true ↔ f.msgType = a.expectCmd ∧ f.seqNum = a.frame.seqNum := by
  simp [Awaited, LucpFrame.msg]

/-! ## When the stream stays framed

Every attempt writes the frame from its first byte, whatever the attempt before it left behind.
What decides is therefore whether some `write()` fails with a copy begun and not finished, and a
later one takes a byte.  Both can be read off the answers of `write()` alone. -/

/-- What the answers of `write()` so far say. -/
structure WriteScan where
  /-- The bytes taken. -/
  accepted : ℕ
  /-- Did a `write()` fail with a copy of the frame begun and not finished? -/
  torn : Bool
  /-- Has no `write()` taken a byte after such a failure? -/
  clean : Bool

/-- Before the first answer. -/
def WriteScan.zero : WriteScan := ⟨0, false, true⟩

/-- One more answer; `len` is the length of the frame on the wire. -/
def WriteScan.next (len : ℕ) (s : WriteScan) : RetryEvent → WriteScan
  | .write .eintr => s
  | .write .error => { s with torn := s.torn || s.accepted % len != 0 }
  | .write (.wrote n) =>
    if n = 0 then { s with torn := s.torn || s.accepted % len != 0 }
    else { s with accepted := s.accepted + n, clean := s.clean && !s.torn }
  | .select _ => s
  | .read _ => s

/-- The scan of a whole run. -/
def scanWrites (len : ℕ) (es : List RetryEvent) : WriteScan := es.foldl (WriteScan.next len) .zero

/-- No `write()` takes a byte after another one failed in the middle of a copy. -/
def CleanWrites (len : ℕ) (es : List RetryEvent) : Prop := (scanWrites len es).clean = true

instance (len : ℕ) (es : List RetryEvent) : Decidable (CleanWrites len es) :=
  inferInstanceAs (Decidable (_ = true))

theorem scanWrites_snoc (len : ℕ) (es : List RetryEvent) (e : RetryEvent) :
    scanWrites len (es ++ [e]) = (scanWrites len es).next len e := by
  rw [scanWrites, List.foldl_append]; rfl

/-- Some copy was begun and not finished. -/
def CutShort (w : Bytes) (copies : List Bytes) : Prop := ∃ x ∈ copies, ¬ (x = [] ∨ x = w)

theorem cutShort_cons {w x : Bytes} {copies : List Bytes} :
    CutShort w (x :: copies) ↔ ¬ (x = [] ∨ x = w) ∨ CutShort w copies := by
  simp [CutShort]

/-- Behind copies that are whole, a copy may grow; behind others, only stay empty. -/
theorem aligned_cons_cutShort {w x : Bytes} {copies : List Bytes} :
    Aligned w (x :: copies) ↔ (x ≠ [] → ¬ CutShort w copies) ∧ Aligned w copies := by
  have h : ¬ CutShort w copies ↔ ∀ y ∈ copies, y = [] ∨ y = w := by
    simp only [CutShort, not_exists, not_and, not_not]
  rw [aligned_cons, h]

/-- The copies of a call agree with the scan of its run.  `older` are the copies but for the one in
the making, of which `written` bytes are out. -/
structure WriteScan.Agrees (s : WriteScan) (w : Bytes) (written : ℕ) (older copies : List Bytes) :
    Prop where
  torn : s.torn = true ↔ CutShort w older
  clean : s.clean = true ↔ Aligned w copies
  accepted : s.torn = false → s.accepted % w.length = written

/-- The invariant of the machine: every copy is a beginning of the frame, the copy in the making is
as long as `full_write` believes, and the scan of the run agrees. -/
structure RetryCall.Scanned (c : RetryCall) (w : Bytes) (s : WriteScan) : Prop where
  beginning : ∀ x ∈ c.copies, x <+: w
  sending : ∀ buf written, c.pc = .sending buf written → buf = w ∧ written < w.length ∧
    ∃ older, c.copies = w.take written :: older ∧ s.Agrees w written older c.copies
  idle : (∀ buf written, c.pc ≠ .sending buf written) → s.Agrees w 0 c.copies c.copies

/-- A failed `write()`, in terms of the scan. -/
theorem WriteScan.next_failed {len written : ℕ} {r : WriteResult} (s : WriteScan)
    (hw : written < len) (h : fullWriteTurn len written r = .failed) :
    s.next len (.write r) = { s with torn := s.torn || s.accepted % len != 0 } := by
  cases r with
  | eintr => rw [fullWriteTurn, fullWriteTest, if_pos hw] at h; cases h
  | error => rfl
  | wrote n =>
    rw [fullWriteTurn] at h
    split at h
    · next hn => rw [next, if_pos hn]
    · rw [fullWriteTest] at h
      split at h <;> cases h

/-- Any other answer, in terms of the scan. -/
theorem WriteScan.next_taken {len written : ℕ} {r : WriteResult} (s : WriteScan)
    (h : fullWriteTurn len written r ≠ .failed) :
    s.next len (.write r)
      = ⟨s.accepted + r.count, s.torn, s.clean && (r.count == 0 || !s.torn)⟩ := by
  cases r with
  | eintr => simp [next, WriteResult.count]
  | error => exact absurd rfl h
  | wrote n =>
    have hn : n ≠ 0 := fun hn => h (by rw [fullWriteTurn, if_pos hn])
    have hb : (n == 0) = false := beq_eq_false_iff_ne.2 hn
    simp [next, WriteResult.count, hn, hb]

/-- A copy that is still a proper beginning of the frame is empty exactly at its start. -/
theorem cutShort_take {w : Bytes} {written : ℕ} (hw : written < w.length) :
    ¬ (w.take written = [] ∨ w.take written = w) ↔ written ≠ 0 := by
  have hlen : (w.take written).length = written := by rw [List.length_take]; omega
  have hne : w.take written ≠ w := fun h => by rw [h] at hlen; omega
  have hnil : w.take written = [] ↔ written = 0 := by rw [← List.length_eq_zero_iff, hlen]
  simp [hne, hnil]

/-- The kernel takes some of the copy in the making. -/
theorem WriteScan.Agrees.grow {s : WriteScan} {w x : Bytes} {written : ℕ} {older : List Bytes}
    (h : s.Agrees w written older (x :: older)) (x' : Bytes) (n : ℕ) (hx : x' = [] → n = 0)
    (hgrow : n = 0 → x' = x) :
    (s.clean && (n == 0 || !s.torn)) = true ↔ Aligned w (x' :: older) := by
  rcases Nat.eq_zero_or_pos n with hn | hn
  · rw [hgrow hn, ← h.clean]
    simp [hn]
  · have hx' : x' ≠ [] := fun h0 => hn.ne' (hx h0)
    have hclean : s.torn = false → (s.clean = true ↔ Aligned w older) := fun ht => by
      have hcut : ¬ CutShort w older := by rw [← h.torn, ht]; simp
      rw [h.clean, aligned_cons_cutShort]
      exact and_iff_right fun _ => hcut
    rw [aligned_cons_cutShort, ← h.torn]
    cases ht : s.torn with
    | true => simp [hn.ne', hx']
    | false => simp [hclean ht]

theorem RetryCall.Scanned.clean {c : RetryCall} {w : Bytes} {s : WriteScan} (h : c.Scanned w s) :
    s.clean = true ↔ Aligned w c.copies := by
  by_cases hpc : ∃ buf written, c.pc = .sending buf written
  · obtain ⟨buf, written, hpc⟩ := hpc
    obtain ⟨-, -, older, -, hagrees⟩ := h.sending buf written hpc
    exact hagrees.clean
  · exact (h.idle fun buf written heq => hpc ⟨buf, written, heq⟩).clean

/-- The next turn of the retry loop starts from a scan that agrees. -/
theorem RetryArgs.scanned_loop {s : WriteScan} {recv : RecvState} {copies : List Bytes} {left : ℕ}
    (hpre : ∀ x ∈ copies, x <+: a.frame.encode)
    (h : s.Agrees a.frame.encode 0 copies copies) :
    (a.loop recv copies left).Scanned a.frame.encode s := by
  rcases a.loop_cases recv copies left with ⟨hloop, -⟩ | ⟨buf, left', hpack, -, hloop⟩
  · rw [hloop]
    exact ⟨hpre, fun buf written hpc => (by cases hpc), fun _ => h⟩
  · obtain ⟨rfl, hlen⟩ := lucpNetSendPack_some hpack
    rw [hloop]
    refine ⟨fun x hx => ?_, fun buf written hpc => ?_, fun hpc => absurd rfl (hpc _ _)⟩
    · rcases List.mem_cons.1 hx with rfl | hx
      · exact List.nil_prefix
      · exact hpre x hx
    · cases hpc
      refine ⟨rfl, by omega, copies, by simp, h.torn, ?_, h.accepted⟩
      rw [h.clean, aligned_cons]
      simp

theorem RetryCall.Scanned.afterRecv {c : RetryCall} {s : WriteScan}
    (h : c.Scanned a.frame.encode s) (hpc : ∀ buf written, c.pc ≠ .sending buf written)
    (out : RecvState × Option RecvExit) : (a.afterRecv c out).Scanned a.frame.encode s := by
  have hidle := h.idle hpc
  rw [RetryArgs.afterRecv]
  split
  · exact ⟨h.beginning, fun buf written hpc' => (by cases hpc'), fun _ => hidle⟩
  · split
    · exact ⟨h.beginning, fun buf written hpc' => (by cases hpc'), fun _ => hidle⟩
    · exact RetryArgs.scanned_loop h.beginning hidle

/-- The attempt is given up, and with it the copy in the making. -/
theorem RetryCall.Scanned.afterWrite_failed {c : RetryCall} {s : WriteScan} {written : ℕ}
    {r : WriteResult} (h : c.Scanned a.frame.encode s)
    (hpc : c.pc = .sending a.frame.encode written)
    (hfail : fullWriteTurn a.frame.encode.length written r = .failed) :
    (a.afterWrite c a.frame.encode written r).Scanned a.frame.encode
      (s.next a.frame.encode.length (.write r)) := by
  obtain ⟨-, hw, older, hcopies, hagrees⟩ := h.sending _ written hpc
  rw [hcopies] at hagrees
  rw [RetryArgs.afterWrite, hfail, s.next_failed hw hfail]
  refine RetryArgs.scanned_loop h.beginning ?_
  rw [hcopies]
  refine ⟨?_, hagrees.clean, fun ht => ?_⟩
  · rw [cutShort_cons, cutShort_take hw, ← hagrees.torn]
    cases ht : s.torn with
    | true => simp
    | false => simp [hagrees.accepted ht]
  · simp only [Bool.or_eq_false_iff, bne_eq_false_iff_eq] at ht
    exact ht.2

theorem RetryCall.Scanned.afterWrite {c : RetryCall} {s : WriteScan} {buf : Bytes} {written : ℕ}
    {r : WriteResult} (h : c.Scanned a.frame.encode s) (hpc : c.pc = .sending buf written)
    (hr : r.count ≤ buf.length - written) :
    (a.afterWrite c buf written r).Scanned a.frame.encode
      (s.next a.frame.encode.length (.write r)) := by
  obtain ⟨rfl, hw, older, hcopies, hagrees⟩ := h.sending buf written hpc
  by_cases hfail : fullWriteTurn a.frame.encode.length written r = .failed
  · exact h.afterWrite_failed hpc hfail
  set w := a.frame.encode with hwdef
  rw [hcopies] at hagrees
  have hpre : ∀ x ∈ older, x <+: w := fun x hx =>
    h.beginning x (by rw [hcopies]; exact List.mem_cons_of_mem _ hx)
  rw [s.next_taken hfail]
  -- the copy in the making has grown by what was taken
  have hgrow : accept ((w.drop written).take r.count) c.copies
      = w.take (written + r.count) :: older := by
    rw [hcopies, accept, ← List.take_add]
  have hclean := hagrees.grow (w.take (written + r.count)) r.count
    (fun hnil => by
      have hlen := congrArg List.length hnil
      rw [List.length_take, List.length_nil] at hlen
      omega)
    (fun hz => by rw [hz, Nat.add_zero])
  have hpre' : ∀ x ∈ w.take (written + r.count) :: older, x <+: w := fun x hx => by
    rcases List.mem_cons.1 hx with rfl | hx
    · exact List.take_prefix _ _
    · exact hpre x hx
  have hmod : s.torn = false →
      (s.accepted + r.count) % w.length = (written + r.count) % w.length := fun ht => by
    rw [← hagrees.accepted ht, Nat.mod_add_mod]
  rcases fullWriteTurn_cases hw r with ⟨hturn, -⟩ | ⟨hturn, hlt⟩ | ⟨hturn, hge⟩
  · exact absurd hturn hfail
  · rw [RetryArgs.afterWrite, hturn, hgrow]
    refine ⟨hpre', fun buf' written' hpc' => ?_, fun hpc' => absurd rfl (hpc' _ _)⟩
    cases hpc'
    exact ⟨rfl, hlt, older, rfl, hagrees.torn, hclean,
      fun ht => by rw [hmod ht, Nat.mod_eq_of_lt hlt]⟩
  · have heq : written + r.count = w.length := by omega
    rw [RetryArgs.afterWrite, hturn, hgrow]
    refine ⟨hpre', fun buf' written' hpc' => (by cases hpc'), fun _ => ⟨?_, hclean, fun ht => ?_⟩⟩
    · rw [heq, List.take_length, cutShort_cons, hagrees.torn]
      simp
    · rw [hmod ht, heq, Nat.mod_self]

theorem RetryCall.Scanned.step {c c' : RetryCall} {e : RetryEvent} {s : WriteScan}
    (h : c.Scanned a.frame.encode s) (hs : RetryStep a c e c') :
    c'.Scanned a.frame.encode (s.next a.frame.encode.length e) := by
  cases hs with
  | write r hpc hr => exact h.afterWrite hpc hr
  | select r hpc =>
    have hne : ∀ buf written, c.pc ≠ .sending buf written := fun _ _ => by rw [hpc]; simp
    cases r with
    | ready => exact h.afterRecv hne _
    | eintr => exact h.afterRecv hne _
    | timeout => exact RetryArgs.scanned_loop h.beginning (h.idle hne)
    | error => exact RetryArgs.scanned_loop h.beginning (h.idle hne)
  | read r hpc hr => exact h.afterRecv (fun _ _ => by rw [hpc]; simp) _

theorem RetryArgs.scanned_start (a : RetryArgs) (ctx : LucpNetCtx) (reply : LucpFrame)
    (nRetries : Int) : (a.start ctx reply nRetries).Scanned a.frame.encode .zero := by
  refine scanned_loop (fun x hx => (by cases hx)) ⟨?_, ?_, fun _ => Nat.zero_mod _⟩
  · simp [WriteScan.zero, CutShort]
  · simp [WriteScan.zero, Aligned]

theorem RetryCall.scanned_of_run {ctx : LucpNetCtx} {reply : LucpFrame} {nRetries : Int}
    {es : List RetryEvent} {c : RetryCall}
    (hrun : (retrySystem a ctx reply nRetries).Run (a.start ctx reply nRetries) es c) :
    c.Scanned a.frame.encode (scanWrites a.frame.encode.length es) := by
  refine hrun.invariant_of (fun _ _ => True)
    (fun es c => c.Scanned a.frame.encode (scanWrites a.frame.encode.length es))
    (a.scanned_start ctx reply nRetries) (fun fs t e t' _ ht _ hs => ?_) fun _ _ _ _ _ _ => trivial
  rw [scanWrites_snoc]
  exact ht.step hs

/-- **The stream stays framed exactly in the clean runs.**  At every moment of every run, what the
peer was given is a number of complete copies and at most a beginning of one more, with no byte put
behind a copy that was cut short, if and only if no `write()` took a byte after another one failed
in the middle of a copy.  A peer that decodes the stream of such a run never finds it corrupted. -/
theorem retry_framing_iff {ctx : LucpNetCtx} {reply : LucpFrame} {nRetries : Int}
    {es : List RetryEvent} {c : RetryCall}
    (hrun : (retrySystem a ctx reply nRetries).Run (a.start ctx reply nRetries) es c) :
    (Framed a.frame.encode c.sent ∧ Aligned a.frame.encode c.copies
        ↔ CleanWrites a.frame.encode.length es) ∧
      (CleanWrites a.frame.encode.length es → a.frame.Valid →
        ∃ k, (unpackDecoder a.host).reference c.sent
          = List.replicate k (.item a.frame.msg) ++ [.eof]) := by
  have hscan := RetryCall.scanned_of_run hrun
  have hiff : CleanWrites a.frame.encode.length es ↔ Aligned a.frame.encode c.copies := hscan.clean
  have hne : a.frame.encode ≠ [] := by simp [LucpFrame.encode, be32]
  have hframed : Aligned a.frame.encode c.copies → Framed a.frame.encode c.sent := fun h =>
    h.framed hne hscan.beginning
  refine ⟨?_, fun hclean hvalid => ?_⟩
  · rw [hiff]
    exact and_iff_right_of_imp hframed
  · have h := hframed (hiff.1 hclean)
    rw [hvalid.encode_eq] at h
    exact h.reference (a.frame.msg.encodes a.host)

/-- A bare request with sequence number 7 that waits for an `ACK_START`. -/
def RetryArgs.sample : RetryArgs :=
  ⟨.little, lucpFrameMake .zero 7 lucpMtypUploadRequest 0 none 0, lucpMtypAckStart⟩

/-- An interrupted `write()`, and no answer. -/
theorem retry_framing_iff_eintr : ∃ c : RetryCall, c.sent = RetryArgs.sample.frame.encode ∧
    Framed RetryArgs.sample.frame.encode c.sent := by
  obtain ⟨c, hrun, hsent⟩ := System.Run.of_exec
    (S := retrySystem .sample (lucpNetCtxInit 3) .zero 2) _ (fun _ _ _ => RetryStep.of_step)
    (fun c => decide (c.sent = RetryArgs.sample.frame.encode))
    (RetryArgs.sample.start (lucpNetCtxInit 3) .zero 2)
    [.write (.wrote 5), .write .eintr, .write (.wrote 9), .select .timeout] (by decide +kernel)
  exact ⟨c, of_decide_eq_true hsent, ((retry_framing_iff hrun).1.2 (by decide)).1⟩

/-- An attempt that fails after five bytes is followed by a complete copy, so that the peer is given
the beginning of a frame and then, in the middle of it, a frame. -/
theorem retry_framing_lost : ¬ ∀ (a : RetryArgs) (ctx : LucpNetCtx) (reply : LucpFrame)
    (nRetries : Int) (es : List RetryEvent) (c : RetryCall),
    (retrySystem a ctx reply nRetries).Run (a.start ctx reply nRetries) es c →
      Framed a.frame.encode c.sent := by
  intro h
  obtain ⟨c, hrun, hsent⟩ := System.Run.of_exec
    (S := retrySystem .sample (lucpNetCtxInit 3) .zero 2) _ (fun _ _ _ => RetryStep.of_step)
    (fun c => decide (c.sent
      = RetryArgs.sample.frame.encode.take 5 ++ RetryArgs.sample.frame.encode))
    (RetryArgs.sample.start (lucpNetCtxInit 3) .zero 2)
    [.write (.wrote 5), .write .error, .write (.wrote 14)] (by decide +kernel)
  obtain ⟨k, p, hframed, -, hlt⟩ := h _ _ _ _ _ _ hrun
  rw [of_decide_eq_true hsent] at hframed
  have hw : RetryArgs.sample.frame.encode.length = 14 := by decide
  have hlen := congrArg List.length hframed
  simp only [List.length_append, List.length_take, List.length_flatten, List.map_replicate,
    List.sum_replicate_nat, hw] at hlen
  obtain rfl : k = 1 := by omega
  have htake := congrArg (List.take 14) hframed
  rw [List.replicate_one, List.flatten_singleton, ← hw, List.take_left, hw] at htake
  exact absurd htake (by decide)

end Lucp
