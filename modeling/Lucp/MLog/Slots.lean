import Lucp.General.System
import Mathlib.Data.Fintype.Card
import Mathlib.Data.List.FinRange
import Mathlib.Data.List.Nodup
import Mathlib.Data.List.Perm.Basic
import Mathlib.Logic.Function.Basic

/-!
# The clients of `logd`

`logd` has 20 slots for its connections.  `connection_acceptor()` puts each new connection into the
first slot that is not `connected`, and starts a thread `client_handler()` for it, which reads the
descriptor out of the slot again for every frame.  When an application is not registered,
`handle_init_request()` marks the slot as free, while the thread still has the connection open and
is only about to look at the mark.

## What is here

* `SlotStep`, `slotSystem` — the acceptor and the handlers, in any order.
* `Sound` — every handler reads its own connection, and every open connection has a handler.
* `slots_sound_iff` — **when this is so throughout**: exactly if no connection is put into a slot
  whose handler has not ended.
-/

set_option autoImplicit false

namespace Lucp.MLog

/-! ## The threads -/

/-- What the threads use of a `ClientConnection`. -/
structure Slot where
  sockfd : ℕ
  connected : Bool
  deriving DecidableEq

/-- Where a `client_handler()` is. -/
inductive HandlerPlace
  | tests
  | receives
  | cleans
  deriving DecidableEq

/-- A thread: its slot, and the descriptor it was started for. -/
structure Handler where
  slot : Fin 20
  own : ℕ
  place : HandlerPlace
  deriving DecidableEq

/-- The slots, the threads that have not ended, and the open connections. -/
structure DltServer where
  clients : Fin 20 → Slot
  handlers : List Handler
  opened : List ℕ

/-- What `dlt_server_init()` leaves; no slot is connected, so what its descriptor is does not
matter. -/
def dltServerInit : DltServer := ⟨fun _ => ⟨0, false⟩, [], []⟩

/-- `find_free_client_slot()`. -/
def findFreeClientSlot (clients : Fin 20 → Slot) : Option (Fin 20) :=
  (List.finRange 20).find? fun i => !(clients i).connected

/-- What happens: a connection arrives, or a handler has a turn. -/
inductive SlotEvent
  | accepts (sockfd : ℕ)
  | moves
  deriving DecidableEq

/-- One turn of the acceptor or of a handler.  The kernel gives out no descriptor that is open.

The acceptor looks for a slot and marks it under two different locks of its mutex, and handlers may
have turns in between.  As none of them marks a slot as taken, the slot is still free then, and it
is as if the turns of the handlers in this slot had come before the look and those of the others
after the mark; so both are one step here. -/
inductive SlotStep : DltServer → SlotEvent → DltServer → Prop
  | reject {s : DltServer} {sockfd : ℕ} (h : findFreeClientSlot s.clients = none) :
      SlotStep s (.accepts sockfd) s
  | start {s : DltServer} {sockfd : ℕ} {i : Fin 20} (hnew : sockfd ∉ s.opened)
      (h : findFreeClientSlot s.clients = some i) :
      SlotStep s (.accepts sockfd)
        ⟨Function.update s.clients i ⟨sockfd, true⟩, ⟨i, sockfd, .tests⟩ :: s.handlers,
          sockfd :: s.opened⟩
  /-- `pthread_create()` fails, and the connection is closed. -/
  | fail {s : DltServer} {sockfd : ℕ} {i : Fin 20} (hnew : sockfd ∉ s.opened)
      (h : findFreeClientSlot s.clients = some i) :
      SlotStep s (.accepts sockfd)
        ⟨Function.update s.clients i ⟨sockfd, false⟩, s.handlers, s.opened⟩
  | test {s : DltServer} {before after : List Handler} {h : Handler}
      (hs : s.handlers = before ++ h :: after) (hplace : h.place = .tests) :
      SlotStep s .moves
        { s with handlers := before
            ++ { h with place := if (s.clients h.slot).connected then .receives else .cleans }
            :: after }
  /-- A frame that is not the request of an unregistered application, or no frame at all. -/
  | receive {s : DltServer} {before after : List Handler} {h : Handler} (frame : Bool)
      (hs : s.handlers = before ++ h :: after) (hplace : h.place = .receives) :
      SlotStep s .moves
        { s with handlers := before
            ++ { h with place := if frame then .tests else .cleans } :: after }
  /-- The request of an unregistered application. -/
  | refuse {s : DltServer} {before after : List Handler} {h : Handler}
      (hs : s.handlers = before ++ h :: after) (hplace : h.place = .receives) :
      SlotStep s .moves
        { s with
          clients := Function.update s.clients h.slot
            { s.clients h.slot with connected := false }
          handlers := before ++ { h with place := .tests } :: after }
  /-- The thread closes the descriptor in its slot, and ends. -/
  | clean {s : DltServer} {before after : List Handler} {h : Handler}
      (hs : s.handlers = before ++ h :: after) (hplace : h.place = .cleans) :
      SlotStep s .moves
        ⟨Function.update s.clients h.slot { s.clients h.slot with connected := false },
          before ++ after, s.opened.erase (s.clients h.slot).sockfd⟩

/-- The threads of `logd`. -/
def slotSystem : System DltServer SlotEvent where
  init s := s = dltServerInit
  step := SlotStep

/-! ## Whose connection it is -/

/-- The slot of a thread and its own descriptor. -/
def Handler.seat (h : Handler) : Fin 20 × ℕ := (h.slot, h.own)

/-- The seats of the threads. -/
def DltServer.seats (s : DltServer) : List (Fin 20 × ℕ) := s.handlers.map Handler.seat

/-- Every thread finds its own descriptor in its slot, has the slot for itself, and every open
connection has a thread. -/
structure Sound (s : DltServer) : Prop where
  own : ∀ p ∈ s.seats, (s.clients p.1).sockfd = p.2
  alone : (s.seats.map Prod.fst).Nodup
  served : s.opened.Perm (s.seats.map Prod.snd)

/-- The connection is not put into a slot whose thread has not ended. -/
def Unhurried (s : DltServer) : SlotEvent → Prop
  | .accepts _ => ∀ i, findFreeClientSlot s.clients = some i → i ∉ s.seats.map Prod.fst
  | .moves => True

instance (s : DltServer) (e : SlotEvent) : Decidable (Unhurried s e) :=
  match e with
  | .accepts _ => inferInstanceAs
      (Decidable (∀ i, findFreeClientSlot s.clients = some i → i ∉ s.seats.map Prod.fst))
  | .moves => isTrue trivial

/-- What neither the descriptors in the slots nor the seats have to do with. -/
theorem Sound.congr {s s' : DltServer} (h : Sound s)
    (hsockfd : ∀ i, (s'.clients i).sockfd = (s.clients i).sockfd) (hseats : s'.seats = s.seats)
    (hopened : s'.opened = s.opened) : Sound s' where
  own p hp := (hsockfd p.1).trans (h.own p (hseats ▸ hp))
  alone := hseats ▸ h.alone
  served := by
    rw [hseats, hopened]
    exact h.served

/-- The seats of threads one of which is in front of the others. -/
theorem seats_of_split {s : DltServer} {before after : List Handler} {h : Handler}
    (hs : s.handlers = before ++ h :: after) :
    s.seats = before.map Handler.seat ++ h.seat :: after.map Handler.seat := by
  rw [DltServer.seats, hs, List.map_append, List.map_cons]

/-- Marking a slot as free does not change its descriptor. -/
theorem sockfd_update (clients : Fin 20 → Slot) (i j : Fin 20) :
    (Function.update clients i { clients i with connected := false } j).sockfd
      = (clients j).sockfd := by
  rcases eq_or_ne j i with rfl | hne
  · rw [Function.update_self]
  · rw [Function.update_of_ne hne]

/-- **A new connection** in a slot. -/
theorem sound_start {s : DltServer} (h : Sound s) {sockfd : ℕ} {i : Fin 20} :
    Sound ⟨Function.update s.clients i ⟨sockfd, true⟩, ⟨i, sockfd, .tests⟩ :: s.handlers,
        sockfd :: s.opened⟩ ↔ i ∉ s.seats.map Prod.fst := by
  constructor
  · intro h'
    exact (List.nodup_cons.1 h'.alone).1
  · intro hfree
    refine ⟨fun p hp => ?_, List.nodup_cons.2 ⟨hfree, h.alone⟩, h.served.cons sockfd⟩
    rcases List.mem_cons.1 hp with rfl | hp
    · show (Function.update s.clients i ⟨sockfd, true⟩ i).sockfd = sockfd
      rw [Function.update_self]
    · have hne : p.1 ≠ i := fun heq => hfree (heq ▸ List.mem_map_of_mem hp)
      exact (congrArg Slot.sockfd (Function.update_of_ne hne _ _)).trans (h.own p hp)

/-- A connection that no thread could be started for. -/
theorem sound_fail {s : DltServer} (h : Sound s) {sockfd : ℕ} {i : Fin 20}
    (hnew : sockfd ∉ s.opened) :
    Sound ⟨Function.update s.clients i ⟨sockfd, false⟩, s.handlers, s.opened⟩
      ↔ i ∉ s.seats.map Prod.fst := by
  constructor
  · intro h' hmem
    obtain ⟨p, hp, rfl⟩ := List.mem_map.1 hmem
    have hown : sockfd = p.2 :=
      (congrArg Slot.sockfd (Function.update_self p.1 _ _)).symm.trans (h'.own p hp)
    exact hnew (h.served.mem_iff.2 (hown ▸ List.mem_map_of_mem hp))
  · intro hfree
    refine ⟨fun p hp => ?_, h.alone, h.served⟩
    have hne : p.1 ≠ i := fun heq => hfree (heq ▸ List.mem_map_of_mem hp)
    exact (congrArg Slot.sockfd (Function.update_of_ne hne _ _)).trans (h.own p hp)

/-- **One turn** that finds everything sound leaves it so, but for a connection in the slot of a
thread that has not ended. -/
theorem Sound.step_iff {s s' : DltServer} {e : SlotEvent} (h : Sound s) (hstep : SlotStep s e s') :
    Sound s' ↔ Unhurried s e := by
  cases hstep with
  | reject hfull => exact iff_of_true h fun i hi => by cases hfull.symm.trans hi
  | start _ hfree =>
    rw [sound_start h]
    exact ⟨fun hnot j hj => Option.some.inj (hfree.symm.trans hj) ▸ hnot, fun hall => hall _ hfree⟩
  | fail hnew hfree =>
    rw [sound_fail h hnew]
    exact ⟨fun hnot j hj => Option.some.inj (hfree.symm.trans hj) ▸ hnot, fun hall => hall _ hfree⟩
  | test hs _ =>
    exact iff_of_true (h.congr (fun _ => rfl)
      (by rw [seats_of_split hs, seats_of_split rfl]; rfl) rfl) trivial
  | receive frame hs _ =>
    exact iff_of_true (h.congr (fun _ => rfl)
      (by rw [seats_of_split hs, seats_of_split rfl]; rfl) rfl) trivial
  | refuse hs _ =>
    exact iff_of_true (h.congr (sockfd_update _ _)
      (by rw [seats_of_split hs, seats_of_split rfl]; rfl) rfl) trivial
  | clean hs _ =>
    rename_i before after hd _
    have hsplit := seats_of_split hs
    have hleft : (before.map Handler.seat ++ after.map Handler.seat).Sublist s.seats :=
      hsplit ▸ (List.sublist_cons_self hd.seat _).append_left _
    have hseats : DltServer.seats ⟨Function.update s.clients hd.slot
          { s.clients hd.slot with connected := false }, before ++ after,
          s.opened.erase (s.clients hd.slot).sockfd⟩
        = before.map Handler.seat ++ after.map Handler.seat := List.map_append
    have hown : (s.clients hd.slot).sockfd = hd.own :=
      h.own hd.seat (hsplit ▸ List.mem_append_right _ List.mem_cons_self)
    refine iff_of_true ⟨fun p hp => ?_, ?_, ?_⟩ trivial
    · rw [hseats] at hp
      exact (sockfd_update _ _ _).trans (h.own p (hleft.subset hp))
    · rw [hseats]
      exact h.alone.sublist (hleft.map Prod.fst)
    · have hserved : s.opened.Perm (hd.own ::
          (before.map Handler.seat ++ after.map Handler.seat).map Prod.snd) := by
        refine h.served.trans ?_
        rw [hsplit]
        exact List.perm_middle.map Prod.snd
      rw [hseats, hown]
      exact (hserved.erase hd.own).trans (List.Perm.of_eq (List.erase_cons_head _ _))

theorem sound_init : Sound dltServerInit :=
  ⟨fun _ hp => absurd hp List.not_mem_nil, List.nodup_nil, List.Perm.refl []⟩

/-- **When `logd` keeps its connections apart**: in exactly the runs in which no connection is put
into a slot whose thread has not ended, every thread reads its own connection and every open
connection has a thread, in all states; and then there are at most 20 threads. -/
theorem slots_sound_iff {es : List SlotEvent} {s : DltServer} :
    ((slotSystem.within Sound).Run dltServerInit es s ↔
        (slotSystem.restrict Unhurried).Run dltServerInit es s) ∧
      ((slotSystem.restrict Unhurried).Run dltServerInit es s → s.handlers.length ≤ 20) := by
  have hiff : (slotSystem.within Sound).Run dltServerInit es s ↔
      (slotSystem.restrict Unhurried).Run dltServerInit es s :=
    System.Run.within_iff Unhurried (fun _ => True) Sound trivial sound_init
      fun _ _ _ _ hsound hs => ⟨trivial, hsound.step_iff hs⟩
  refine ⟨hiff, fun hrun => ?_⟩
  have hsound : Sound s := (hiff.2 hrun).within_last sound_init
  have hlen := List.Nodup.length_le_card hsound.alone
  rwa [List.length_map, DltServer.seats, List.length_map, Fintype.card_fin] at hlen

/-- Two connections with a slot for each.  Where the first is refused and the second arrives before
the thread of the first has ended, they get the same slot, and that thread will read the connection
of the second. -/
theorem slots_sound_iff_runs :
    (∃ s, (slotSystem.within Sound).Run dltServerInit [.accepts 5, .moves, .accepts 6] s ∧
      s.seats = [(1, 6), (0, 5)]) ∧
      ∃ s, slotSystem.Run dltServerInit [.accepts 5, .moves, .moves, .accepts 6] s ∧
        s.seats = [(0, 6), (0, 5)] ∧
        ¬ (slotSystem.restrict Unhurried).Run dltServerInit
          [.accepts 5, .moves, .moves, .accepts 6] s := by
  constructor
  · refine ⟨_, slots_sound_iff.1.2 (.cons ⟨by decide, .start (by decide) rfl⟩
      (.cons ⟨trivial, @SlotStep.test _ [] [] _ rfl rfl⟩
        (.single ⟨by decide, .start (by decide) rfl⟩))), by decide⟩
  · refine ⟨_, .cons (.start (by decide) rfl) (.cons (@SlotStep.test _ [] [] _ rfl rfl)
      (.cons (@SlotStep.refuse _ [] [] _ rfl rfl) (.single (.start (by decide) rfl)))),
      by decide, fun hrun => ?_⟩
    have hsound := (slots_sound_iff.1.2 hrun).within_last sound_init
    exact absurd hsound.alone (by decide)

end Lucp.MLog
