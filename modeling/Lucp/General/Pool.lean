import Lucp.General.System
import Mathlib.Data.List.Perm.Basic
import Mathlib.Data.List.Nodup
import Mathlib.Order.Basic

/-!
# Pools

A pool keeps things that are expensive to make while nobody uses them.  Whoever needs one takes it
from the pool or, if the pool was empty when they looked, makes a new one; whoever is done puts it
back, and if the pool is full it is destroyed instead.  This file is about pools and nothing else:
it names no program.

## What is here

* `Pool α n` — a pool of at most `n` things, `Pool.acquire` and `Pool.release`.
* `Usage`, `usage` — those who use a pool, in any order: what they hold, and what there is.
* `usage_balanced` — **what there is** is held once or pooled once: nothing is handed out twice, and
  nothing is lost.
* `usage_kept` — as long as no more things are held or being made than the pool has room for,
  nothing is ever destroyed, and no more things are made than that.
-/

set_option autoImplicit false

universe u

/-- A pool, what was put back last first. -/
structure Pool (α : Type u) (n : ℕ) where
  items : List α
  fits : items.length ≤ n

namespace Pool

variable {α : Type u} {n : ℕ}

/-- A pool with nothing in it. -/
def empty (α : Type u) (n : ℕ) : Pool α n := ⟨[], Nat.zero_le n⟩

/-- What was put back last, if anything. -/
def acquire (p : Pool α n) : Option (α × Pool α n) :=
  match p with
  | ⟨[], _⟩ => none
  | ⟨x :: rest, h⟩ => some (x, ⟨rest, Nat.le_of_succ_le h⟩)

/-- One more, if there is room. -/
def release (p : Pool α n) (x : α) : Pool α n :=
  if h : p.items.length < n then ⟨x :: p.items, h⟩ else p

/-- Nothing comes out of an empty pool only. -/
theorem acquire_eq_none_iff {p : Pool α n} : p.acquire = none ↔ p.items = [] := by
  rcases p with ⟨_ | ⟨x, rest⟩, hfits⟩
  · exact iff_of_true rfl rfl
  · exact iff_of_false (by simp [acquire]) (List.cons_ne_nil x rest)

theorem exists_acquire {p : Pool α n} (h : p.items ≠ []) : ∃ r, p.acquire = some r :=
  Option.ne_none_iff_exists'.1 fun hnone => h (acquire_eq_none_iff.1 hnone)

theorem acquire_eq_some {p q : Pool α n} {x : α} (h : p.acquire = some (x, q)) :
    p.items = x :: q.items := by
  rcases p with ⟨_ | ⟨y, rest⟩, hfits⟩
  · cases h
  · obtain ⟨rfl, rfl⟩ := Prod.mk.inj (Option.some.inj h)
    rfl

theorem release_items_of_lt {p : Pool α n} (h : p.items.length < n) (x : α) :
    (p.release x).items = x :: p.items := by
  rw [release, dif_pos h]

theorem release_of_full {p : Pool α n} (h : ¬ p.items.length < n) (x : α) : p.release x = p :=
  dif_neg h

/-- What is in a pool is either what was put back or what has been there. -/
theorem mem_release {p : Pool α n} {x y : α} (h : y ∈ (p.release x).items) :
    y = x ∨ y ∈ p.items := by
  by_cases hlt : p.items.length < n
  · rw [release_items_of_lt hlt] at h
    exact List.mem_cons.1 h
  · rw [release_of_full hlt] at h
    exact .inr h

/-! ## Who uses a pool -/

/-- A pool in use. -/
structure Usage (α : Type u) (n : ℕ) where
  pool : Pool α n
  /-- What the users have. -/
  held : List α
  /-- All things there are. -/
  alive : List α
  /-- How many users have found the pool empty and are about to make something. -/
  making : ℕ

/-- A pool that nobody has used. -/
def Usage.fresh (α : Type u) (n : ℕ) : Usage α n := ⟨empty α n, [], [], 0⟩

/-- What happens to the things. -/
inductive Use (α : Type u)
  | takes (x : α)
  | looks
  | makes (x : α)
  | fails
  | returns (x : α)

variable [DecidableEq α]

/-- One use.  A new thing is not one of those that there are, and only what is held is put back.
Whoever makes something has found the pool empty before, which it need not be any more. -/
inductive UseStep : Usage α n → Use α → Usage α n → Prop
  | take {s : Usage α n} {x : α} {p : Pool α n} (h : s.pool.acquire = some (x, p)) :
      UseStep s (.takes x) ⟨p, x :: s.held, s.alive, s.making⟩
  | look {s : Usage α n} (h : s.pool.acquire = none) :
      UseStep s .looks { s with making := s.making + 1 }
  | make {s : Usage α n} {x : α} (h : 0 < s.making) (hnew : x ∉ s.alive) :
      UseStep s (.makes x) ⟨s.pool, x :: s.held, x :: s.alive, s.making - 1⟩
  | fail {s : Usage α n} (h : 0 < s.making) :
      UseStep s .fails { s with making := s.making - 1 }
  | keep {s : Usage α n} {x : α} (h : x ∈ s.held) (hroom : s.pool.items.length < n) :
      UseStep s (.returns x) ⟨s.pool.release x, s.held.erase x, s.alive, s.making⟩
  | destroy {s : Usage α n} {x : α} (h : x ∈ s.held) (hfull : ¬ s.pool.items.length < n) :
      UseStep s (.returns x) ⟨s.pool.release x, s.held.erase x, s.alive.erase x, s.making⟩

/-- The uses of a pool that starts empty. -/
def usage (α : Type u) [DecidableEq α] (n : ℕ) : System (Usage α n) (Use α) where
  init s := s = Usage.fresh α n
  step := UseStep

/-- What there is, is held or pooled, and there once. -/
structure Balanced (s : Usage α n) : Prop where
  perm : s.alive.Perm (s.held ++ s.pool.items)
  nodup : s.alive.Nodup

/-- **One use** keeps the balance. -/
theorem Balanced.step {s s' : Usage α n} {e : Use α} (h : Balanced s) (hstep : UseStep s e s') :
    Balanced s' := by
  obtain ⟨hperm, hnodup⟩ := h
  cases hstep with
  | take hget =>
    refine ⟨hperm.trans ?_, hnodup⟩
    rw [acquire_eq_some hget]
    exact List.perm_middle
  | look _ => exact ⟨hperm, hnodup⟩
  | make _ hnew => exact ⟨hperm.cons _, List.nodup_cons.2 ⟨hnew, hnodup⟩⟩
  | fail _ => exact ⟨hperm, hnodup⟩
  | keep hmem hroom =>
    refine ⟨hperm.trans ?_, hnodup⟩
    rw [release_items_of_lt hroom]
    exact ((List.perm_cons_erase hmem).append_right _).trans List.perm_middle.symm
  | destroy hmem hfull =>
    refine ⟨?_, hnodup.erase _⟩
    rw [release_of_full hfull]
    rw [← List.erase_append_left _ hmem]
    exact hperm.erase _

/-- **What there is**, whatever the users do and in whatever order, is held or pooled, and nothing
is there twice: no two of them hold the same thing, and nobody holds what is in the pool. -/
theorem usage_balanced {s : Usage α n} {es : List (Use α)}
    (h : (usage α n).Run (Usage.fresh α n) es s) :
    s.alive.Perm (s.held ++ s.pool.items) ∧ (s.held ++ s.pool.items).Nodup := by
  have hinv : Balanced s := h.invariant Balanced ⟨List.Perm.refl [], List.nodup_nil⟩
    fun _ _ _ hi hs => hi.step hs
  exact ⟨hinv.perm, hinv.perm.nodup_iff.1 hinv.nodup⟩

/-! ## Who does not need more than there is room for -/

/-- The things that were made. -/
def made (es : List (Use α)) : List α :=
  es.filterMap fun
    | .makes x => some x
    | .takes _ | .looks | .fails | .returns _ => none

/-- No more things are held or being made than there is room for. -/
def Roomy (s : Usage α n) : Prop := s.held.length + s.making ≤ n

instance (s : Usage α n) : Decidable (Roomy s) := inferInstanceAs (Decidable (_ ≤ _))

/-- Everything that was made is still there, and there is room for all of it, and for what is being
made. -/
structure Kept (es : List (Use α)) (s : Usage α n) : Prop where
  balanced : Balanced s
  made : (made es).Perm s.alive
  room : s.held.length + s.making + s.pool.items.length ≤ n

/-- **One use** by users that never hold or make more than there is room for. -/
theorem Kept.step {es : List (Use α)} {s s' : Usage α n} {e : Use α} (h : Kept es s)
    (hroom : Roomy s') (hstep : UseStep s e s') : Kept (es ++ [e]) s' := by
  have hmade : Pool.made (es ++ [e]) = Pool.made es ++ Pool.made [e] := List.filterMap_append
  refine ⟨h.balanced.step hstep, ?_, ?_⟩
  · rw [hmade]
    have hsame : (Pool.made es ++ []).Perm s.alive := (List.append_nil _).symm ▸ h.made
    cases hstep with
    | take _ => exact hsame
    | look _ => exact hsame
    | make _ _ => exact (List.perm_append_singleton _ _).trans (h.made.cons _)
    | fail _ => exact hsame
    | keep _ _ => exact hsame
    | destroy hmem hfull =>
      have hpos := List.length_pos_of_mem hmem
      have hle := h.room
      omega
  · have hle := h.room
    cases hstep with
    | take hget =>
      rename_i x p
      rw [acquire_eq_some hget, List.length_cons] at hle
      show (x :: s.held).length + s.making + p.items.length ≤ n
      rw [List.length_cons]
      omega
    | look hget =>
      -- nothing is pooled when somebody starts to make something
      show s.held.length + (s.making + 1) + s.pool.items.length ≤ n
      rw [acquire_eq_none_iff.1 hget]
      exact hroom
    | make hmaking _ =>
      show (_ :: s.held).length + (s.making - 1) + s.pool.items.length ≤ n
      rw [List.length_cons]
      omega
    | fail hmaking =>
      show s.held.length + (s.making - 1) + s.pool.items.length ≤ n
      omega
    | keep hmem hlt =>
      show (s.held.erase _).length + s.making + (s.pool.release _).items.length ≤ n
      have hpos := List.length_pos_of_mem hmem
      rw [List.length_erase_of_mem hmem, release_items_of_lt hlt, List.length_cons]
      omega
    | destroy hmem hfull =>
      have hpos := List.length_pos_of_mem hmem
      omega

/-- **Users that never hold or make more than there is room for** never make anything twice over:
whatever they have made is still there, and fits into the pool. -/
theorem usage_kept {s : Usage α n} {es : List (Use α)}
    (h : ((usage α n).within Roomy).Run (Usage.fresh α n) es s) :
    (made es).Perm (s.held ++ s.pool.items) ∧ (made es).length ≤ n := by
  have hinv : Kept es s := h.invariant_of (fun _ _ => True) Kept
    ⟨⟨List.Perm.refl [], List.nodup_nil⟩, List.Perm.refl [], Nat.zero_le n⟩
    (fun _ _ _ _ _ hi _ hs => hi.step hs.1 hs.2) fun _ _ _ _ _ _ => trivial
  have hperm := hinv.made.trans hinv.balanced.perm
  have hle := hinv.room
  refine ⟨hperm, hperm.length_eq.trans_le ?_⟩
  rw [List.length_append]
  omega

end Pool
