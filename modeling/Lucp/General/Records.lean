import Mathlib.Data.List.Basic
import Mathlib.Logic.Equiv.Defs

/-!
# Streams of records

Many formats end in a part that is records one behind the other, with nothing in front of, between
or behind them, and their readers take one record off after the other and feed it to the rest of
the program until the input is used up.  Such a reader accepts an input exactly if it is the records
it has been fed, written one behind the other.

## What is here

* `Records.Codec` — how one record is written and read, with the two round trips as fields;
  `Codec.symbol`, `Codec.prod` and `Codec.map` put the codec of a structure together.
* `Codec.writeAll` — the records of a list, one behind the other; `writeAll_injective`.
* `Codec.feed` — the reader, with a bound for its rounds.
* `feed_eq_some_iff` — **what the reader accepts, and with which result**; `feed_writeAll` is the
  half that computes it.
-/

set_option autoImplicit false

namespace Records

universe u v w

variable {β : Type u} {ρ : Type v} {σ : Type w}

/-- How a record is written, and read off the front of an input. -/
structure Codec (β : Type u) (ρ : Type v) where
  write : ρ → List β
  read : List β → Option (ρ × List β)
  /-- What was written is read, and nothing behind it. -/
  read_write : ∀ r s, read (write r ++ s) = some (r, s)
  /-- What was read was written. -/
  of_read : ∀ {s r t}, read s = some (r, t) → s = write r ++ t
  /-- A record takes room. -/
  write_ne_nil : ∀ r, write r ≠ []

namespace Codec

/-! ## Structures -/

/-- One symbol. -/
def symbol : Codec β β where
  write b := [b]
  read s := s.head?.map fun b => (b, s.tail)
  read_write _ _ := rfl
  of_read {s r t} h := by
    obtain _ | ⟨b, s⟩ := s
    · cases h
    · rw [List.head?_cons, Option.map_some, Option.some.injEq, Prod.mk.injEq] at h
      rw [← h.1, ← h.2]
      rfl
  write_ne_nil _ := List.cons_ne_nil _ _

/-- One field and then another one. -/
def prod (C : Codec β ρ) (D : Codec β σ) : Codec β (ρ × σ) where
  write p := C.write p.1 ++ D.write p.2
  read s := (C.read s).bind fun p => (D.read p.2).map fun q => ((p.1, q.1), q.2)
  read_write p s := by
    rw [List.append_assoc, C.read_write, Option.bind_some, D.read_write]
    rfl
  of_read {s p t} h := by
    obtain ⟨⟨r, u⟩, hr, h⟩ := Option.bind_eq_some_iff.1 h
    obtain ⟨⟨x, v⟩, hx, heq⟩ := Option.map_eq_some_iff.1 h
    cases heq
    rw [C.of_read hr, List.append_assoc]
    exact congrArg (C.write r ++ ·) (D.of_read hx)
  write_ne_nil p h := C.write_ne_nil p.1 (List.append_eq_nil_iff.1 h).1

/-- The same record under another form. -/
def map (C : Codec β ρ) (e : ρ ≃ σ) : Codec β σ where
  write x := C.write (e.symm x)
  read s := (C.read s).map fun p => (e p.1, p.2)
  read_write x s := by
    rw [C.read_write, Option.map_some, e.apply_symm_apply]
  of_read {s x t} h := by
    obtain ⟨⟨r, u⟩, hr, heq⟩ := Option.map_eq_some_iff.1 h
    cases heq
    show s = C.write (e.symm (e r)) ++ u
    rw [C.of_read hr, e.symm_apply_apply]
  write_ne_nil x := C.write_ne_nil _

/-! ## One record behind the other -/

variable (C : Codec β ρ)

/-- The records, one behind the other. -/
def writeAll (rs : List ρ) : List β := rs.flatMap C.write

@[simp] theorem writeAll_nil : C.writeAll [] = [] := rfl

theorem writeAll_cons (r : ρ) (rs : List ρ) : C.writeAll (r :: rs) = C.write r ++ C.writeAll rs :=
  rfl

theorem writeAll_injective : Function.Injective C.writeAll := by
  intro rs ss h
  induction rs generalizing ss with
  | nil =>
    obtain _ | ⟨t, ss⟩ := ss
    · rfl
    · exact absurd (List.append_eq_nil_iff.1 h.symm).1 (C.write_ne_nil t)
  | cons r rs ih =>
    obtain _ | ⟨t, ss⟩ := ss
    · exact absurd (List.append_eq_nil_iff.1 h).1 (C.write_ne_nil r)
    · rw [writeAll_cons, writeAll_cons] at h
      have hread := C.read_write t (C.writeAll ss)
      rw [← h, C.read_write, Option.some.injEq, Prod.mk.injEq] at hread
      rw [hread.1, ih hread.2]

/-- Takes records off the input until it is used up, and feeds each of them to `step`. -/
def feed (step : σ → ρ → Option σ) : ℕ → σ → List β → Option σ
  | 0, x, s => if s.isEmpty then some x else none
  | fuel + 1, x, s =>
    if s.isEmpty then some x
    else (C.read s).bind fun p => (step x p.1).bind fun y => feed step fuel y p.2

variable {C} {step : σ → ρ → Option σ}

theorem feed_nil (fuel : ℕ) (x : σ) : C.feed step fuel x [] = some x := by
  cases fuel <;> rfl

theorem feed_of_ne_nil {s : List β} (hs : s ≠ []) (fuel : ℕ) (x : σ) :
    C.feed step (fuel + 1) x s
      = (C.read s).bind fun p => (step x p.1).bind fun y => C.feed step fuel y p.2 := by
  rw [feed, if_neg (by rwa [List.isEmpty_iff])]

/-- **The reader feeds the records of the input in their order.** -/
theorem feed_writeAll {rs : List ρ} {fuel : ℕ} (hfuel : (C.writeAll rs).length ≤ fuel) (x : σ) :
    C.feed step fuel x (C.writeAll rs) = rs.foldlM step x := by
  induction rs generalizing fuel x with
  | nil => exact feed_nil fuel x
  | cons r rs ih =>
    have hpos := List.length_pos_of_ne_nil (C.write_ne_nil r)
    have hne : C.writeAll (r :: rs) ≠ [] := fun h =>
      C.write_ne_nil r (List.append_eq_nil_iff.1 h).1
    rw [writeAll_cons, List.length_append] at hfuel
    obtain ⟨fuel, rfl⟩ : ∃ k, fuel = k + 1 := ⟨fuel - 1, by omega⟩
    rw [feed_of_ne_nil hne, writeAll_cons, C.read_write, List.foldlM_cons]
    exact Option.bind_congr fun y _ => ih (by omega) y

/-- **What the reader accepts**: exactly the inputs that are records that `step` takes. -/
theorem feed_eq_some_iff {s : List β} {fuel : ℕ} (hfuel : s.length ≤ fuel) {x y : σ} :
    C.feed step fuel x s = some y ↔ ∃ rs, s = C.writeAll rs ∧ rs.foldlM step x = some y := by
  constructor
  · intro h
    induction fuel generalizing s x with
    | zero =>
      rw [List.length_eq_zero_iff.1 (Nat.le_zero.1 hfuel), feed_nil] at h
      exact ⟨[], List.length_eq_zero_iff.1 (Nat.le_zero.1 hfuel), h⟩
    | succ fuel ih =>
      rcases eq_or_ne s [] with rfl | hs
      · rw [feed_nil] at h
        exact ⟨[], rfl, h⟩
      rw [feed_of_ne_nil hs, Option.bind_eq_some_iff] at h
      obtain ⟨⟨r, t⟩, hread, h⟩ := h
      obtain ⟨z, hstep, h⟩ := Option.bind_eq_some_iff.1 h
      have hs := C.of_read hread
      have hpos := List.length_pos_of_ne_nil (C.write_ne_nil r)
      rw [hs, List.length_append] at hfuel
      obtain ⟨rs, rfl, hfold⟩ := ih (s := t) (by omega) h
      refine ⟨r :: rs, hs, ?_⟩
      rw [List.foldlM_cons, hstep]
      exact hfold
  · rintro ⟨rs, rfl, hfold⟩
    rw [feed_writeAll hfuel, hfold]

end Codec

end Records
