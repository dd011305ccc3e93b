import Mathlib.Data.List.Forall2

/-!
# Incremental decoders over a stream

A receiver of a byte stream sees it in pieces it does not choose.  After each piece it asks a
decoder about what has piled up, and is told to wait, to give up, or to take an item off the front.
This file develops what can be said of *any* such decoder, over any alphabet, as long as the
verdict it has once reached does not change when more input arrives.

## What is here

* `Framing.Verdict`, `Framing.Decoder` — the three answers, and the stability laws as fields, so a
  decoder that changes its mind cannot be built.
* `Decoder.reference` — the decoder applied over and over to the *whole* of a finite stream: its
  items in order, then one last event that says why it stopped.
* `Decoder.reference_append_item`, `Decoder.reference_append_bad` — what the decoder says of the
  *buffered* part of a stream it says of the stream, whatever is still unread.  Every claim about
  segmentation rests on these two.
* `Framing.cut` — a list of events up to and including the first error.
* `Decoder.Encodes` — a word that decodes to exactly one item; a stream of such words decodes to
  their items (`Decoder.reference_flatten`), and a proper beginning of one asks for more
  (`Decoder.Encodes.need`).
* `Framing.Buried` — an item that lies behind too many others to be reached.
* `Framing.Aligned`, `Framing.Framed` — a word sent again and again by attempts that may be cut
  short: if none writes behind a cut copy, the stream is framed (`Aligned.framed`), and a decoder
  reads it without an error (`Framed.reference`).
-/

set_option autoImplicit false

namespace Framing

universe u v

variable {β : Type u} {α : Type v}

/-- What a decoder says about the input buffered so far. -/
inductive Verdict (α : Type v)
  /-- Not enough input yet. -/
  | need
  /-- No continuation of this input can be decoded. -/
  | bad
  /-- The first `n` symbols are the item `a`. -/
  | item (a : α) (n : ℕ)

/-- A decoder whose verdicts are stable under further input. -/
structure Decoder (β : Type u) (α : Type v) where
  /-- The verdict on the input buffered so far. -/
  decode : List β → Verdict α
  /-- An item takes at least one symbol. -/
  item_pos : ∀ {b a n}, decode b = .item a n → 0 < n
  /-- An item lies within the buffered input. -/
  item_le : ∀ {b a n}, decode b = .item a n → n ≤ b.length
  /-- More input does not change an item. -/
  item_append : ∀ {b a n} (c : List β), decode b = .item a n → decode (b ++ c) = .item a n
  /-- More input does not repair a bad one. -/
  bad_append : ∀ {b} (c : List β), decode b = .bad → decode (b ++ c) = .bad

/-- What a receiver reports: an item, or one of the two ways to stop. -/
inductive Event (α : Type v)
  | item (a : α)
  | bad
  | eof

/-- Does the event end the stream? -/
def Event.isError : Event α → Bool
  | .item _ => false
  | .bad => true
  | .eof => true

/-- The item an event carries. -/
def Event.item? : Event α → Option α
  | .item a => some a
  | .bad => none
  | .eof => none

/-! ## Up to the first error -/

/-- The events up to and including the first error. -/
def cut : List (Event α) → List (Event α)
  | [] => []
  | e :: es => if e.isError then [e] else e :: cut es

@[simp] theorem cut_nil : cut ([] : List (Event α)) = [] := rfl

theorem cut_append_of_error {es : List (Event α)} (h : ∃ e ∈ es, e.isError = true)
    (fs : List (Event α)) : cut (es ++ fs) = cut es := by
  induction es with
  | nil => obtain ⟨e, he, -⟩ := h; cases he
  | cons e es ih =>
    cases he : e.isError with
    | true => simp [cut, he]
    | false =>
      obtain ⟨e', hmem, herr⟩ := h
      rcases List.mem_cons.1 hmem with rfl | hmem
      · rw [he] at herr; cases herr
      · simp only [List.cons_append, cut, he, Bool.false_eq_true, if_false, ih ⟨e', hmem, herr⟩]

theorem cut_append_of_items {es : List (Event α)} (h : ∀ e ∈ es, e.isError = false)
    (fs : List (Event α)) : cut (es ++ fs) = es ++ cut fs := by
  induction es with
  | nil => rfl
  | cons e es ih =>
    simp only [List.cons_append, cut, h e List.mem_cons_self, Bool.false_eq_true, if_false,
      ih fun x hx => h x (List.mem_cons_of_mem _ hx)]

theorem cut_eq_self {es : List (Event α)} (h : ∀ e ∈ es, e.isError = false) : cut es = es := by
  simpa using cut_append_of_items h []

namespace Decoder

variable (D : Decoder β α)

/-! ## The reference decoder

`reference` decodes a whole finite stream.  It recurses on a bound for the number of items, which
the length of the stream supplies because every item takes at least one symbol. -/

/-- `reference` with an explicit bound on the number of items. -/
def referenceFuel : ℕ → List β → List (Event α)
  | 0, _ => [.eof]
  | fuel + 1, s =>
    match D.decode s with
    | .need => [.eof]
    | .bad => [.bad]
    | .item a n => .item a :: referenceFuel fuel (s.drop n)

/-- **The reference decoder**: the items of the whole stream in order, then the reason it stops. -/
def reference (s : List β) : List (Event α) := D.referenceFuel (s.length + 1) s

theorem referenceFuel_eq : ∀ (fuel fuel' : ℕ) (s : List β), s.length < fuel → s.length < fuel' →
    D.referenceFuel fuel s = D.referenceFuel fuel' s
  | 0, _, _, h, _ => absurd h (Nat.not_lt_zero _)
  | _, 0, _, _, h => absurd h (Nat.not_lt_zero _)
  | fuel + 1, fuel' + 1, s, h, h' => by
    rw [referenceFuel, referenceFuel]
    cases hd : D.decode s with
    | need => rfl
    | bad => rfl
    | item a n =>
      have hpos := D.item_pos hd
      have hle := D.item_le hd
      have hlen : (s.drop n).length < s.length := by rw [List.length_drop]; omega
      simp only [referenceFuel_eq fuel fuel' (s.drop n) (by omega) (by omega)]

variable {D}

theorem reference_need {s : List β} (h : D.decode s = .need) : D.reference s = [.eof] := by
  rw [reference, referenceFuel, h]

theorem reference_bad {s : List β} (h : D.decode s = .bad) : D.reference s = [.bad] := by
  rw [reference, referenceFuel, h]

theorem reference_item {s : List β} {a : α} {n : ℕ} (h : D.decode s = .item a n) :
    D.reference s = .item a :: D.reference (s.drop n) := by
  have hpos := D.item_pos h
  have hle := D.item_le h
  rw [reference, referenceFuel, h, reference]
  simp only [List.cons.injEq, true_and]
  exact D.referenceFuel_eq _ _ _ (by rw [List.length_drop]; omega) (by omega)

/-- The items of a stream, without the reason it stops. -/
def items (D : Decoder β α) (s : List β) : List α := (D.reference s).filterMap Event.item?

theorem items_need {s : List β} (h : D.decode s = .need) : D.items s = [] := by
  rw [items, reference_need h]; rfl

theorem items_bad {s : List β} (h : D.decode s = .bad) : D.items s = [] := by
  rw [items, reference_bad h]; rfl

theorem items_item {s : List β} {a : α} {n : ℕ} (h : D.decode s = .item a n) :
    D.items s = a :: D.items (s.drop n) := by
  rw [items, reference_item h]; rfl

/-! ## A stream of which a part is buffered -/

/-- **An item found in the buffer is the next item of the stream**, and what is left in the buffer
followed by the unread part is the rest of the stream. -/
theorem reference_append_item {b : List β} {a : α} {n : ℕ} (h : D.decode b = .item a n)
    (r : List β) : D.reference (b ++ r) = .item a :: D.reference (b.drop n ++ r) := by
  rw [reference_item (D.item_append r h), List.drop_append_of_le_length (D.item_le h)]

/-- A bad buffer means the stream goes bad at this point, whatever is still unread. -/
theorem reference_append_bad {b : List β} (h : D.decode b = .bad) (r : List β) :
    D.reference (b ++ r) = [.bad] :=
  reference_bad (D.bad_append r h)

/-! ## Words that decode to one item -/

/-- `w` is a complete encoding of `a`: the decoder takes exactly `w` for it. -/
def Encodes (D : Decoder β α) (w : List β) (a : α) : Prop := D.decode w = .item a w.length

theorem Encodes.append {w : List β} {a : α} (h : D.Encodes w a) (c : List β) :
    D.decode (w ++ c) = .item a w.length :=
  D.item_append c h

/-- **A proper beginning of an encoding asks for more input.** -/
theorem Encodes.need {w p : List β} {a : α} (h : D.Encodes w a) (hp : p <+: w)
    (hlt : p.length < w.length) : D.decode p = .need := by
  obtain ⟨c, rfl⟩ := hp
  rw [Encodes] at h
  cases hd : D.decode p with
  | need => rfl
  | bad => rw [D.bad_append c hd] at h; cases h
  | item a' n =>
    have hle := D.item_le hd
    rw [D.item_append c hd, Verdict.item.injEq] at h
    omega

/-- A concatenation of encodings followed by a proper beginning of one more: the reference decoder
reads exactly the encoded items and then waits for more. -/
theorem reference_flatten {ws : List (List β)} {as : List α} (h : List.Forall₂ D.Encodes ws as)
    {p : List β} (hp : D.decode p = .need) :
    D.reference (ws.flatten ++ p) = as.map .item ++ [.eof] := by
  induction h with
  | nil => exact reference_need hp
  | @cons w a ws as hw _ ih =>
    have h1 := reference_item (hw.append (ws.flatten ++ p))
    rw [List.drop_left] at h1
    rw [List.flatten_cons, List.append_assoc, h1, ih]
    rfl

end Decoder

/-! ## An item behind others -/

/-- Some item of the list passes the test, but none of the first `k` does: who takes at most `k` of
them off the front does not get to it. -/
def Buried (p : α → Bool) (k : ℕ) (l : List α) : Prop := l.any p = true ∧ (l.take k).any p = false

instance (p : α → Bool) (k : ℕ) (l : List α) : Decidable (Buried p k l) :=
  inferInstanceAs (Decidable (_ ∧ _))

@[simp] theorem not_buried_nil (p : α → Bool) (k : ℕ) : ¬ Buried p k [] := by simp [Buried]

@[simp] theorem buried_zero (p : α → Bool) (l : List α) : Buried p 0 l ↔ ∃ a ∈ l, p a = true := by
  simp [Buried]

/-- Taking one item off leaves one item less in front. -/
theorem buried_succ_cons (p : α → Bool) (k : ℕ) (a : α) (l : List α) :
    Buried p (k + 1) (a :: l) ↔ p a = false ∧ Buried p k l := by
  cases h : p a <;> simp [Buried, h]

/-- Who takes fewer items does not get to it either. -/
theorem Buried.of_succ {p : α → Bool} {k : ℕ} {l : List α} (h : Buried p (k + 1) l) :
    Buried p k l := by
  refine ⟨h.1, ?_⟩
  have h2 := h.2
  simp only [List.any_eq_false] at h2 ⊢
  exact fun a ha => h2 a ((List.take_prefix_take_left (Nat.le_succ k)).subset ha)

/-! ## One word sent again and again

A sender that repeats a word may be cut short in any attempt.  `copies` lists what each attempt put
on the stream, newest first; each is a beginning of the word. -/

/-- No attempt put anything behind a copy that was cut short. -/
def Aligned (w : List β) (copies : List (List β)) : Prop :=
  copies.Pairwise fun newer older => newer ≠ [] → older = [] ∨ older = w

/-- Complete copies of the word, and at the very end at most one that is cut short. -/
def Framed (w s : List β) : Prop :=
  ∃ k p, s = (List.replicate k w).flatten ++ p ∧ p <+: w ∧ p.length < w.length

theorem aligned_cons {w x : List β} {copies : List (List β)} :
    Aligned w (x :: copies) ↔ (x ≠ [] → ∀ y ∈ copies, y = [] ∨ y = w) ∧ Aligned w copies := by
  rw [Aligned, List.pairwise_cons]
  exact and_congr_left' ⟨fun h hx y hy => h y hy hx, fun h y hy hx => h hx y hy⟩

theorem Framed.nil {w : List β} (hw : w ≠ []) : Framed w [] :=
  ⟨0, [], rfl, List.nil_prefix, List.length_pos_of_ne_nil hw⟩

/-- A framed stream is cut short, or starts with a complete copy and is framed behind it. -/
theorem Framed.cases {w s : List β} (h : Framed w s) :
    s <+: w ∧ s.length < w.length ∨ ∃ s', s = w ++ s' ∧ Framed w s' := by
  obtain ⟨k, p, rfl, hp, hlt⟩ := h
  cases k with
  | zero => exact .inl ⟨hp, hlt⟩
  | succ k =>
    refine .inr ⟨(List.replicate k w).flatten ++ p, ?_, k, p, rfl, hp, hlt⟩
    rw [List.replicate_succ, List.flatten_cons, List.append_assoc]

/-- What lies behind complete copies at the front of a framed stream is framed. -/
theorem Framed.of_append {w s : List β} (k : ℕ) (h : Framed w ((List.replicate k w).flatten ++ s)) :
    Framed w s := by
  induction k with
  | zero => exact h
  | succ k ih =>
    rw [List.replicate_succ, List.flatten_cons, List.append_assoc] at h
    rcases h.cases with ⟨-, hlt⟩ | ⟨s', heq, hs'⟩
    · rw [List.length_append] at hlt
      omega
    · rw [List.append_cancel_left heq] at ih
      exact ih hs'

/-- Attempts that each wrote nothing or everything make up complete copies. -/
theorem flatten_of_whole {w : List β} {copies : List (List β)} (h : ∀ y ∈ copies, y = [] ∨ y = w) :
    ∃ k, copies.reverse.flatten = (List.replicate k w).flatten := by
  induction copies with
  | nil => exact ⟨0, rfl⟩
  | cons x copies ih =>
    obtain ⟨k, hk⟩ := ih fun y hy => h y (List.mem_cons_of_mem _ hy)
    rw [List.reverse_cons, List.flatten_append, hk]
    rcases h x List.mem_cons_self with rfl | rfl
    · exact ⟨k, by simp⟩
    · exact ⟨k + 1, by simp [List.replicate_succ']⟩

/-- **A stream on which no attempt wrote behind a cut copy is framed.** -/
theorem Aligned.framed {w : List β} (hw : w ≠ []) {copies : List (List β)}
    (hpre : ∀ x ∈ copies, x <+: w) (h : Aligned w copies) : Framed w copies.reverse.flatten := by
  induction copies with
  | nil => exact .nil hw
  | cons x copies ih =>
    obtain ⟨hx, hcopies⟩ := aligned_cons.1 h
    rw [List.reverse_cons, List.flatten_append]
    rcases eq_or_ne x [] with rfl | hne
    · simpa using ih (fun y hy => hpre y (List.mem_cons_of_mem _ hy)) hcopies
    obtain ⟨k, hk⟩ := flatten_of_whole (hx hne)
    have hxw := hpre x List.mem_cons_self
    rw [hk]
    rcases Nat.lt_or_ge x.length w.length with hlt | hge
    · exact ⟨k, x, by simp, hxw, hlt⟩
    · have hxw' : x = w := hxw.eq_of_length_le hge
      refine ⟨k + 1, [], ?_, List.nil_prefix, List.length_pos_of_ne_nil hw⟩
      rw [hxw']
      simp [List.replicate_succ']

/-- A decoder reads a framed stream of encodings without ever finding it bad. -/
theorem Framed.reference {D : Decoder β α} {w : List β} {a : α} (hw : D.Encodes w a) {s : List β}
    (h : Framed w s) : ∃ k, D.reference s = List.replicate k (.item a) ++ [.eof] := by
  obtain ⟨k, p, rfl, hp, hlt⟩ := h
  have hall : List.Forall₂ D.Encodes (List.replicate k w) (List.replicate k a) := by
    induction k with
    | zero => exact .nil
    | succ k ih => exact .cons hw ih
  exact ⟨k, by rw [Decoder.reference_flatten hall (hw.need hp hlt), List.map_replicate]⟩

end Framing
