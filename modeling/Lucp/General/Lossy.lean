import Lucp.General.Framing

/-!
# Receivers that throw their buffer away

A receiver that meets input its decoder calls bad can stop, and then what it reports does not depend
on how the stream was cut (`Decoder.reference`).  It can also empty its buffer and go on.  Then it
goes on behind whatever happened to be buffered, and what it reports is no longer a function of the
stream: `Decoder.Lossy` is the relation between a stream and the reports that are possible for it.

## What is here

* `Decoder.Lossy D cap s es` — the reports `es` on the stream `s`, for a buffer of `cap` symbols,
  with one lemma for each verdict on `s` (`lossy_need`, `lossy_item`, `lossy_bad`).
* `Decoder.Explains` — what has been reported so far and what is left of the stream; how a running
  receiver is compared with `Lossy`.
* `Decoder.Steady` — only one report is possible.
* `Decoder.Headed` — decoders that look at a header of fixed length first, and for which two headers
  cannot begin at neighbouring symbols.  `Headed.steady_bad_iff` is **the result**: the report on a
  bad stream is unique only if next to nothing follows the bad header.
-/

set_option autoImplicit false

namespace Framing

universe u v

variable {β : Type u} {α : Type v}

namespace Decoder

/-- `D.Lossy cap s es`: a receiver with room for `cap` symbols, which empties its buffer when it
finds it bad, may report `es` on the stream `s` before and when it comes to its end. -/
inductive Lossy (D : Decoder β α) (cap : ℕ) : List β → List (Event α) → Prop
  | eof {s : List β} (h : D.decode s = .need) : Lossy D cap s [.eof]
  | item {s : List β} {a : α} {n : ℕ} {es : List (Event α)} (h : D.decode s = .item a n)
      (r : Lossy D cap (s.drop n) es) : Lossy D cap s (.item a :: es)
  /-- `k` symbols were buffered when the bad ones were noticed. -/
  | bad {s : List β} {es : List (Event α)} (k : ℕ) (hcap : k ≤ cap)
      (h : D.decode (s.take k) = .bad) (r : Lossy D cap (s.drop k) es) : Lossy D cap s (.bad :: es)

variable {D : Decoder β α} {cap : ℕ} {s : List β} {es : List (Event α)}

/-- A stream with a bad beginning is bad. -/
theorem bad_of_take {k : ℕ} (h : D.decode (s.take k) = .bad) : D.decode s = .bad := by
  have := D.bad_append (s.drop k) h
  rwa [List.take_append_drop] at this

theorem lossy_need (h : D.decode s = .need) : D.Lossy cap s es ↔ es = [.eof] := by
  constructor
  · intro hl
    cases hl with
    | eof _ => rfl
    | item h' _ => rw [h] at h'; cases h'
    | bad k _ h' _ => exact absurd (bad_of_take h') (by rw [h]; simp)
  · rintro rfl
    exact .eof h

theorem lossy_item {a : α} {n : ℕ} (h : D.decode s = .item a n) :
    D.Lossy cap s es ↔ ∃ es', es = .item a :: es' ∧ D.Lossy cap (s.drop n) es' := by
  constructor
  · intro hl
    cases hl with
    | eof h' => rw [h] at h'; cases h'
    | @item _ a' n' es' h' r =>
      rw [h, Verdict.item.injEq] at h'
      obtain ⟨rfl, rfl⟩ := h'
      exact ⟨es', rfl, r⟩
    | bad k _ h' _ => exact absurd (bad_of_take h') (by rw [h]; simp)
  · rintro ⟨es', rfl, hl⟩
    exact .item h hl

theorem lossy_bad (h : D.decode s = .bad) :
    D.Lossy cap s es ↔ ∃ k es', k ≤ cap ∧ D.decode (s.take k) = .bad ∧ es = .bad :: es' ∧
      D.Lossy cap (s.drop k) es' := by
  constructor
  · intro hl
    cases hl with
    | eof h' => rw [h] at h'; cases h'
    | item h' _ => rw [h] at h'; cases h'
    | @bad _ es' k hcap h' r => exact ⟨k, es', hcap, h', rfl, r⟩
  · rintro ⟨k, es', hcap, h', rfl, r⟩
    exact .bad k hcap h' r

/-- The reports of a receiver that has come to the end of the stream, for the first time. -/
def EndsAtEof (es : List (Event α)) : Prop := ∃ es', es = es' ++ [.eof] ∧ Event.eof ∉ es'

theorem not_endsAtEof (h : Event.eof ∉ es) : ¬ EndsAtEof es := by
  rintro ⟨es', rfl, -⟩
  exact h (by simp)

theorem EndsAtEof.cons {e : Event α} (he : e ≠ .eof) (h : EndsAtEof es) : EndsAtEof (e :: es) := by
  obtain ⟨es', rfl, hnot⟩ := h
  exact ⟨e :: es', rfl, by simp [hnot, he.symm]⟩

/-- A report that is possible is complete. -/
theorem Lossy.endsAtEof (h : D.Lossy cap s es) : EndsAtEof es := by
  induction h with
  | eof _ => exact ⟨[], rfl, by simp⟩
  | item _ _ ih => exact ih.cons (by simp)
  | bad _ _ _ _ ih => exact ih.cons (by simp)

/-! ## A receiver on its way -/

/-- After the reports `evs` on `stream`, what may be reported on `s` may follow. -/
def Explains (D : Decoder β α) (cap : ℕ) (stream : List β) (evs : List (Event α)) (s : List β) :
    Prop :=
  ∀ es, D.Lossy cap s es → D.Lossy cap stream (evs ++ es)

variable {stream : List β} {evs : List (Event α)}

theorem Explains.start : D.Explains cap stream [] stream := fun _ h => h

theorem Explains.item (h : D.Explains cap stream evs s) {a : α} {n : ℕ}
    (hd : D.decode s = .item a n) : D.Explains cap stream (evs ++ [.item a]) (s.drop n) := by
  intro es hl
  rw [List.append_assoc]
  exact h _ (.item hd hl)

theorem Explains.bad (h : D.Explains cap stream evs s) {k : ℕ} (hcap : k ≤ cap)
    (hd : D.decode (s.take k) = .bad) : D.Explains cap stream (evs ++ [.bad]) (s.drop k) := by
  intro es hl
  rw [List.append_assoc]
  exact h _ (.bad k hcap hd hl)

theorem Explains.eof (h : D.Explains cap stream evs s) (hd : D.decode s = .need) :
    D.Lossy cap stream (evs ++ [.eof]) :=
  h _ (.eof hd)

/-! ## Streams with one possible report -/

/-- Only one report is possible. -/
def Steady (D : Decoder β α) (cap : ℕ) (s : List β) : Prop :=
  ∀ es es', D.Lossy cap s es → D.Lossy cap s es' → es = es'

/-- Items in front make no difference. -/
theorem steady_item {a : α} {n : ℕ} (h : D.decode s = .item a n) :
    D.Steady cap s ↔ D.Steady cap (s.drop n) := by
  constructor
  · intro hs es es' hl hl'
    have := hs _ _ (.item h hl) (.item h hl')
    exact (List.cons.inj this).2
  · intro hs es es' hl hl'
    obtain ⟨fs, rfl, hfs⟩ := (lossy_item h).1 hl
    obtain ⟨fs', rfl, hfs'⟩ := (lossy_item h).1 hl'
    rw [hs _ _ hfs hfs']

/-- What a decoder with a header of `hdr` symbols does: it asks for more while it has less, sees in
the header whether it is bad, and no header that is not bad begins right behind another. -/
structure Headed (D : Decoder β α) (hdr : ℕ) : Prop where
  pos : 0 < hdr
  short : ∀ s, s.length < hdr → D.decode s = .need
  bad_take : ∀ s k, hdr ≤ k → D.decode s = .bad → D.decode (s.take k) = .bad
  overlap : ∀ s, D.decode s ≠ .bad → hdr < s.length → D.decode (s.drop 1) = .bad

namespace Headed

variable {hdr : ℕ}

/-- Bad input has a whole header. -/
theorem le_of_bad (H : D.Headed hdr) (h : D.decode s = .bad) : hdr ≤ s.length := by
  by_contra hlt
  rw [H.short s (Nat.lt_of_not_le hlt)] at h
  cases h

/-- Some report is always possible. -/
theorem exists_lossy (H : D.Headed hdr) (hcap : hdr ≤ cap) (s : List β) :
    ∃ es, D.Lossy cap s es := by
  induction hn : s.length using Nat.strongRecOn generalizing s with
  | ind len ih =>
    have hpos := H.pos
    cases hd : D.decode s with
    | need => exact ⟨_, .eof hd⟩
    | bad =>
      have hle := H.le_of_bad hd
      obtain ⟨es, hes⟩ := ih (s.drop hdr).length (by rw [List.length_drop]; omega) _ rfl
      exact ⟨_, .bad hdr hcap (H.bad_take s hdr (Nat.le_refl _) hd) hes⟩
    | item a n =>
      have hn := D.item_pos hd
      have hle := D.item_le hd
      obtain ⟨es, hes⟩ := ih (s.drop n).length (by rw [List.length_drop]; omega) _ rfl
      exact ⟨_, .item hd hes⟩

/-- On a bad stream, the receiver may go on behind any number of symbols from the header on. -/
theorem lossy_drop (H : D.Headed hdr) (h : D.decode s = .bad) {k : ℕ} (hk : hdr ≤ k)
    (hcap : k ≤ cap) (hl : D.Lossy cap (s.drop k) es) : D.Lossy cap s (.bad :: es) :=
  .bad k hcap (H.bad_take s k hk h) hl

/-- If the report is unique, then the stream is not bad again a header's length or more further on,
with a whole header behind that. -/
theorem not_bad_drop (H : D.Headed hdr) (h : D.decode s = .bad) (hsteady : D.Steady cap s) {k : ℕ}
    (hk : hdr ≤ k) (hcap : k + hdr ≤ cap) : D.decode (s.drop k) ≠ .bad := by
  intro hbad
  -- going on at `k` reports one error more than going on at `k + hdr`
  obtain ⟨es, hes⟩ := H.exists_lossy (show hdr ≤ cap by omega) (s.drop (k + hdr))
  have hone := H.lossy_drop h (by omega) hcap hes
  rw [← List.drop_drop] at hes
  have htwo := H.lossy_drop h hk (by omega) (H.lossy_drop hbad (Nat.le_refl _) (by omega) hes)
  have := congrArg List.length (hsteady _ _ hone htwo)
  simp only [List.length_cons] at this
  omega

/-- **On a bad stream only one report is possible exactly if next to nothing follows the bad
header**: not more than one more header, and not one that can be decoded as it stands or is bad. -/
theorem steady_bad_iff (H : D.Headed hdr) (hcap : 2 * hdr + 1 ≤ cap) (h : D.decode s = .bad) :
    D.Steady cap s ↔ s.length ≤ 2 * hdr ∧ D.decode (s.drop hdr) = .need := by
  have hlen := H.le_of_bad h
  constructor
  · intro hsteady
    have hle : s.length ≤ 2 * hdr := by
      by_contra hlong
      -- two headers at neighbouring symbols: one of them is bad
      have hfirst := H.not_bad_drop h hsteady (k := hdr) (Nat.le_refl _) (by omega)
      have hnext := H.overlap (s.drop hdr) hfirst (by rw [List.length_drop]; omega)
      rw [List.drop_drop] at hnext
      exact H.not_bad_drop h hsteady (by omega) (by omega) hnext
    refine ⟨hle, ?_⟩
    have hnil : D.Lossy cap (s.drop (2 * hdr)) [.eof] := by
      rw [List.drop_of_length_le hle]
      exact .eof (H.short [] H.pos)
    have hone := H.lossy_drop h (by omega) (by omega) hnil
    cases hd : D.decode (s.drop hdr) with
    | need => rfl
    | bad => exact absurd hd (H.not_bad_drop h hsteady (Nat.le_refl _) (by omega))
    | item a n =>
      obtain ⟨es, hes⟩ := H.exists_lossy (show hdr ≤ cap by omega) ((s.drop hdr).drop n)
      have htwo := H.lossy_drop h (Nat.le_refl _) (by omega) (.item hd hes)
      cases hsteady _ _ hone htwo
  · rintro ⟨hle, hneed⟩ es es' hl hl'
    have honly : ∀ fs, D.Lossy cap s fs → fs = [.bad, .eof] := by
      intro fs hfs
      obtain ⟨k, fs', -, hbad, rfl, hrest⟩ := (lossy_bad h).1 hfs
      have hk : hdr ≤ k := by
        have := H.le_of_bad hbad
        rw [List.length_take] at this
        omega
      have hdrop : D.decode (s.drop k) = .need := by
        rcases Nat.eq_or_lt_of_le hk with rfl | hlt
        · exact hneed
        · have hpos := H.pos
          exact H.short _ (by rw [List.length_drop]; omega)
      rw [(lossy_need hdrop).1 hrest]
    rw [honly es hl, honly es' hl']

end Headed

end Decoder

end Framing
