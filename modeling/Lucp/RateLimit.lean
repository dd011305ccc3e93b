import Lucp.General.SlotTable
import Lucp.CString

/-!
# The rate limit of `lucpd`

`check_rate_limit` keeps the last address that hashed to each of 1024 slots, in one array, and the
time it was last let through, in another that the caller owns.  A call is refused if its own address
is in its slot with a time less than three seconds ago; any other address is overwritten, although
the comment on that branch calls the address a new one.

## What is here

* `checkRateLimit` — the function, on the two arrays.
* `Agrees` — the two arrays are a table with one address per slot, and
  `checkRateLimit_agrees` that the function is `SlotTable.check` on it.
* `refused_of_recent` — **no address is refused because of another one**, whatever the second array
  held at the start.
* `allowed_apart_iff` — **when the limit holds**: exactly if no address comes back within three
  seconds of a call that the limit lets through, after another one that shares its slot.
* `two_addresses_one_slot` — two addresses of one network that share a slot.
-/

set_option autoImplicit false

namespace Lucp

/-- `RATE_LIMIT_SECONDS`. -/
def rateLimitSeconds : ℤ := 3

/-- `IP_HASH_SIZE`. -/
def ipHashSize : ℕ := 1024

/-- `INET_ADDRSTRLEN`. -/
def inetAddrstrlen : ℕ := 16

/-- `ip_hash` and the array of the caller. -/
structure RateTable where
  /-- The last address of each slot. -/
  ipHash : Fin ipHashSize → CArray UInt8 inetAddrstrlen
  /-- When it was let through. -/
  lastAccess : Fin ipHashSize → ℤ

/-- `ip_hash` before the first call, with any second array. -/
def RateTable.initial (lastAccess : Fin ipHashSize → ℤ) : RateTable where
  ipHash _ := CArray.fill inetAddrstrlen 0
  lastAccess := lastAccess

/-- A `char` as an operand of the hash: it is signed. -/
def charValue (c : UInt8) : UInt32 := c.toInt8.toInt32.toUInt32

/-- `ip_hash_function()`. -/
def ipHashFunction (ip : CString) : Fin ipHashSize :=
  let hash := ip.bytes.foldl (fun (hash : UInt32) c => (hash <<< 5) + hash + charValue c) 0
  ⟨hash.toNat % ipHashSize, Nat.mod_lt _ (by decide)⟩

/-- `check_rate_limit()` at the time `now`: whether the call is allowed, and the arrays after it.
The caller's array is never missing. -/
def checkRateLimit (t : RateTable) (now : ℤ) : Option CString → Bool × RateTable
  | none => (false, t)
  | some clientIp =>
    let hash := ipHashFunction clientIp
    if cText (t.ipHash hash) = clientIp.bytes then
      if now - t.lastAccess hash < rateLimitSeconds then (false, t)
      else (true, { t with lastAccess := Function.update t.lastAccess hash now })
    else
      let entry := strncpy (t.ipHash hash) clientIp (inetAddrstrlen - 1)
      let entry := entry.write (inetAddrstrlen - 1) [0]
      (true, { ipHash := Function.update t.ipHash hash entry
               lastAccess := Function.update t.lastAccess hash now })

/-! ## Calls for addresses -/

/-- The text of an address: neither empty nor longer than `INET_ADDRSTRLEN` has room for. -/
@[ext] structure Address extends CString where
  /-- There is a text. -/
  nonempty : bytes ≠ []
  /-- It fits. -/
  short : bytes.length < inetAddrstrlen
  deriving DecidableEq

/-- The slot of an address. -/
def Address.slot (a : Address) : Fin ipHashSize := ipHashFunction a.toCString

/-- The calls with their answers, starting from the arrays `t`. -/
def answers : RateTable → List (Request Address ℤ) → History Address ℤ
  | _, [] => []
  | t, c :: cs =>
    let r := checkRateLimit t c.time (some c.key.toCString)
    (c, r.1) :: answers r.2 cs

/-! ## The arrays as a table -/

/-- A slot of `ip_hash` is empty, or holds the address of the table with its time. -/
def Agrees (t : RateTable) (T : SlotTable Address (Fin ipHashSize) ℤ) : Prop :=
  ∀ s, (T s = none ∧ cText (t.ipHash s) = []) ∨
    ∃ a, T s = some (a, t.lastAccess s) ∧ cText (t.ipHash s) = a.bytes

theorem agrees_initial (lastAccess : Fin ipHashSize → ℤ) :
    Agrees (.initial lastAccess) fun _ => none :=
  have hempty : cText (CArray.fill inetAddrstrlen 0) = [] := by decide
  fun _ => .inl ⟨rfl, hempty⟩

/-- What a slot holds once an address has been copied into it. -/
theorem cText_entry (old : CArray UInt8 inetAddrstrlen) (a : Address) :
    cText ((strncpy old a.toCString (inetAddrstrlen - 1)).write (inetAddrstrlen - 1) [0])
      = a.bytes := by
  have hcopy := (cText_strncpy_write old a.toCString (le_refl (inetAddrstrlen - 1)) (by decide)
    (by decide)).1
  rwa [List.take_of_length_le (Nat.le_sub_one_of_lt a.short)] at hcopy

/-- An address that is let through, in its slot. -/
theorem Agrees.admit {t : RateTable} {T : SlotTable Address (Fin ipHashSize) ℤ} (h : Agrees t T)
    (c : Request Address ℤ) {ipHash : Fin ipHashSize → CArray UInt8 inetAddrstrlen}
    (hown : cText (ipHash c.key.slot) = c.key.bytes)
    (hothers : ∀ s, s ≠ c.key.slot → ipHash s = t.ipHash s) :
    Agrees ⟨ipHash, Function.update t.lastAccess c.key.slot c.time⟩
      (Function.update T c.key.slot (some (c.key, c.time))) := by
  intro s
  by_cases hs : s = c.key.slot
  · subst hs
    exact .inr ⟨c.key, by simp, hown⟩
  · simp only [Function.update_of_ne hs, hothers s hs]
    exact h s

/-- The slot holds the address of the call exactly if the table does. -/
theorem Agrees.holds_iff {t : RateTable} {T : SlotTable Address (Fin ipHashSize) ℤ}
    (h : Agrees t T) (a : Address) :
    cText (t.ipHash a.slot) = a.bytes ↔ T a.slot = some (a, t.lastAccess a.slot) := by
  rcases h a.slot with ⟨hnone, htext⟩ | ⟨b, hsome, htext⟩
  · rw [hnone, htext]
    exact ⟨fun h => absurd h.symm a.nonempty, fun h => by cases h⟩
  · rw [hsome, htext]
    exact ⟨fun h => by rw [Address.ext h], fun h => by rw [(Prod.mk.inj (Option.some.inj h)).1]⟩

/-- **The function on the arrays is one call on the table.** -/
theorem checkRateLimit_agrees {t : RateTable} {T : SlotTable Address (Fin ipHashSize) ℤ}
    (h : Agrees t T) (c : Request Address ℤ) :
    (checkRateLimit t c.time (some c.key.toCString)).1
        = (SlotTable.check Address.slot rateLimitSeconds T c).1 ∧
      Agrees (checkRateLimit t c.time (some c.key.toCString)).2
        (SlotTable.check Address.slot rateLimitSeconds T c).2 := by
  have hrefuses : SlotTable.refuses Address.slot rateLimitSeconds T c = true ↔
      cText (t.ipHash c.key.slot) = c.key.bytes ∧
        c.time - t.lastAccess c.key.slot < rateLimitSeconds := by
    rw [SlotTable.refuses_eq_true_iff, h.holds_iff, sub_lt_iff_lt_add']
    refine ⟨fun ⟨last, hlast, htime⟩ => ?_, fun ⟨hlast, htime⟩ => ⟨_, hlast, htime⟩⟩
    rcases h c.key.slot with ⟨hnone, -⟩ | ⟨b, hsome, -⟩
    · rw [hnone] at hlast
      cases hlast
    · rw [hsome] at hlast ⊢
      obtain ⟨rfl, rfl⟩ := Prod.mk.inj (Option.some.inj hlast)
      exact ⟨rfl, htime⟩
  have hslot : ipHashFunction c.key.toCString = c.key.slot := rfl
  rw [checkRateLimit, SlotTable.check]
  by_cases htext : cText (t.ipHash c.key.slot) = c.key.bytes
  · by_cases htime : c.time - t.lastAccess c.key.slot < rateLimitSeconds
    · rw [if_pos (hrefuses.2 ⟨htext, htime⟩)]
      simp only [hslot, if_pos htext, if_pos htime, true_and]
      exact h
    · rw [if_neg fun hr => htime (hrefuses.1 hr).2]
      simp only [hslot, if_pos htext, if_neg htime, true_and]
      exact h.admit c htext fun _ _ => rfl
  · rw [if_neg fun hr => htext (hrefuses.1 hr).1]
    simp only [hslot, if_neg htext, true_and]
    refine h.admit c ?_ fun s hs => Function.update_of_ne hs _ _
    rw [Function.update_self]
    exact cText_entry _ c.key

/-- **Every sequence of calls on the arrays is one on the table.** -/
theorem answers_eq_run {t : RateTable} {T : SlotTable Address (Fin ipHashSize) ℤ}
    (h : Agrees t T) (cs : List (Request Address ℤ)) :
    answers t cs = SlotTable.run Address.slot rateLimitSeconds T cs := by
  induction cs generalizing t T with
  | nil => rfl
  | cons c cs ih =>
    obtain ⟨hanswer, hnext⟩ := checkRateLimit_agrees h c
    rw [answers, SlotTable.run, ← hanswer, ← ih hnext]

/-! ## What the limit is worth -/

/-- **No address is refused because of another one**: a refused call has an allowed one for the same
address behind it, less than three seconds ago.  The caller's array may hold anything at the start,
and the clock need not even run forwards. -/
theorem refused_of_recent (lastAccess : Fin ipHashSize → ℤ) (cs : List (Request Address ℤ))
    {h₁ h₂ : History Address ℤ} {c : Request Address ℤ}
    (h : answers (.initial lastAccess) cs = h₁ ++ (c, false) :: h₂) :
    ∃ d, (d, true) ∈ h₁ ∧ d.key = c.key ∧ c.time - d.time < rateLimitSeconds := by
  rw [answers_eq_run (agrees_initial lastAccess)] at h
  obtain ⟨d, hd, hkey, htime⟩ := SlotTable.exists_of_refused h
  exact ⟨d, hd, hkey, sub_lt_iff_lt_add'.2 htime⟩

/-- Two addresses of one network. -/
def address120 : Address := ⟨⟨textBytes "10.0.0.120", by decide⟩, by decide, by decide⟩

/-- The other one. -/
def address201 : Address := ⟨⟨textBytes "10.0.0.201", by decide⟩, by decide, by decide⟩

theorem refused_of_recent_second_call :
    ∃ d, (d, true) ∈ [((⟨address120, 100⟩, true) : Request Address ℤ × Bool)] ∧
      d.key = address120 ∧ 102 - d.time < rateLimitSeconds :=
  refused_of_recent (fun _ => 7) [⟨address120, 100⟩, ⟨address120, 102⟩]
    (show answers _ _ = [(⟨address120, 100⟩, true)] ++ (⟨address120, 102⟩, false) :: [] by
      decide +kernel)

/-- **When the limit holds**: allowed calls for one address are three seconds apart exactly if no
call that the limit would let through, had every address a slot of its own, is followed by one for
another address of its slot and, within three seconds, by one for its own address. -/
theorem allowed_apart_iff (lastAccess : Fin ipHashSize → ℤ) (cs : List (Request Address ℤ))
    (hclock : cs.Pairwise fun c d => c.time ≤ d.time) :
    Spaced rateLimitSeconds (answers (.initial lastAccess) cs) ↔
      ¬ Evicted Address.slot rateLimitSeconds (pace rateLimitSeconds cs) := by
  rw [answers_eq_run (agrees_initial lastAccess)]
  exact SlotTable.spaced_run_iff hclock

/-- Two addresses that share a slot: a call for the other one does no harm as long as one's own next
call comes three seconds after the last. -/
theorem allowed_apart_iff_two_addresses :
    address120.slot = address201.slot ∧
      ¬ Evicted Address.slot rateLimitSeconds (pace rateLimitSeconds
        [⟨address120, 100⟩, ⟨address201, 101⟩, ⟨address120, 103⟩]) ∧
      Evicted Address.slot rateLimitSeconds (pace rateLimitSeconds
        [⟨address120, 100⟩, ⟨address201, 101⟩, ⟨address120, 102⟩]) := by
  have hspaced : Spaced rateLimitSeconds (answers (.initial fun _ => 0)
      [⟨address120, 100⟩, ⟨address201, 101⟩, ⟨address120, 103⟩]) := by decide +kernel
  have hclose : ¬ Spaced rateLimitSeconds (answers (.initial fun _ => 0)
      [⟨address120, 100⟩, ⟨address201, 101⟩, ⟨address120, 102⟩]) := by decide +kernel
  refine ⟨by decide +kernel, (allowed_apart_iff (fun _ => 0) _ (by decide)).1 hspaced, ?_⟩
  by_contra hkept
  exact hclose ((allowed_apart_iff (fun _ => 0) _ (by decide)).2 hkept)

/-- **Two addresses that share a slot lift the limit for each other**: within the same second, all
three calls are allowed. -/
theorem two_addresses_one_slot :
    [(⟨address120, 100⟩ : Request Address ℤ), ⟨address201, 100⟩, ⟨address120, 100⟩].Pairwise
        (fun c d => c.time ≤ d.time) ∧
      ¬ Spaced rateLimitSeconds (answers (.initial fun _ => 0)
        [⟨address120, 100⟩, ⟨address201, 100⟩, ⟨address120, 100⟩]) :=
  ⟨by decide, by decide +kernel⟩

end Lucp
