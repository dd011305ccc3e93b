import Lucp.Lucfg.Lookup

/-!
# Listing sections and keys

`lucfg_get_sections()` and `lucfg_get_keys()` walk the whole table and put each name they have not
met into a second table of chains, which they then read off.  Whether a name has been met is asked
in one chain only, so one that differs in case from a name that hashes differently is listed again.

## What is here

* `lucfgGetSections`, `lucfgGetKeys` — the functions of the source.
* `Lists` — what a list of names without repeats is; `lists_loadFile` that they **list every name of
  a loaded file, and none of them twice**.
-/

set_option autoImplicit false

namespace Lucp.Lucfg

variable {D : Type} [Doubles D]

/-! ## The functions of the source -/

/-- Names that are equal up to the case of their letters. -/
def sameName (a b : CString) : Bool := strIcmp a.bytes b.bytes = 0

/-- `lucfg_get_sections()`. -/
def lucfgGetSections (t : Table D) : List CString :=
  (Chained.collectAll (fun s : CString => hashFunc s.bytes []) sameName
    (t.entries.map Entry.sec)).entries

/-- `lucfg_get_keys()`. -/
def lucfgGetKeys (t : Table D) (sec : CString) : List CString :=
  (Chained.collectAll (fun k : CString => hashFunc [] k.bytes) sameName
    ((t.entries.filter fun e => sameName e.sec sec).map Entry.key)).entries

/-! ## What they list -/

theorem sameName_iff {a b : CString} :
    sameName a b = true ↔ a.bytes.map tolower = b.bytes.map tolower :=
  decide_eq_true_iff.trans (strIcmp_eq_zero_iff a.noNul b.noNul)

theorem sameName_self (a : CString) : sameName a a = true := sameName_iff.2 rfl

/-- Names that stand for others: all of them are among the others, each of the others has one that
is spelled like it up to case and hashes like it, and no two of them are so. -/
structure Lists (hash : CString → Fin 127) (wanted names : List CString) : Prop where
  nodup : names.Nodup
  sound : ∀ s ∈ names, s ∈ wanted
  complete : ∀ s ∈ wanted, ∃ s' ∈ names, hash s' = hash s ∧ sameName s' s = true
  distinct : names.Pairwise fun s s' => hash s = hash s' → sameName s' s = false

theorem lists_collectAll (hash : CString → Fin 127) (wanted : List CString) :
    Lists hash wanted (Chained.collectAll hash sameName wanted).entries := by
  have hcollected : Chained.Collected hash sameName wanted _ :=
    Chained.collected_collectAll sameName_self wanted
  refine ⟨hcollected.nodup_entries sameName_self, ?_, ?_, hcollected.pairwise_entries⟩
  · intro s hs
    obtain ⟨i, hi⟩ := Chained.mem_entries.1 hs
    exact hcollected.sound i s hi
  · intro s hs
    obtain ⟨s', hs', hsame⟩ := hcollected.complete s hs
    exact ⟨s', Chained.mem_entries.2 ⟨_, hs'⟩, hcollected.placed _ s' hs', hsame⟩

/-- The same names in another order. -/
theorem Lists.congr {hash : CString → Fin 127} {wanted wanted' names : List CString}
    (h : Lists hash wanted names) (hperm : ∀ s, s ∈ wanted ↔ s ∈ wanted') :
    Lists hash wanted' names :=
  ⟨h.nodup, fun s hs => (hperm s).1 (h.sound s hs), fun s hs => h.complete s ((hperm s).2 hs),
    h.distinct⟩

theorem mem_entries_loadFile {mem : Memory} {file : Bytes} (hzero : 0 ∉ file) {t : Table D}
    (h : (loadFile mem file : Except Rc (Table D)) = .ok t) (e : Entry D) :
    e ∈ t.entries ↔ e ∈ entriesOf mem.freed file := by
  rw [loadFile_ok hzero h]
  exact (Chained.entries_pushAll_perm Entry.bucket (entriesOf mem.freed file)).mem_iff

theorem lists_sections {mem : Memory} {file : Bytes} (hzero : 0 ∉ file) {t : Table D}
    (h : (loadFile mem file : Except Rc (Table D)) = .ok t) :
    Lists (fun s => hashFunc s.bytes []) ((entriesOf (D := D) mem.freed file).map Entry.sec)
      (lucfgGetSections t) := by
  refine (lists_collectAll _ _).congr fun s => ?_
  simp only [List.mem_map, mem_entries_loadFile hzero h]

theorem lists_keys {mem : Memory} {file : Bytes} (hzero : 0 ∉ file) {t : Table D}
    (h : (loadFile mem file : Except Rc (Table D)) = .ok t) (sec : CString) :
    Lists (fun k => hashFunc [] k.bytes)
      (((entriesOf (D := D) mem.freed file).filter fun e => sameName e.sec sec).map Entry.key)
      (lucfgGetKeys t sec) := by
  refine (lists_collectAll _ _).congr fun s => ?_
  simp only [List.mem_map, List.mem_filter, mem_entries_loadFile hzero h]

/-- **Every section with an assignment is listed, and every key of a section**, and nothing twice.
-/
theorem lists_loadFile {mem : Memory} {file : Bytes} (hzero : 0 ∉ file) {t : Table D}
    (h : (loadFile mem file : Except Rc (Table D)) = .ok t) :
    Lists (fun s => hashFunc s.bytes []) ((entriesOf (D := D) mem.freed file).map Entry.sec)
        (lucfgGetSections t) ∧
      ∀ sec, Lists (fun k => hashFunc [] k.bytes)
        (((entriesOf (D := D) mem.freed file).filter fun e => sameName e.sec sec).map Entry.key)
        (lucfgGetKeys t sec) :=
  ⟨lists_sections hzero h, lists_keys hzero h⟩

/-- Three sections of which two differ in case. -/
theorem lists_sample :
    let file := textBytes "[a]\nk = x\n[A]\nk = y\n[a]\nl = z\n"
    ∃ t : Table Exact, loadFile .zeros file = .ok t ∧
      Lists (fun s => hashFunc s.bytes [])
        ((entriesOf (D := Exact) Memory.zeros.freed file).map Entry.sec) (lucfgGetSections t) := by
  intro file
  have hload : (loadFile .zeros file : Except Rc (Table Exact)) = .ok _ :=
    (loadFile_eq (by decide) .zeros).trans (if_pos (by decide))
  exact ⟨_, hload, (lists_loadFile (by decide) hload).1⟩

end Lucp.Lucfg
