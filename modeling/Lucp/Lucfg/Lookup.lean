import Lucp.Lucfg.Document

/-!
# Looking values up

A getter of `lucfg` looks for the newest entry in one chain of the table whose section and key are
the ones it is asked for, up to the case of their letters.  Which chain that is depends on the case.

## What is here

* `findEntry`, `lucfgGetString`, `lucfgGetInt`, `lucfgGetDouble`, `lucfgGetBool` and the getters for
  narrow types, of which `getNarrow` is the common body.
* `getString_loadFile` — **a lookup in a loaded file is a search of its assignments, last one
  first**, among those that hash alike; `getString_document` that what has been written is read
  back, unless it stands in quotes.
* `findEntry_unique` — a name is found in another case exactly if that does not change its hash.
* `contentOf_int` — the only text that counts as an integer is the empty one, since every other
  integer is an expression; `getNarrow_eq` says what becomes of the getters for narrow types.
* `getExpr_document` — **what the getters make of a written expression**.
-/

set_option autoImplicit false

namespace Lucp.Lucfg

open Descent Lines

variable {D : Type} [Doubles D]

/-! ## The functions of the source -/

/-- The names of an entry are the ones that are looked for, up to the case of their letters. -/
def Entry.named (sec key : Bytes) (e : Entry D) : Bool :=
  strIcmp e.sec.bytes sec = 0 ∧ strIcmp e.key.bytes key = 0

/-- `find_entry()`. -/
def findEntry (t : Table D) (sec key : Bytes) : Option (Entry D) :=
  (t (hashFunc sec key)).find? (Entry.named sec key)

/-- `lucfg_get_string()`: the code, and what it stores. -/
def lucfgGetString (t : Table D) (sec key : Bytes) : Rc × Option CString :=
  match findEntry t sec key with
  | some e => (.ok, some e.value)
  | none => (.errNokey, none)

/-- `lucfg_get_int()`. -/
def lucfgGetInt (t : Table D) (sec key : Bytes) : Rc × Option ℤ :=
  match findEntry t sec key with
  | none => (.errNokey, none)
  | some e =>
    match e.content with
    | .expr v => (.ok, some (castTo (-2 ^ 63) (2 ^ 63 - 1) v))
    | .int n => (.ok, some n)
    | _ => (.errType, none)

/-- `lucfg_get_double()`. -/
def lucfgGetDouble (t : Table D) (sec key : Bytes) : Rc × Option D :=
  match findEntry t sec key with
  | none => (.errNokey, none)
  | some e =>
    match e.content with
    | .expr v => (.ok, some v)
    | .double v => (.ok, some v)
    | _ => (.errType, none)

/-- `CHECK_RANGE_EXPR`: what it sets `rc` to, and what it stores.  It compares with the limits as
`double`s, which rounds those of 64 bits.  Its `break` leaves the loop of the macro, and not the one
that stands around it. -/
def checkRangeExpr (lo hi : ℤ) : Content D → Option Rc × Option ℤ
  | .expr v =>
    if Doubles.lt v (Doubles.ofInt lo) ∨ Doubles.lt (Doubles.ofInt hi) v then (some .errRange, none)
    else (some .ok, some (castTo lo hi v))
  | _ => (none, none)

/-- `GEN_GET_SIGNED` and `GEN_GET_UNSIGNED`. -/
def getNarrow (lo hi : ℤ) (t : Table D) (sec key : Bytes) : Rc × Option ℤ :=
  match findEntry t sec key with
  | none => (.errNokey, none)
  | some e =>
    let out := (checkRangeExpr lo hi e.content).2
    match e.content with
    | .int n => if n < lo ∨ hi < n then (.errRange, out) else (.ok, some n)
    | _ => (.errType, out)

/-- `lucfg_get_int8()`. -/
def lucfgGetInt8 : Table D → Bytes → Bytes → Rc × Option ℤ := getNarrow (-2 ^ 7) (2 ^ 7 - 1)

/-- `lucfg_get_uint8()`. -/
def lucfgGetUint8 : Table D → Bytes → Bytes → Rc × Option ℤ := getNarrow 0 (2 ^ 8 - 1)

/-- `lucfg_get_int16()`. -/
def lucfgGetInt16 : Table D → Bytes → Bytes → Rc × Option ℤ := getNarrow (-2 ^ 15) (2 ^ 15 - 1)

/-- `lucfg_get_uint16()`. -/
def lucfgGetUint16 : Table D → Bytes → Bytes → Rc × Option ℤ := getNarrow 0 (2 ^ 16 - 1)

/-- `lucfg_get_int32()`. -/
def lucfgGetInt32 : Table D → Bytes → Bytes → Rc × Option ℤ := getNarrow (-2 ^ 31) (2 ^ 31 - 1)

/-- `lucfg_get_uint32()`. -/
def lucfgGetUint32 : Table D → Bytes → Bytes → Rc × Option ℤ := getNarrow 0 (2 ^ 32 - 1)

/-- `lucfg_get_int64()`. -/
def lucfgGetInt64 : Table D → Bytes → Bytes → Rc × Option ℤ := getNarrow (-2 ^ 63) (2 ^ 63 - 1)

/-- `lucfg_get_uint64()`. -/
def lucfgGetUint64 : Table D → Bytes → Bytes → Rc × Option ℤ := getNarrow 0 (2 ^ 64 - 1)

/-- The texts that count as a switch that is on. -/
def onTexts : List Bytes := [textBytes "true", textBytes "yes", textBytes "on"]

/-- The texts that count as a switch that is off. -/
def offTexts : List Bytes := [textBytes "false", textBytes "no", textBytes "off"]

/-- `lucfg_get_bool()`. -/
def lucfgGetBool (t : Table D) (sec key : Bytes) : Rc × Option ℤ :=
  match findEntry t sec key with
  | none => (.errNokey, none)
  | some e =>
    match e.content with
    | .expr v => (.ok, some (if v != Doubles.ofInt 0 then 1 else 0))
    | .int n => if n = 0 ∨ n = 1 then (.ok, some n) else (.errRange, none)
    | .double _ => (.errType, none)
    | .string =>
      if onTexts.any (strIcmp e.value.bytes · = 0) then (.ok, some 1)
      else if offTexts.any (strIcmp e.value.bytes · = 0) then (.ok, some 0)
      else (.errType, none)

/-! ## The entries of a file -/

/-- The entries that a file leaves in the table are parsed values under the names of its lines. -/
theorem mem_entriesFrom {freed : ℕ → CString} {ls : List Line} {n : ℕ} {sec : CString}
    {e : Entry D} (h : e ∈ entriesFrom freed n sec ls) :
    ∃ n' sec' key val, Line.assign key val ∈ ls ∧ e = entryOf (freed n') sec' key val := by
  induction ls generalizing n sec with
  | nil => exact absurd h List.not_mem_nil
  | cons l ls ih =>
    have hrest : ∀ {n : ℕ} {sec : CString}, e ∈ entriesFrom freed n sec ls →
        ∃ n' sec' key val, Line.assign key val ∈ l :: ls
          ∧ e = entryOf (freed n') sec' key val := by
      intro n sec hmem
      obtain ⟨n', sec', key, val, hl, he⟩ := ih hmem
      exact ⟨n', sec', key, val, List.mem_cons_of_mem _ hl, he⟩
    cases l with
    | blank => exact hrest h
    | header name => exact hrest h
    | malformed => exact hrest h
    | assign key val =>
      rcases List.mem_cons.1 h with rfl | h
      · exact ⟨n, sec, key, val, List.mem_cons_self, rfl⟩
      · exact hrest h

/-- The entry of an assignment of a file. -/
theorem exists_of_mem_entriesOf {freed : ℕ → CString} {file : Bytes} (hzero : 0 ∉ file)
    {e : Entry D} (h : e ∈ entriesOf freed file) :
    ∃ n sec key val, (∃ l ∈ lines 0x0A file, readLine l = .assign key val) ∧ 0 ∉ val ∧
      Trimmed val ∧ e = entryOf (freed n) sec key val := by
  obtain ⟨n, sec, key, val, hmem, rfl⟩ := mem_entriesFrom h
  obtain ⟨l, hl, hread⟩ := List.mem_map.1 hmem
  have hval : 0 ∉ val := by
    intro h0
    have hl0 := (mem_of_readLine_assign hread).2 0 h0
    exact hzero (mem_of_mem_lines hl hl0)
  have hwf : WellFormed (readLine l) := wellFormed_readLine (by rw [hread]; exact Line.noConfusion)
  rw [hread] at hwf
  exact ⟨n, sec, key, val, ⟨l, hl, hread⟩, hval, hwf.2.2.2, rfl⟩

/-- **What an entry is, is decided by the value it keeps.** -/
theorem content_of_mem_entriesOf {freed : ℕ → CString} {file : Bytes} (hzero : 0 ∉ file)
    {e : Entry D} (h : e ∈ entriesOf freed file) : e.content = contentOf e.value.bytes := by
  obtain ⟨n, sec, key, val, -, hval, htrim, rfl⟩ := exists_of_mem_entriesOf hzero h
  rw [entryOf]
  show (parseValue (freed n) val).2
    = contentOf (strdup (parseValue (D := D) (freed n) val).1).bytes
  rw [parseValue, show trim val = val from htrim.2.strip_eq]
  split
  · rw [strdup_self]
  · rw [strdup_bytes hval]

/-- A line whose value stands in quotes. -/
def Line.quotes : Line → Bool
  | .blank => false
  | .header _ => false
  | .assign _ val => Quoted val
  | .malformed => false

/-- A file without a value in quotes. -/
def Unquoted (file : Bytes) : Prop := ∀ l ∈ lines 0x0A file, (readLine l).quotes = false

instance (file : Bytes) : Decidable (Unquoted file) :=
  inferInstanceAs (Decidable (∀ l ∈ lines 0x0A file, (readLine l).quotes = false))

/-- Only a value in quotes can be empty, when it is looked up. -/
theorem value_ne_nil {freed : ℕ → CString} {file : Bytes} (hzero : 0 ∉ file)
    (hquotes : Unquoted file) {e : Entry D} (h : e ∈ entriesOf freed file) :
    e.value.bytes ≠ [] := by
  obtain ⟨n, sec, key, val, ⟨l, hl, hread⟩, hval, htrim, rfl⟩ := exists_of_mem_entriesOf hzero h
  have hplain : ¬ Quoted (trim val) := by
    have hquoted := hquotes l hl
    rw [hread] at hquoted
    rw [show trim val = val from htrim.2.strip_eq]
    exact of_decide_eq_false hquoted
  show (strdup (parseValue (D := D) (freed n) val).1).bytes ≠ []
  rw [parseValue, if_neg hplain, strdup_bytes hval]
  exact htrim.1

/-- A file that is loaded. -/
theorem loadFile_ok {mem : Memory} {file : Bytes} (hzero : 0 ∉ file) {t : Table D}
    (h : (loadFile mem file : Except Rc (Table D)) = .ok t) :
    t = Chained.pushAll Entry.bucket Chained.empty (entriesOf mem.freed file) := by
  rw [loadFile_eq hzero] at h
  split at h
  · exact (Except.ok.inj h).symm
  · cases h

/-- **A lookup is a search of the assignments of the file, last one first.** -/
theorem findEntry_loadFile {mem : Memory} {file : Bytes} (hzero : 0 ∉ file) {t : Table D}
    (h : (loadFile mem file : Except Rc (Table D)) = .ok t) (sec key : Bytes) :
    findEntry t sec key
      = (entriesOf mem.freed file).reverse.find? fun e =>
          e.bucket = hashFunc sec key && e.named sec key := by
  rw [loadFile_ok hzero h, findEntry, Chained.find?_pushAll]

/-- **The table is a list of the assignments, searched from its end** in the chain of the names that
are asked for. -/
theorem getString_loadFile {mem : Memory} {file : Bytes} (hzero : 0 ∉ file) {t : Table D}
    (h : (loadFile mem file : Except Rc (Table D)) = .ok t) (sec key : Bytes) :
    lucfgGetString t sec key
      = match (entriesOf (D := D) mem.freed file).reverse.find? fun e =>
          e.bucket = hashFunc sec key && e.named sec key with
        | some e => (.ok, some e.value)
        | none => (.errNokey, none) := by
  rw [← findEntry_loadFile hzero h, lucfgGetString]

/-- Two values for one key. -/
theorem getString_twice :
    let file := textBytes "[a]\nk = x\nK = y\nk = z\n"
    ∃ t : Table Exact, loadFile .zeros file = .ok t ∧
      lucfgGetString t (textBytes "a") (textBytes "k") = (.ok, some (strdup (textBytes "z"))) := by
  intro file
  have hload : (loadFile .zeros file : Except Rc (Table Exact)) = .ok _ :=
    (loadFile_eq (by decide) .zeros).trans (if_pos (by decide))
  exact ⟨_, hload, (getString_loadFile (by decide) hload _ _).trans (by decide +kernel)⟩

omit [Doubles D] in
/-- Whatever the case, names that are equal up to it are the same names. -/
theorem named_congr {sec sec' key key' : CString}
    (hsec : sec.bytes.map tolower = sec'.bytes.map tolower)
    (hkey : key.bytes.map tolower = key'.bytes.map tolower) (e : Entry D) :
    e.named sec.bytes key.bytes = e.named sec'.bytes key'.bytes := by
  rw [Entry.named, Entry.named]
  simp only [strIcmp_eq_zero_iff e.sec.noNul sec.noNul, strIcmp_eq_zero_iff e.key.noNul key.noNul,
    strIcmp_eq_zero_iff e.sec.noNul sec'.noNul, strIcmp_eq_zero_iff e.key.noNul key'.noNul, hsec,
    hkey]

omit [Doubles D] in
theorem named_self (e : Entry D) : e.named e.sec.bytes e.key.bytes = true :=
  decide_eq_true ⟨(strIcmp_eq_zero_iff e.sec.noNul e.sec.noNul).2 rfl,
    (strIcmp_eq_zero_iff e.key.noNul e.key.noNul).2 rfl⟩

omit [Doubles D] in
/-- The last entry of a name is the one that is found. -/
theorem findEntry_append {before after : List (Entry D)} (e : Entry D)
    (hlast : ∀ f ∈ after, f.named e.sec.bytes e.key.bytes = false) :
    findEntry (Chained.pushAll Entry.bucket Chained.empty (before ++ e :: after)) e.sec.bytes
      e.key.bytes = some e := by
  have hafter : after.reverse.find? (fun f =>
      f.bucket = hashFunc e.sec.bytes e.key.bytes && f.named e.sec.bytes e.key.bytes) = none := by
    rw [List.find?_eq_none]
    intro f hf
    rw [hlast f (List.mem_reverse.1 hf), Bool.and_false]
    exact Bool.false_ne_true
  rw [findEntry, Chained.find?_pushAll, List.reverse_append, List.reverse_cons, List.append_assoc,
    List.find?_append, hafter, Option.none_or]
  refine List.find?_cons_of_pos ?_
  rw [named_self, Bool.and_true]
  exact decide_eq_true rfl

section Document

variable {ws : List Written} {before after : List Item} {sec : CString} {key value : Bytes}
  {quoted : Bool}

/-- **The last assignment to a name is the one that is found.** -/
theorem findEntry_document (freed : ℕ → CString)
    (hws : ws.map Written.item = before ++ .assign key value quoted :: after)
    (hsec : sectionBelow (strdup []) before = sec)
    (hlast : ∀ p ∈ assigned sec after,
      ¬ (strIcmp p.1.bytes sec.bytes = 0 ∧ strIcmp p.2.bytes key = 0)) :
    findEntry (Chained.pushAll Entry.bucket Chained.empty
        (documentEntries (D := D) freed 0 (strdup []) (ws.map Written.item))) sec.bytes key
      = some (writtenEntry (freed (assigned (strdup []) before).length) sec key value quoted) := by
  have hkey : (strdup key).bytes = key := by
    have hmem : Item.assign key value quoted ∈ ws.map Written.item := by
      rw [hws]
      exact List.mem_append_right _ List.mem_cons_self
    obtain ⟨w, -, hw⟩ := List.mem_map.1 hmem
    have hok := w.ok
    rw [hw] at hok
    exact strdup_bytes fun h => (hok.1 0 h).2.2.1 rfl
  rw [hws, documentEntries_append, hsec, documentEntries, Nat.zero_add]
  generalize hentry : writtenEntry (D := D) (freed _) sec key value quoted = e
  have hnames : e.sec.bytes = sec.bytes ∧ e.key.bytes = key := by
    subst hentry
    exact ⟨rfl, hkey⟩
  rw [← hnames.1, ← hnames.2]
  refine findEntry_append e fun f hf => ?_
  have hname : (f.sec, f.key) ∈ assigned sec after := by
    rw [← names_documentEntries (D := D)]
    exact List.mem_map.2 ⟨f, hf, rfl⟩
  rw [hnames.1, hnames.2]
  exact decide_eq_false (hlast _ hname)

end Document

/-- **A name is found in another case exactly if that does not change its hash.** -/
theorem findEntry_unique {mem : Memory} {file : Bytes} (hzero : 0 ∉ file) {t : Table D}
    (h : (loadFile mem file : Except Rc (Table D)) = .ok t) {e : Entry D}
    (he : e ∈ entriesOf mem.freed file)
    (hunique : ∀ f ∈ entriesOf mem.freed file, f.named e.sec.bytes e.key.bytes = true → f = e)
    (sec key : CString) (hsec : e.sec.bytes.map tolower = sec.bytes.map tolower)
    (hkey : e.key.bytes.map tolower = key.bytes.map tolower) :
    findEntry t sec.bytes key.bytes
      = if hashFunc sec.bytes key.bytes = e.bucket then some e else none := by
  have hnamed : ∀ f : Entry D, f.named e.sec.bytes e.key.bytes = f.named sec.bytes key.bytes :=
    named_congr hsec hkey
  rw [findEntry_loadFile hzero h]
  split
  case isTrue hhash =>
    have hfound : ((entriesOf mem.freed file).reverse.find? fun f : Entry D =>
        f.bucket = hashFunc sec.bytes key.bytes && f.named sec.bytes key.bytes).isSome := by
      rw [List.find?_isSome]
      refine ⟨e, List.mem_reverse.2 he, ?_⟩
      rw [← hnamed e, named_self, hhash]
      simp
    obtain ⟨f, hf⟩ := Option.isSome_iff_exists.1 hfound
    have hprop := List.find?_some hf
    rw [Bool.and_eq_true, ← hnamed f] at hprop
    rw [hf, hunique f (List.mem_reverse.1 (List.mem_of_find?_eq_some hf)) hprop.2]
  case isFalse hhash =>
    rw [List.find?_eq_none]
    intro f hf
    rw [Bool.and_eq_true, ← hnamed f, decide_eq_true_eq]
    rintro ⟨hbucket, hn⟩
    rw [hunique f (List.mem_reverse.1 hf) hn] at hbucket
    exact hhash hbucket.symm

/-- A name in small letters, asked for in capital ones. -/
theorem findEntry_capital :
    let file := textBytes "[a]\nk = x\n"
    ∃ t : Table Exact, loadFile .zeros file = .ok t ∧
      findEntry t (textBytes "A") (textBytes "k") = none := by
  intro file
  have hload : (loadFile .zeros file : Except Rc (Table Exact)) = .ok _ :=
    (loadFile_eq (by decide) .zeros).trans (if_pos (by decide))
  let e : Entry Exact := ⟨strdup (textBytes "a"), strdup (textBytes "k"), strdup (textBytes "x"),
    .string⟩
  have hentries : entriesOf Memory.zeros.freed file = [e] := by decide +kernel
  have hmem : e ∈ entriesOf Memory.zeros.freed file := by
    rw [hentries]
    exact List.mem_singleton_self e
  have hunique : ∀ f ∈ entriesOf Memory.zeros.freed file,
      f.named e.sec.bytes e.key.bytes = true → f = e := by
    rw [hentries]
    exact fun f hf _ => List.mem_singleton.1 hf
  exact ⟨_, hload, (findEntry_unique (by decide) hload hmem hunique (strdup (textBytes "A"))
    (strdup (textBytes "k")) (by decide) (by decide)).trans (by decide +kernel)⟩

/-! ## Numbers -/

/-- A decimal number is an expression. -/
theorem tryEvalExpr_decimal {s : Bytes} (hne : afterSign s ≠ [])
    (hdigits : ∀ c ∈ afterSign s, isdigit c = true) :
    ∃ v : D, tryEvalExpr s = some v := by
  obtain ⟨⟨v, hv, hnan⟩, w, hw, hwnan⟩ := Doubles.strtod_digits (D := D) hne hdigits
  have hopen : (afterSign s).head? ≠ some 0x28 := fun h =>
    absurd (hdigits _ (List.mem_of_mem_head? h)) (by decide)
  have hatom : ∃ v : D, exprAtom exprParse s = (v, []) ∧ Doubles.isNaN v = false := by
    rw [exprAtom]
    rw [afterSign] at hv hw hopen
    split
    case isTrue hneg =>
      rw [if_pos (.inl hneg)] at hv hopen
      rw [exprOperand, if_neg hopen, hv]
      exact ⟨_, rfl, (Doubles.isNaN_neg v).trans hnan⟩
    case isFalse hneg =>
      by_cases hplus : (s.dropWhile isspace).head? = some 0x2B
      · rw [if_pos (.inr hplus)] at hw
        obtain ⟨d, hd⟩ : ∃ d, s.dropWhile isspace = 0x2B :: d := by
          cases hs : s.dropWhile isspace with
          | nil => rw [hs] at hplus; cases hplus
          | cons c d =>
            rw [hs] at hplus
            exact ⟨d, by rw [Option.some.inj hplus]⟩
        rw [hd, List.drop_succ_cons, List.drop_zero] at hw
        rw [hd, exprOperand, if_neg (by simp), hw]
        exact ⟨_, rfl, by rw [Doubles.one_mul, hwnan]⟩
      · rw [if_neg (not_or.2 ⟨hneg, hplus⟩)] at hv hopen
        rw [exprOperand, if_neg hopen, hv]
        exact ⟨_, rfl, by rw [Doubles.one_mul, hnan]⟩
  obtain ⟨u, hu, hunan⟩ := hatom
  refine ⟨u, ?_⟩
  have hparse : exprParse s = (u, []) := by
    rw [exprParse_eq, exprTerm, hu]
    have hterm : chain isspace termOp (exprAtom exprParse) u [] = (u, []) := chain_end rfl
    rw [hterm]
    exact chain_end rfl
  rw [tryEvalExpr, hparse]
  dsimp only
  rw [hunan]
  rfl

/-- **The only text that counts as an integer is the empty one.** -/
theorem contentOf_int {s : Bytes} {n : ℤ} (h : (contentOf s : Content D) = .int n) :
    s = [] ∧ n = 0 := by
  rw [contentOf] at h
  cases hexpr : (tryEvalExpr s : Option D) with
  | some v =>
    rw [hexpr] at h
    cases h
  | none =>
    rw [hexpr] at h
    dsimp only at h
    split at h
    case isTrue hend =>
      have hnil : s = [] := by
        rw [strtolEnd] at hend
        split at hend
        case isTrue => exact hend
        case isFalse hdigits =>
          have hall := List.dropWhile_eq_nil_iff.1 hend
          have hne : afterSign s ≠ [] := by
            intro h0
            rw [h0] at hdigits
            exact hdigits rfl
          obtain ⟨v, hv⟩ := tryEvalExpr_decimal (D := D) hne hall
          rw [hv] at hexpr
          cases hexpr
      subst hnil
      exact ⟨rfl, (Content.int.inj h).symm⟩
    case isFalse =>
      split at h <;> cases h

/-- The empty text is an integer. -/
theorem contentOf_nil : (contentOf [] : Content D) = .int 0 := by
  have hatom : exprAtom (D := D) exprParse [] = (Doubles.nan, []) := by
    show exprOperand exprParse (Doubles.ofInt 1) [] = _
    rw [exprOperand, if_neg (by simp), Doubles.strtod_nil]
  have hparse : exprParse (D := D) [] = (Doubles.nan, []) := by
    rw [exprParse_eq, exprTerm, hatom]
    have hterm : chain isspace termOp (exprAtom exprParse) (Doubles.nan : D) []
        = (Doubles.nan, []) := chain_end rfl
    rw [hterm]
    exact chain_end rfl
  have hnone : (tryEvalExpr [] : Option D) = none := by
    rw [tryEvalExpr, hparse]
    exact if_pos (.inr Doubles.isNaN_nan)
  rw [contentOf, hnone]
  rfl

/-- **What becomes of the getters for narrow types**: every value but the empty one has the wrong
type, whatever number it says. -/
theorem getNarrow_eq {mem : Memory} {file : Bytes} (hzero : 0 ∉ file) {t : Table D}
    (h : (loadFile mem file : Except Rc (Table D)) = .ok t) {lo hi : ℤ} (hlo : lo ≤ 0)
    (hhi : 0 ≤ hi) (sec key : Bytes) :
    getNarrow lo hi t sec key
      = match findEntry t sec key with
        | none => (.errNokey, none)
        | some e =>
          if e.value.bytes = [] then (.ok, some 0)
          else (.errType, (checkRangeExpr lo hi e.content).2) := by
  rw [getNarrow]
  cases hfind : findEntry t sec key with
  | none => rfl
  | some e =>
    have hmem : e ∈ entriesOf mem.freed file := by
      rw [findEntry_loadFile hzero h] at hfind
      exact List.mem_reverse.1 (List.mem_of_find?_eq_some hfind)
    have hcontent := content_of_mem_entriesOf hzero hmem
    dsimp only
    by_cases hvalue : e.value.bytes = []
    · rw [if_pos hvalue, hcontent, hvalue, contentOf_nil]
      exact if_neg (by omega)
    · rw [if_neg hvalue]
      cases hkind : e.content with
      | int n => exact absurd (contentOf_int (hcontent.symm.trans hkind)).1 hvalue
      | string => rfl
      | double v => rfl
      | expr v => rfl

/-- **A written expression is computed**: the getters for wide types return its value, and those for
narrow ones store it, as far as it is in their range, but say that the type is wrong. -/
theorem getExpr_document {ws : List Written} {before after : List Item} {sec : CString}
    {key : Bytes} {e : Expr D} {mem : Memory} (hmark : mem.mark = 0 ∨ mem.mark = 0x0A)
    (hws : ws.map Written.item = before ++ .assign key e.text false :: after)
    (hsec : sectionBelow (strdup []) before = sec)
    (hlast : ∀ p ∈ assigned sec after,
      ¬ (strIcmp p.1.bytes sec.bytes = 0 ∧ strIcmp p.2.bytes key = 0))
    (hnumber : Doubles.isNaN e.eval = false) :
    ∃ t : Table D, loadFile mem (documentText ws) = .ok t ∧
      lucfgGetDouble t sec.bytes key = (.ok, some e.eval) ∧
      lucfgGetInt t sec.bytes key = (.ok, some (castTo (-2 ^ 63) (2 ^ 63 - 1) e.eval)) ∧
      lucfgGetBool t sec.bytes key
        = (.ok, some (if e.eval != Doubles.ofInt 0 then 1 else 0)) ∧
      ∀ lo hi, getNarrow lo hi t sec.bytes key
        = (.errType, if Doubles.lt e.eval (Doubles.ofInt lo) ∨ Doubles.lt (Doubles.ofInt hi) e.eval
            then none else some (castTo lo hi e.eval)) := by
  have hcontent : contentOf e.text = Content.expr e.eval := by
    have heval := tryEvalExpr_text (fun c hc => absurd hc List.not_mem_nil)
      (fun c hc => absurd hc List.not_mem_nil) e
    rw [List.nil_append, List.append_nil, hnumber] at heval
    rw [contentOf, heval]
    rfl
  have hfind := findEntry_document (D := D) mem.freed hws hsec hlast
  have hentry : ∀ freed : CString, (writtenEntry freed sec key e.text false).content
      = Content.expr e.eval := fun _ => hcontent
  refine ⟨_, loadFile_document ws hmark, ?_, ?_, ?_, fun lo hi => ?_⟩
  · rw [lucfgGetDouble, hfind]
    dsimp only
    rw [hentry]
  · rw [lucfgGetInt, hfind]
    dsimp only
    rw [hentry]
  · rw [lucfgGetBool, hfind]
    dsimp only
    rw [hentry]
  · rw [getNarrow, hfind]
    dsimp only
    rw [hentry]
    dsimp only
    rw [checkRangeExpr]
    split <;> rfl

theorem getExpr_portLine : ∃ t : Table Exact,
    loadFile .zeros (documentText [networkLine, portLine]) = .ok t ∧
      lucfgGetInt t (textBytes "network") (textBytes "port") = (.ok, some 80) ∧
      lucfgGetUint16 t (textBytes "network") (textBytes "port") = (.errType, some 80) := by
  let e : Expr Exact := .num (Exact.numeral 80)
  obtain ⟨t, hload, -, hint, -, hnarrow⟩ := @getExpr_document Exact _ [networkLine, portLine]
    [networkLine.item] [] (strdup (textBytes "network")) (textBytes "port") e .zeros (.inl rfl)
    (by decide +kernel) rfl (by simp [assigned]) (by decide +kernel)
  exact ⟨t, hload, hint.trans (by decide +kernel),
    (hnarrow 0 (2 ^ 16 - 1)).trans (by decide +kernel)⟩

end Lucp.Lucfg
