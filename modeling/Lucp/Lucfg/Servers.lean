import Lucp.EntryArgs
import Lucp.Lucfg.Lookup
import Lucp.Luftpd.Config

/-!
# The configuration files of the servers

Both servers read their configuration with `lucfg`, so far as a parameter.  Here that parameter is
`lucfg` as it is: whatever `double`s are, wherever the library keeps its strings, and whichever
files there are.

The numbers of a file do not survive the way into a configuration.  Each of them is an expression
for `lucfg`, and its getters for narrow types have a code for expressions that says that the type is
wrong.  `lucpd` and `luftpd` take that for a key that is missing.  Only an empty text counts as a
number, as 0, and only a value in quotes can have turned into one.

## What is here

* `Table.getters`, `openLucfg` — an open file as the servers see it.
* `lucpd_numbers` — **no number of a configuration file reaches `lucpd`**, and `luftpd_numbers` that
  none reaches `luftpd`, but for the empty text, which counts as a zero.
-/

set_option autoImplicit false

namespace Lucp.Lucfg

variable {D : Type} [Doubles D]

/-! ## An open file -/

/-- What a getter stores, if its code is `LUCFG_OK`. -/
def stored : Rc × Option ℤ → Option ℤ
  | (.ok, out) => out
  | _ => none

/-- The getters of an open file, where `address` says where the value of an entry is kept. -/
def getters (address : Entry D → Pointer) (t : Table D) : Lucfg where
  getString sec key :=
    (findEntry t (textBytes sec) (textBytes key)).map fun e => ⟨address e, e.value⟩
  getUint16 sec key :=
    (stored (lucfgGetUint16 t (textBytes sec) (textBytes key))).map fun n => UInt16.ofNat n.toNat
  getInt32 sec key :=
    (stored (lucfgGetInt32 t (textBytes sec) (textBytes key))).map Int32.ofInt
  getBool sec key :=
    (stored (lucfgGetBool t (textBytes sec) (textBytes key))).map Int32.ofInt

/-- `lucfg_open()`, as the servers see it. -/
def openLucfg (files : CString → Option Bytes) (mem : Memory) (address : Entry D → Pointer) :
    LucfgOpen := fun name => (lucfgOpen files mem name).map (getters address)

/-! ## Numbers -/

/-- Whether the empty text is what is kept for a key of a file. -/
def Emptied (lucfg : Lucfg) (sec key : String) : Prop :=
  ∃ value, lucfg.getString sec key = some value ∧ value.text.bytes = []

instance (lucfg : Lucfg) (sec key : String) : Decidable (Emptied lucfg sec key) :=
  match h : lucfg.getString sec key with
  | none => isFalse (by rintro ⟨v, hv, -⟩; rw [h] at hv; cases hv)
  | some value =>
    if hvalue : value.text.bytes = [] then isTrue ⟨value, h, hvalue⟩
    else isFalse (by rintro ⟨v, hv, hnil⟩; rw [h] at hv; cases hv; exact hvalue hnil)

/-- Files without zeros. -/
def Texts (files : CString → Option Bytes) : Prop :=
  ∀ name file, files name = some file → 0 ∉ file

section Numbers

variable {files : CString → Option Bytes} {mem : Memory} {address : Entry D → Pointer}

/-- A file that is open has been loaded. -/
theorem exists_of_lucfgOpen (htexts : Texts files) {name : CString} {t : Table D}
    (h : lucfgOpen files mem name = some t) :
    ∃ file, files name = some file ∧ 0 ∉ file ∧
      (loadFile mem file : Except Rc (Table D)) = .ok t := by
  rw [lucfgOpen] at h
  split at h
  · cases h
  · rename_i file hfile
    split at h
    · rename_i table hload
      exact ⟨file, hfile, htexts name file hfile, hload.trans (congrArg _ (Option.some.inj h))⟩
    · cases h

theorem exists_of_openLucfg (htexts : Texts files) {name : CString} {lucfg : Lucfg}
    (h : openLucfg files mem address name = some lucfg) :
    ∃ file, files name = some file ∧ 0 ∉ file ∧ ∃ t : Table D, loadFile mem file = .ok t ∧
      lucfg = getters address t := by
  obtain ⟨t, hopen, rfl⟩ := Option.map_eq_some_iff.1 h
  obtain ⟨file, hfile, hzero, hload⟩ := exists_of_lucfgOpen htexts hopen
  exact ⟨file, hfile, hzero, t, hload, rfl⟩

/-- **A getter for a narrow type stores a zero, where the text is empty, and else nothing.** -/
theorem stored_getNarrow (address : Entry D → Pointer) {file : Bytes} (hzero : 0 ∉ file)
    {t : Table D} (h : (loadFile mem file : Except Rc (Table D)) = .ok t) {lo hi : ℤ}
    (hlo : lo ≤ 0) (hhi : 0 ≤ hi) (sec key : String) :
    stored (getNarrow lo hi t (textBytes sec) (textBytes key))
      = if Emptied (getters address t) sec key then some 0 else none := by
  rw [getNarrow_eq hzero h hlo hhi]
  have hstring : (getters address t).getString sec key
      = (findEntry t (textBytes sec) (textBytes key)).map fun e => ⟨address e, e.value⟩ := rfl
  cases hfind : findEntry t (textBytes sec) (textBytes key) with
  | none =>
    rw [hfind] at hstring
    refine (if_neg ?_).symm
    rintro ⟨v, hv, -⟩
    rw [hstring] at hv
    cases hv
  | some e =>
    rw [hfind] at hstring
    dsimp only
    by_cases hvalue : e.value.bytes = []
    · rw [if_pos hvalue, if_pos ⟨_, hstring, hvalue⟩]
      rfl
    · rw [if_neg hvalue, if_neg]
      · rfl
      · rintro ⟨v, hv, hnil⟩
        rw [hstring] at hv
        cases hv
        exact hvalue hnil

/-- It takes quotes to get an empty text. -/
theorem not_emptied (htexts : Texts files) {name : CString}
    (hquotes : ∀ file, files name = some file → Unquoted file) (sec key : String) :
    ¬ Emptied ((openLucfg files mem address name).getD .empty) sec key := by
  rintro ⟨value, hvalue, hnil⟩
  rcases hopen : openLucfg files mem address name with _ | lucfg
  · rw [hopen] at hvalue
    cases hvalue
  · obtain ⟨file, hfile, hzero, t, hload, rfl⟩ := exists_of_openLucfg htexts hopen
    rw [hopen, Option.getD_some] at hvalue
    obtain ⟨e, hfind, rfl⟩ := Option.map_eq_some_iff.1 hvalue
    rw [findEntry_loadFile hzero hload] at hfind
    exact value_ne_nil hzero (hquotes file hfile)
      (List.mem_reverse.1 (List.mem_of_find?_eq_some hfind)) hnil

theorem getUint16_open (htexts : Texts files) {name : CString} {lucfg : Lucfg}
    (h : openLucfg files mem address name = some lucfg) (sec key : String) :
    lucfg.getUint16 sec key = if Emptied lucfg sec key then some 0 else none := by
  obtain ⟨file, -, hzero, t, hload, rfl⟩ := exists_of_openLucfg htexts h
  show (stored (getNarrow _ _ t _ _)).map _ = _
  rw [stored_getNarrow address hzero hload (by decide) (by decide)]
  split <;> rfl

theorem getInt32_open (htexts : Texts files) {name : CString} {lucfg : Lucfg}
    (h : openLucfg files mem address name = some lucfg) (sec key : String) :
    lucfg.getInt32 sec key = if Emptied lucfg sec key then some 0 else none := by
  obtain ⟨file, -, hzero, t, hload, rfl⟩ := exists_of_openLucfg htexts h
  show (stored (getNarrow _ _ t _ _)).map _ = _
  rw [stored_getNarrow address hzero hload (by decide) (by decide)]
  split <;> rfl

end Numbers

/-! ## The servers -/

/-- The numbers of `lucpd` but for its port. -/
def numbersOf (cfg : LucpdConfig) : List Int32 :=
  [cfg.network.maxClients, cfg.network.recvTimeoutMs, cfg.network.sendTimeoutMs,
    cfg.protocol.rateLimitMs, cfg.protocol.sessionTimeoutMs, cfg.file.fileRetentionMin]

/-- The numbers of the defaults. -/
def defaultNumbers : List Int32 :=
  [lucpdDefaultMaxClients, lucpdDefaultNwRecvTimeoutMs, lucpdDefaultNwSendTimeoutMs,
    lucpdDefaultRateLimitMs, lucpdDefaultSessionTimeoutMs, defaultFileRetentionMin]

section Servers

variable {files : CString → Option Bytes} {mem : Memory} {address : Entry D → Pointer}

/-- A number with limits that a zero is not within. -/
theorem readNumber_open {lucfg : Lucfg} {sec key : String} {valid : Int32 → Bool}
    (h : lucfg.getInt32 sec key = if Emptied lucfg sec key then some 0 else none)
    (hvalid : valid 0 = false) (number : Int32) :
    readNumber lucfg sec key valid number = number := by
  rw [readNumber, h]
  split
  case h_1 value heq =>
    split at heq
    · obtain rfl := Option.some.inj heq
      rw [hvalid]
      rfl
    · cases heq
  case h_2 => rfl

theorem numbersOf_load (htexts : Texts files) (cfg : LucpdConfig) (name : CString) :
    numbersOf (lucpdCfgLoadWithFile (openLucfg files mem address) cfg name).2 = defaultNumbers := by
  rw [lucpdCfgLoadWithFile]
  cases hopen : openLucfg files mem address name with
  | none => rfl
  | some lucfg =>
    have hnumber := getInt32_open htexts hopen
    simp only [numbersOf, readConfig]
    rw [readNumber_open (hnumber _ _) rfl, readNumber_open (hnumber _ _) rfl,
      readNumber_open (hnumber _ _) rfl, readNumber_open (hnumber _ _) rfl,
      readNumber_open (hnumber _ _) rfl, readNumber_open (hnumber _ _) rfl]
    rfl

theorem port_load (htexts : Texts files) (cfg : LucpdConfig) (name : CString) :
    (lucpdCfgLoadWithFile (openLucfg files mem address) cfg name).2.network.port
      = if Emptied ((openLucfg files mem address name).getD .empty) "network" "port" then 0
        else lucpdDefaultPort.toUInt32.toUInt16 := by
  rw [lucpdCfgLoadWithFile]
  cases hopen : openLucfg files mem address name with
  | none => rfl
  | some lucfg =>
    rw [Option.getD_some]
    simp only [readConfig]
    rw [getUint16_open htexts hopen]
    split <;> rfl

/-- **No number of a configuration file reaches `lucpd`.**  Whatever its arguments and the files
are, its limits and its times are the defaults.  Its port is the last one of its options; without
one it is the default, or 0 if the empty text is kept for it, which takes quotes. -/
theorem lucpd_numbers (htexts : Texts files) (argv : List CString) :
    (∃ options, OptionsOf argv options) ∧
      ∀ options, OptionsOf argv options →
        let lucfgOpen := openLucfg files mem address
        let file := (lastFile options).getD lucpdDefaultCfgFile
        let cfg := (lucpdCfgLoadWithEntryArgs lucfgOpen .zero argv).2
        numbersOf cfg = defaultNumbers ∧
          cfg.network.port = (lastPort options).elim
            (if Emptied ((lucfgOpen file).getD .empty) "network" "port" then 0
              else lucpdDefaultPort.toUInt32.toUInt16) PortText.port ∧
          ((∀ text, files file = some text → Unquoted text) →
            ¬ Emptied ((lucfgOpen file).getD .empty) "network" "port") := by
  refine ⟨options_or_malformed (argv.drop 1), fun options hoptions => ?_⟩
  intro lucfgOpen file cfg
  have hcfg : cfg = optionsConfig lucfgOpen .zero options :=
    entryArgs_config lucfgOpen .zero hoptions
  have hnumbers : numbersOf (lucpdCfgLoadWithFile lucfgOpen .zero file).2 = defaultNumbers :=
    numbersOf_load htexts .zero file
  have hport : (lucpdCfgLoadWithFile lucfgOpen .zero file).2.network.port
      = if Emptied ((lucfgOpen file).getD .empty) "network" "port" then 0
        else lucpdDefaultPort.toUInt32.toUInt16 := port_load htexts .zero file
  refine ⟨?_, ?_, fun hquotes => not_emptied htexts hquotes _ _⟩
  · rw [hcfg, optionsConfig]
    cases lastPort options with
    | none => exact hnumbers
    | some number => exact hnumbers
  · rw [hcfg, optionsConfig]
    cases lastPort options with
    | none => exact hport
    | some number => rfl

/-- A file for both servers, with a number for each. -/
def numbersFile : Bytes := textBytes "[network]\nmax_clients = 50\n[server]\nport = 8080\n"

theorem texts_numbersFile : Texts fun _ => some numbersFile := by
  rintro name file ⟨⟩
  decide

/-- The port of the command line counts, and the number of clients in the file does not. -/
theorem lucpd_numbers_sample :
    let lucfgOpen := openLucfg (D := Exact) (fun _ => some numbersFile) .zeros
      fun _ => CArray.fill 8 0
    let argv := [strdup (textBytes "lucpd"), portWord, strdup (textBytes "9000")]
    let cfg := (lucpdCfgLoadWithEntryArgs lucfgOpen .zero argv).2
    numbersOf cfg = defaultNumbers ∧ cfg.network.port = 9000 := by
  intro lucfgOpen argv cfg
  have hport : atoi (strdup (textBytes "9000")).bytes = 9000 := by decide +kernel
  let number : PortText := ⟨strdup (textBytes "9000"), by rw [hport]; decide⟩
  obtain ⟨hnumbers, hcfg, -⟩ := (@lucpd_numbers Exact _ (fun _ => some numbersFile) .zeros
    (fun _ => CArray.fill 8 0) texts_numbersFile argv).2 [.port number] ⟨[], rfl, .inl rfl⟩
  refine ⟨hnumbers, hcfg.trans ?_⟩
  show number.port = 9000
  rw [PortText.port, show atoi number.text.bytes = 9000 from hport]
  rfl

/-- **No number of a configuration file reaches `luftpd`**: each is the default, or 0 if the empty
text is kept for it, which takes quotes. -/
theorem luftpd_numbers (htexts : Texts files) :
    let lucfg := (openLucfg files mem address Luftpd.luftpdDefaultConfigFile).getD .empty
    let cfg := Luftpd.luftpdStartServer (openLucfg files mem address)
    cfg.port = (if Emptied lucfg "server" "port" then 0 else Luftpd.luftpdDefaultPort) ∧
      cfg.maxConnections = (if Emptied lucfg "server" "max_connections" then 0
        else Luftpd.luftpdDefaultMaxConnections) ∧
      cfg.dataPortMin = (if Emptied lucfg "server" "data_port_min" then 0
        else Luftpd.luftpdDefaultDataPortMin) ∧
      cfg.dataPortMax = (if Emptied lucfg "server" "data_port_max" then 0
        else Luftpd.luftpdDefaultDataPortMax) ∧
      ((∀ text, files Luftpd.luftpdDefaultConfigFile = some text → Unquoted text) →
        ∀ key, ¬ Emptied lucfg "server" key) := by
  intro lucfg cfg
  have hunquoted : (∀ text, files Luftpd.luftpdDefaultConfigFile = some text → Unquoted text) →
      ∀ key, ¬ Emptied lucfg "server" key := fun hquotes key => not_emptied htexts hquotes _ key
  suffices hnumbers : _ ∧ _ ∧ _ ∧ _ from
    ⟨hnumbers.1, hnumbers.2.1, hnumbers.2.2.1, hnumbers.2.2.2, hunquoted⟩
  simp only [cfg, Luftpd.luftpdStartServer, Luftpd.luftpdCfgLoadWithFile]
  cases hopen : openLucfg files mem address Luftpd.luftpdDefaultConfigFile with
  | none =>
    have hempty : lucfg = .empty := by
      show Option.getD _ _ = _
      rw [hopen, Option.getD_none]
    rw [hempty]
    exact ⟨rfl, rfl, rfl, rfl⟩
  | some opened =>
    have hopened : lucfg = opened := by
      show Option.getD _ _ = _
      rw [hopen, Option.getD_some]
    have hnumber := getInt32_open htexts hopen
    rw [hopened]
    dsimp only
    rw [getUint16_open htexts hopen, hnumber, hnumber, hnumber]
    refine ⟨?_, ?_, ?_, ?_⟩ <;> split <;> rfl

theorem luftpd_numbers_sample :
    let lucfgOpen := openLucfg (D := Exact) (fun _ => some numbersFile) .zeros
      fun _ => CArray.fill 8 0
    (Luftpd.luftpdStartServer lucfgOpen).port = Luftpd.luftpdDefaultPort := by
  intro lucfgOpen
  obtain ⟨hport, -, -, -, hunquoted⟩ := @luftpd_numbers Exact _ (fun _ => some numbersFile)
    .zeros (fun _ => CArray.fill 8 0) texts_numbersFile
  refine hport.trans (if_neg (hunquoted ?_ "port"))
  rintro text ⟨⟩
  decide +kernel

end Servers

end Lucp.Lucfg
