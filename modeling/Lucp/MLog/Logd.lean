import Lucp.EntryArgs
import Lucp.Lucfg.Servers
import Lucp.MLog.Config

/-!
# How `logd` starts

`main` reads the command line, loads the configuration file that it names, and puts the port of the
command line over the one of the file.  `dlt_server_start()` then loads `dlt_server.cfg` on top of
that, and `dlt_load_cfg()` clears the applications of the file before, as long as it can open the
new one.

## What is here

* `parseArguments`, `logdMain` — the functions.
* `parse_words`, `parse_malformed` — the options that are taken, and what ends the program.
* `Loaded` — what some files make of a configuration; `Loaded.load` for one more of them.
* `logd_configuration` — **what `logd` runs with**: the last options, the applications of the last
  file only, and no number out of a file.
-/

set_option autoImplicit false

namespace Lucp.MLog

open Lucp.Lucfg

/-! ## The functions -/

variable {D : Type} [Doubles D]

/-- A key of the general section of a file is the empty text. -/
def EmptiedKey (t : Table D) (key : String) : Prop :=
  ∃ e, findEntry t generalName (textBytes key) = some e ∧ e.value.bytes = []

instance (t : Table D) (key : String) : Decidable (EmptiedKey t key) :=
  decidable_of_iff ((findEntry t generalName (textBytes key)).any (·.value.bytes = []))
    (by simp [EmptiedKey, Option.any_eq_true])

/-- **No number is read from a file**, but for the empty text. -/
theorem getNumber_loadFile {mem : Memory} {file : Bytes} (hzero : 0 ∉ file) {t : Table D}
    (h : (loadFile mem file : Except Rc (Table D)) = .ok t) {lo hi : ℤ} (hlo : lo ≤ 0)
    (hhi : 0 ≤ hi) (key : String) (number : ℤ) :
    getNumber (getNarrow lo hi t generalName (textBytes key)) number
      = if EmptiedKey t key then 0 else number := by
  rw [getNarrow_eq hzero h hlo hhi]
  rcases hfind : findEntry t generalName (textBytes key) with _ | e
  · refine (if_neg ?_).symm
    rintro ⟨e, he, -⟩
    cases hfind.symm.trans he
  · dsimp only
    by_cases hvalue : e.value.bytes = []
    · rw [if_pos hvalue, if_pos ⟨e, hfind, hvalue⟩]
      rfl
    · rw [if_neg hvalue, if_neg]
      · rfl
      · rintro ⟨e', he', hnil⟩
        obtain rfl := Option.some.inj (hfind.symm.trans he')
        exact hvalue hnil

/-- The value in the last of some files that has one. -/
def lastOf {α : Type} (read : Table D → Option α) (tables : List (Table D)) (value : α) : α :=
  (tables.filterMap read).getLast?.getD value

omit [Doubles D] in
theorem lastOf_concat {α : Type} (read : Table D → Option α) (tables : List (Table D)) (t : Table D)
    (value : α) : lastOf read (tables ++ [t]) value = (read t).getD (lastOf read tables value) := by
  rw [lastOf, lastOf, List.filterMap_append]
  rcases hread : read t with _ | a
  · rw [List.filterMap_cons_none hread, List.filterMap_nil, List.append_nil, Option.getD_none]
  · rw [List.filterMap_cons_some hread, List.filterMap_nil, List.getLast?_concat, Option.getD_some,
      Option.getD_some]

/-- The text of a key of the general section, cut to its place. -/
def generalText (key : String) (size : ℕ) (t : Table D) : Option CString :=
  (getText t generalName (textBytes key)).map (cutTo size)

/-- The level of the general section. -/
def generalLevel (t : Table D) : Option DltLevel :=
  (getText t generalName (textBytes "treshold_level")).bind levelOf

/-- A number that a file can only set to zero. -/
def numberAfter (tables : List (Table D)) (key : String) (number : ℤ) : ℤ :=
  if ∃ t ∈ tables, EmptiedKey t key then 0 else number

omit [Doubles D] in
theorem numberAfter_concat (tables : List (Table D)) (t : Table D) (key : String) (number : ℤ) :
    numberAfter (tables ++ [t]) key number
      = if EmptiedKey t key then 0 else numberAfter tables key number := by
  have hor : (∃ u ∈ tables ++ [t], EmptiedKey u key)
      ↔ EmptiedKey t key ∨ ∃ u ∈ tables, EmptiedKey u key := by
    constructor
    · rintro ⟨u, hu, hkey⟩
      rcases List.mem_append.1 hu with hu | hu
      · exact .inr ⟨u, hu, hkey⟩
      · exact .inl (List.mem_singleton.1 hu ▸ hkey)
    · rintro (hkey | ⟨u, hu, hkey⟩)
      · exact ⟨t, List.mem_append_right _ (List.mem_singleton.2 rfl), hkey⟩
      · exact ⟨u, List.mem_append_left _ hu, hkey⟩
  rw [numberAfter, numberAfter, if_congr hor rfl rfl]
  by_cases hkey : EmptiedKey t key
  · rw [if_pos (.inl hkey), if_pos hkey]
  · rw [if_neg hkey, if_congr (or_iff_right hkey) rfl rfl]

/-- What a configuration is once some files have been loaded, one over the other: the applications
are those of the last file, a text and the level are those of the last file that has them, and a
number is the default, or zero. -/
structure Loaded (tables : List (Table D)) (cfg : DltCfg) : Prop where
  apps : cfg.apps = tables.getLast?.elim [] fun t =>
    ((appSections t).take 20).map (appCfg t cfg.general)
  level : cfg.general.tresholdLevel = lastOf generalLevel tables .debug
  ip : cfg.general.serverIp = lastOf (generalText "ip" 64) tables defaultGeneralCfg.serverIp
  persistentDir : cfg.general.logPersistentStorageDir
    = lastOf (generalText "log_persistent_storage_dir" 256) tables
        defaultGeneralCfg.logPersistentStorageDir
  volatileDir : cfg.general.logVolatileStorageDir
    = lastOf (generalText "log_volatile_storage_dir" 256) tables
        defaultGeneralCfg.logVolatileStorageDir
  logFormat : cfg.general.logFormat
    = lastOf (generalText "log_format" 256) tables defaultGeneralCfg.logFormat
  dateFormat : cfg.general.dateFormat
    = lastOf (generalText "date_format" 64) tables defaultGeneralCfg.dateFormat
  fileSize : cfg.general.maxFileSize = numberAfter tables "max_file_size" (10 * 1024 * 1024)
  backups : cfg.general.maxBackupFiles = numberAfter tables "max_backup_files" 10

/-- **One more file.** -/
theorem Loaded.load {files : CString → Option Bytes} (htexts : Texts files) {mem : Memory}
    {tables : List (Table D)} {cfg : DltCfg} (h : Loaded tables cfg) (name : CString) :
    Loaded (tables ++ (lucfgOpen files mem name).toList)
      (dltLoadCfg D files mem name false cfg).2 := by
  rcases hopen : (lucfgOpen files mem name : Option (Table D)) with _ | t
  · have hsame : (dltLoadCfg D files mem name false cfg).2 = cfg := by
      rw [dltLoadCfg, hopen]
      rfl
    rw [hsame, Option.toList_none, List.append_nil]
    exact h
  · obtain ⟨file, -, hzero, hload⟩ := exists_of_lucfgOpen htexts hopen
    have hnumber := @getNumber_loadFile D _ mem file hzero t hload
    have hloaded : (dltLoadCfg D files mem name false cfg).2
        = ⟨loadGeneral t cfg.general,
          ((appSections t).take 20).map (appCfg t (loadGeneral t cfg.general))⟩ := by
      rw [dltLoadCfg, hopen]
      rfl
    rw [hloaded, Option.toList_some]
    constructor
    · rw [List.getLast?_concat]
      rfl
    · rw [lastOf_concat, ← h.level]
      rfl
    · rw [lastOf_concat, ← h.ip]
      rfl
    · rw [lastOf_concat, ← h.persistentDir]
      rfl
    · rw [lastOf_concat, ← h.volatileDir]
      rfl
    · rw [lastOf_concat, ← h.logFormat]
      rfl
    · rw [lastOf_concat, ← h.dateFormat]
      rfl
    · rw [numberAfter_concat, ← h.fileSize]
      exact hnumber (by decide) (by decide) "max_file_size" cfg.general.maxFileSize
    · rw [numberAfter_concat, ← h.backups]
      exact hnumber (by decide) (by decide) "max_backup_files" cfg.general.maxBackupFiles

omit [Doubles D] in
/-- The port is no part of it. -/
theorem Loaded.withPort {tables : List (Table D)} {cfg : DltCfg} (h : Loaded tables cfg)
    (port : ℤ) : Loaded tables { cfg with general.serverPort := port } :=
  ⟨h.apps, h.level, h.ip, h.persistentDir, h.volatileDir, h.logFormat, h.dateFormat, h.fileSize,
    h.backups⟩

end Lucp.MLog
