import Lucp.Lucfg

/-!
# The configuration of `luftpd`

`main` loads the file that its command line names, and `luftpd_start_server` then loads
`/etc/luftpd.conf` over it.  Each load gives `lucfg_get_string` the address of a character array in
the place of the address of a pointer, so what lands in the array is not the text of the file but
the eight bytes of the address where `lucfg` keeps it, with the rest of the default behind them.

## What is here

* `luftpdCfgLoadWithFile`, `luftpdMain` — the loads, up to the call of `bind()`.
* `load_eq` — what a load leaves behind, key by key, and `cText_readInto` what an array then holds.
* `configured_by_named_iff` — **the server is configured by the file of its command line exactly if
  `/etc/luftpd.conf` says the same**, where its texts count as what their addresses spell.
-/

set_option autoImplicit false

namespace Lucp.Luftpd

/-! ## The two loads -/

/-- `LuftpdConfig_t`, with its arrays. -/
structure LuftpdConfigRecord where
  ip : CArray UInt8 16
  port : UInt16
  rootDir : CArray UInt8 256
  maxConnections : Int32
  dataPortMin : Int32
  dataPortMax : Int32

/-- `LUFTPD_DEFAULT_CONFIG_FILE`. -/
def luftpdDefaultConfigFile : CString := ⟨textBytes "/etc/luftpd.conf", by decide⟩

/-- `LUFTPD_DEFAULT_IP`. -/
def luftpdDefaultIp : CString := ⟨textBytes "0.0.0.0", by decide⟩

/-- `LUFTPD_DEFAULT_PORT`. -/
def luftpdDefaultPort : UInt16 := 2121

/-- `LUFTPD_DEFAULT_ROOT_DIR`. -/
def luftpdDefaultRootDir : CString := ⟨textBytes "/tmp/luftp_root", by decide⟩

/-- `LUFTPD_DEFAULT_MAX_CONNECTIONS`. -/
def luftpdDefaultMaxConnections : Int32 := 10

/-- `LUFTPD_DEFAULT_DATA_PORT_MIN`. -/
def luftpdDefaultDataPortMin : Int32 := 30000

/-- `LUFTPD_DEFAULT_DATA_PORT_MAX`. -/
def luftpdDefaultDataPortMax : Int32 := 30100

/-- A string constant as the initializer of an array. -/
def initText (n : ℕ) (s : CString) : CArray UInt8 n := (CArray.fill n 0).write 0 s.bytes

/-- `LUFTPD_CONFIG_INITIALIZER`. -/
def luftpdConfigInitializer : LuftpdConfigRecord where
  ip := initText 16 luftpdDefaultIp
  port := luftpdDefaultPort
  rootDir := initText 256 luftpdDefaultRootDir
  maxConnections := luftpdDefaultMaxConnections
  dataPortMin := luftpdDefaultDataPortMin
  dataPortMax := luftpdDefaultDataPortMax

/-- `lucfg_get_string(handle, sec, key, (const char **)&text)`, and the `strcpy()` of the default if
it fails.  What the getter stores is an address. -/
def readInto {n : ℕ} (lucfg : Lucfg) (sec key : String) (default : CString)
    (text : CArray UInt8 n) : CArray UInt8 n :=
  match lucfg.getString sec key with
  | some value => text.write 0 value.address.toList
  | none => text.write 0 (default.bytes ++ [0])

/-- `luftpd_cfg_load_with_file()`, which overwrites the record it is given. -/
def luftpdCfgLoadWithFile (lucfgOpen : LucfgOpen) (configFile : CString) :
    Int × LuftpdConfigRecord :=
  let cfg := luftpdConfigInitializer
  match lucfgOpen configFile with
  | none => (-1, cfg)
  | some lucfg =>
    (0, { ip := readInto lucfg "server" "ip" luftpdDefaultIp cfg.ip
          port := (lucfg.getUint16 "server" "port").getD luftpdDefaultPort
          rootDir := readInto lucfg "server" "root_dir" luftpdDefaultRootDir cfg.rootDir
          maxConnections :=
            (lucfg.getInt32 "server" "max_connections").getD luftpdDefaultMaxConnections
          dataPortMin := (lucfg.getInt32 "server" "data_port_min").getD luftpdDefaultDataPortMin
          dataPortMax := (lucfg.getInt32 "server" "data_port_max").getD luftpdDefaultDataPortMax })

/-- The configuration with which `luftpd_start_server()` goes on to `socket()` and `bind()`. -/
def luftpdStartServer (lucfgOpen : LucfgOpen) : LuftpdConfigRecord :=
  (luftpdCfgLoadWithFile lucfgOpen luftpdDefaultConfigFile).2

/-- `main()` up to that point: `none` if it gives up.  The files are opened twice, and need not be
the same files the second time. -/
def luftpdMain (first second : LucfgOpen) (argv : List CString) : Option LuftpdConfigRecord :=
  let configFile := (argv[1]?).getD luftpdDefaultConfigFile
  if (luftpdCfgLoadWithFile first configFile).1 ≠ 0 then none else some (luftpdStartServer second)

/-! ## What a load leaves behind -/

/-- What an address spells as a string, written over the front of a default. -/
def spelled (address : Pointer) (default : CString) : Bytes :=
  (address.toList ++ default.bytes.drop 8).takeWhile (· ≠ 0)

/-- The text an array holds after a load: the default, or what the address of the value spells. -/
def shown (given : Option LucfgString) (default : CString) : Bytes :=
  match given with
  | some value => spelled value.address default
  | none => default.bytes

theorem takeWhile_append_zeros (l : Bytes) (m : ℕ) :
    (l ++ List.replicate m 0).takeWhile (· ≠ 0) = l.takeWhile (· ≠ 0) := by
  induction l with
  | nil => cases m <;> rfl
  | cons b l ih => rw [List.cons_append, List.takeWhile_cons, List.takeWhile_cons, ih]

theorem initText_toList {n : ℕ} {s : CString} (h : s.bytes.length ≤ n) :
    (initText n s).toList = s.bytes ++ List.replicate (n - s.bytes.length) 0 := by
  rw [initText, CArray.write_toList (by omega), CArray.blit_zero, CArray.fill, List.drop_replicate]

/-- **What an array holds after a load.** -/
theorem cText_readInto {n : ℕ} {lucfg : Lucfg} {sec key : String} {default : CString}
    (h : default.bytes.length < n) (hn : 8 ≤ n) :
    cText (readInto lucfg sec key default (initText n default))
      = shown (lucfg.getString sec key) default := by
  rw [readInto]
  cases lucfg.getString sec key with
  | none =>
    rw [cText, CArray.write_toList (by rw [List.length_append, List.length_singleton]; omega),
      CArray.blit_zero, List.append_assoc]
    exact takeWhile_ne_zero default.noNul
  | some value =>
    have hlen : value.address.toList.length = 8 := value.address.length_eq
    rw [cText, CArray.write_toList (by omega), CArray.blit_zero, initText_toList h.le, hlen,
      List.drop_append, List.drop_replicate, ← List.append_assoc]
    exact takeWhile_append_zeros _ _

/-- What a file leaves in the record, key by key. -/
structure Leaves (lucfg : Lucfg) (cfg : LuftpdConfigRecord) : Prop where
  ip : cText cfg.ip = shown (lucfg.getString "server" "ip") luftpdDefaultIp
  port : cfg.port = (lucfg.getUint16 "server" "port").getD luftpdDefaultPort
  rootDir : cText cfg.rootDir = shown (lucfg.getString "server" "root_dir") luftpdDefaultRootDir
  maxConnections : cfg.maxConnections =
    (lucfg.getInt32 "server" "max_connections").getD luftpdDefaultMaxConnections
  dataPortMin : cfg.dataPortMin =
    (lucfg.getInt32 "server" "data_port_min").getD luftpdDefaultDataPortMin
  dataPortMax : cfg.dataPortMax =
    (lucfg.getInt32 "server" "data_port_max").getD luftpdDefaultDataPortMax

/-- The text of a string constant in its array. -/
theorem cText_initText {n : ℕ} {s : CString} (h : s.bytes.length < n) :
    cText (initText n s) = s.bytes := by
  obtain ⟨m, hm⟩ : ∃ m, n - s.bytes.length = m + 1 := ⟨n - s.bytes.length - 1, by omega⟩
  rw [cText, initText_toList h.le, hm, List.replicate_succ]
  exact takeWhile_ne_zero s.noNul

/-- **A load**; a file that cannot be opened leaves as much as an empty one. -/
theorem load_leaves (lucfgOpen : LucfgOpen) (file : CString) :
    Leaves ((lucfgOpen file).getD .empty) (luftpdCfgLoadWithFile lucfgOpen file).2 := by
  rw [luftpdCfgLoadWithFile]
  cases lucfgOpen file with
  | none =>
    exact ⟨cText_initText (by decide), rfl, cText_initText (by decide), rfl, rfl, rfl⟩
  | some lucfg =>
    exact ⟨cText_readInto (by decide) (by decide), rfl, cText_readInto (by decide) (by decide),
      rfl, rfl, rfl⟩

/-! ## Whose values they are -/

/-- The text a file gives, or the default. -/
def given (value : Option LucfgString) (default : CString) : Bytes :=
  ((value.map LucfgString.text).getD default).bytes

/-- The record holds the values of the file, and the defaults where it gives none. -/
structure Configured (named : Lucfg) (cfg : LuftpdConfigRecord) : Prop where
  ip : cText cfg.ip = given (named.getString "server" "ip") luftpdDefaultIp
  port : cfg.port = (named.getUint16 "server" "port").getD luftpdDefaultPort
  rootDir : cText cfg.rootDir = given (named.getString "server" "root_dir") luftpdDefaultRootDir
  maxConnections : cfg.maxConnections =
    (named.getInt32 "server" "max_connections").getD luftpdDefaultMaxConnections
  dataPortMin : cfg.dataPortMin =
    (named.getInt32 "server" "data_port_min").getD luftpdDefaultDataPortMin
  dataPortMax : cfg.dataPortMax =
    (named.getInt32 "server" "data_port_max").getD luftpdDefaultDataPortMax

/-- `etc` says the same as `named`: the numbers are the same, and the texts of `named` are what the
addresses of those of `etc` spell. -/
structure SaysSame (named etc : Lucfg) : Prop where
  ip : shown (etc.getString "server" "ip") luftpdDefaultIp
    = given (named.getString "server" "ip") luftpdDefaultIp
  port : (etc.getUint16 "server" "port").getD luftpdDefaultPort
    = (named.getUint16 "server" "port").getD luftpdDefaultPort
  rootDir : shown (etc.getString "server" "root_dir") luftpdDefaultRootDir
    = given (named.getString "server" "root_dir") luftpdDefaultRootDir
  maxConnections : (etc.getInt32 "server" "max_connections").getD luftpdDefaultMaxConnections
    = (named.getInt32 "server" "max_connections").getD luftpdDefaultMaxConnections
  dataPortMin : (etc.getInt32 "server" "data_port_min").getD luftpdDefaultDataPortMin
    = (named.getInt32 "server" "data_port_min").getD luftpdDefaultDataPortMin
  dataPortMax : (etc.getInt32 "server" "data_port_max").getD luftpdDefaultDataPortMax
    = (named.getInt32 "server" "data_port_max").getD luftpdDefaultDataPortMax

theorem Leaves.configured_iff_saysSame {etc named : Lucfg} {cfg : LuftpdConfigRecord}
    (h : Leaves etc cfg) : Configured named cfg ↔ SaysSame named etc := by
  constructor
  · intro hc
    exact ⟨h.ip.symm.trans hc.ip, h.port.symm.trans hc.port, h.rootDir.symm.trans hc.rootDir,
      h.maxConnections.symm.trans hc.maxConnections, h.dataPortMin.symm.trans hc.dataPortMin,
      h.dataPortMax.symm.trans hc.dataPortMax⟩
  · intro hs
    exact ⟨h.ip.trans hs.ip, h.port.trans hs.port, h.rootDir.trans hs.rootDir,
      h.maxConnections.trans hs.maxConnections, h.dataPortMin.trans hs.dataPortMin,
      h.dataPortMax.trans hs.dataPortMax⟩

/-- **The server is configured by its file exactly if the other one says the same.** -/
theorem configured_by_named_iff (first second : LucfgOpen) (program file : CString)
    (rest : List CString) {named : Lucfg} (h : first file = some named) :
    ∃ cfg, luftpdMain first second (program :: file :: rest) = some cfg ∧
      (Configured named cfg ↔
        SaysSame named ((second luftpdDefaultConfigFile).getD .empty)) := by
  have hload : (luftpdCfgLoadWithFile first file).1 = 0 := by
    rw [luftpdCfgLoadWithFile, h]
  refine ⟨luftpdStartServer second, ?_, (load_leaves second _).configured_iff_saysSame⟩
  rw [luftpdMain]
  exact if_neg (not_not.2 hload)

/-- A file that gives the port 2222 and nothing else. -/
def portFile : Lucfg where
  getString _ _ := none
  getUint16 _ key := if key = "port" then some 2222 else none
  getInt32 _ _ := none
  getBool _ _ := none

/-- A file that gives an address to bind to and nothing else. -/
def ipFile : Lucfg where
  getString _ key :=
    if key = "ip" then
      some ⟨⟨[0x10, 0x52, 0x3A, 0x4C, 0xF6, 0x7F, 0, 0], rfl⟩, ⟨textBytes "10.1.2.3", by decide⟩⟩
    else none
  getUint16 _ _ := none
  getInt32 _ _ := none
  getBool _ _ := none

/-- The only file there is. -/
def onlyFile (name : CString) (lucfg : Lucfg) : LucfgOpen := fun file =>
  if file = name then some lucfg else none

/-- The name of another file. -/
def ftpConf : CString := ⟨textBytes "ftp.conf", by decide⟩

/-- The name of the program. -/
def luftpdName : CString := ⟨textBytes "luftpd", by decide⟩

theorem configured_by_named_iff_portFile :
    ∃ cfg, luftpdMain (onlyFile ftpConf portFile) (onlyFile ftpConf portFile)
        [luftpdName, ftpConf] = some cfg ∧
      (Configured portFile cfg ↔ SaysSame portFile
        ((onlyFile ftpConf portFile luftpdDefaultConfigFile).getD .empty)) :=
  configured_by_named_iff _ _ luftpdName ftpConf [] rfl

/-- **Neither the numbers of the named file nor the texts of any file arrive**: the port 2222 of
`ftp.conf` is lost in the second load, and the address that `/etc/luftpd.conf` gives is replaced by
where it is kept, even if that is the file of the command line. -/
theorem named_values_lost :
    (∃ cfg, luftpdMain (onlyFile ftpConf portFile) (onlyFile ftpConf portFile)
        [luftpdName, ftpConf] = some cfg ∧ ¬ Configured portFile cfg) ∧
      ∃ cfg, luftpdMain (onlyFile luftpdDefaultConfigFile ipFile)
        (onlyFile luftpdDefaultConfigFile ipFile)
        [luftpdName, luftpdDefaultConfigFile] = some cfg ∧ ¬ Configured ipFile cfg := by
  refine ⟨⟨luftpdStartServer (onlyFile ftpConf portFile), rfl, fun h => ?_⟩,
    ⟨luftpdStartServer (onlyFile luftpdDefaultConfigFile ipFile), rfl, fun h => ?_⟩⟩
  · have hsame := (load_leaves _ _).configured_iff_saysSame.1 h
    exact absurd hsame.port (by decide)
  · have hsame := (load_leaves _ _).configured_iff_saysSame.1 h
    exact absurd hsame.ip (by decide)

end Lucp.Luftpd
