import Lucp.Lucfg

/-!
# The configuration of `lucpd`

`lucpd_cfg_load_with_entryArgs` starts from a configuration of zeros, walks the arguments, and on
each of its five ways out loads the file it has come to know, over the defaults, and puts the port
of the command line in.  A value of the file that is out of its range is dropped, and a text that is
too long is cut.

## What is here

* `lucpdCfgLoadWithFile` and `lucpdCfgLoadWithEntryArgs` — the functions of the source.
* `InLimits` — the ranges of the source, and what the four texts hold; `loadWithFile_inLimits` that
  a load leaves a configuration within them.
* `entryArgs_eq_load` — **whichever way it returns, the file has been loaded once**, and the limits
  hold (`entryArgs_inLimits`).
-/

set_option autoImplicit false

namespace Lucp

/-! ## The configuration -/

/-- `network`. -/
structure NetworkConfig where
  ip : CArray UInt8 64
  port : UInt16
  maxClients : Int32
  recvTimeoutMs : Int32
  sendTimeoutMs : Int32

/-- `protocol`. -/
structure ProtocolConfig where
  rateLimitMs : Int32
  sessionTimeoutMs : Int32
  validateVersion : Bool
  validateCrc16 : Bool

/-- `logging`. -/
structure LoggingConfig where
  logLevel : CArray UInt8 16
  logFile : CArray UInt8 256

/-- `file`. -/
structure FileConfig where
  tmpDir : CArray UInt8 256
  fileRetentionMin : Int32

/-- `LucpdConfig_t`. -/
structure LucpdConfig where
  network : NetworkConfig
  protocol : ProtocolConfig
  logging : LoggingConfig
  file : FileConfig

/-- `g_lucpdcfg` before anything has been written to it. -/
def LucpdConfig.zero : LucpdConfig where
  network := ⟨CArray.fill 64 0, 0, 0, 0, 0⟩
  protocol := ⟨0, 0, false, false⟩
  logging := ⟨CArray.fill 16 0, CArray.fill 256 0⟩
  file := ⟨CArray.fill 256 0, 0⟩

/-! ## Loading a file -/

/-- The string constants of the source. -/
def lucpdDefaultIp : CString := ⟨textBytes "127.0.0.1", by decide⟩

/-- The level of the defaults. -/
def defaultLogLevel : CString := ⟨textBytes "DEBUG", by decide⟩

/-- The directory of the defaults. -/
def defaultTmpDir : CString := ⟨textBytes "/tmp/lucp", by decide⟩

/-- No text, which is what `log_file` holds by default. -/
def noText : CString := ⟨[], by decide⟩

/-- `LUCPD_DEFAULT_CFG_FILE`. -/
def lucpdDefaultCfgFile : CString := ⟨textBytes "/etc/lucpd.conf", by decide⟩

/-- `LUCPD_DEFAULT_PORT`. -/
def lucpdDefaultPort : Int32 := 32100

/-- `LUCPD_DEFAULT_MAX_CLIENTS`. -/
def lucpdDefaultMaxClients : Int32 := 10

/-- `LUCPD_DEFAULT_NW_RECV_TIMEOUT_MS`. -/
def lucpdDefaultNwRecvTimeoutMs : Int32 := 1000

/-- `LUCPD_DEFAULT_NW_SEND_TIMEOUT_MS`. -/
def lucpdDefaultNwSendTimeoutMs : Int32 := 1000

/-- `LUCPD_DEFAULT_RATE_LIMIT_MS`. -/
def lucpdDefaultRateLimitMs : Int32 := 3000

/-- `LUCPD_DEFAULT_SESSION_TIMEOUT_MS`. -/
def lucpdDefaultSessionTimeoutMs : Int32 := 2000

/-- The retention of the defaults. -/
def defaultFileRetentionMin : Int32 := 30

/-- `strncpy(text, value, sizeof(text) - 1)`. -/
def copyText {n : ℕ} (text : CArray UInt8 n) (value : CString) : CArray UInt8 n :=
  strncpy text value (n - 1)

/-- `set_default_config()`. -/
def setDefaultConfig (config : LucpdConfig) : LucpdConfig where
  network :=
    { ip := copyText config.network.ip lucpdDefaultIp
      port := lucpdDefaultPort.toUInt32.toUInt16
      maxClients := lucpdDefaultMaxClients
      recvTimeoutMs := lucpdDefaultNwRecvTimeoutMs
      sendTimeoutMs := lucpdDefaultNwSendTimeoutMs }
  protocol :=
    { rateLimitMs := lucpdDefaultRateLimitMs
      sessionTimeoutMs := lucpdDefaultSessionTimeoutMs
      validateVersion := true
      validateCrc16 := true }
  logging :=
    { logLevel := copyText config.logging.logLevel defaultLogLevel
      logFile := clearText config.logging.logFile }
  file :=
    { tmpDir := copyText config.file.tmpDir defaultTmpDir
      fileRetentionMin := defaultFileRetentionMin }

/-- A text of the file, in the place of the one that is there. -/
def readText {n : ℕ} (lucfg : Lucfg) (sec key : String) (text : CArray UInt8 n) : CArray UInt8 n :=
  match lucfg.getString sec key with
  | some value => copyText text value.text
  | none => text

/-- A number of the file, in the place of the one that is there if it is within its limits. -/
def readNumber (lucfg : Lucfg) (sec key : String) (valid : Int32 → Bool) (number : Int32) : Int32 :=
  match lucfg.getInt32 sec key with
  | some value => if valid value then value else number
  | none => number

/-- A switch of the file, in the place of the one that is there if it is 0 or 1. -/
def readSwitch (lucfg : Lucfg) (sec key : String) (switch : Bool) : Bool :=
  match lucfg.getBool sec key with
  | some value => if value = 0 ∨ value = 1 then value ≠ 0 else switch
  | none => switch

/-- Between two limits, both included. -/
def within (lo hi n : Int32) : Bool := lo ≤ n ∧ n ≤ hi

/-- The range of `max_clients`. -/
def validMaxClients (n : Int32) : Bool := 0 < n ∧ n ≤ 100

/-- The range of both timeouts of the network. -/
def validTimeout : Int32 → Bool := within 100 10000

/-- The range of `rate_limit_ms`. -/
def validRateLimit : Int32 → Bool := within 1000 60000

/-- The range of `session_timeout_ms`. -/
def validSessionTimeout : Int32 → Bool := within 1000 30000

/-- The range of `file_retention_min`. -/
def validRetention : Int32 → Bool := within 5 1440

/-- What `lucpd_cfg_load_with_file()` does with an open file. -/
def readConfig (lucfg : Lucfg) (cfg : LucpdConfig) : LucpdConfig where
  network :=
    { ip := readText lucfg "network" "ip" cfg.network.ip
      port := (lucfg.getUint16 "network" "port").getD cfg.network.port
      maxClients :=
        readNumber lucfg "network" "max_clients" validMaxClients cfg.network.maxClients
      recvTimeoutMs :=
        readNumber lucfg "network" "recv_timeout_ms" validTimeout cfg.network.recvTimeoutMs
      sendTimeoutMs :=
        readNumber lucfg "network" "send_timeout_ms" validTimeout cfg.network.sendTimeoutMs }
  protocol :=
    { rateLimitMs :=
        readNumber lucfg "protocol" "rate_limit_ms" validRateLimit cfg.protocol.rateLimitMs
      sessionTimeoutMs :=
        readNumber lucfg "protocol" "session_timeout_ms" validSessionTimeout
          cfg.protocol.sessionTimeoutMs
      validateVersion :=
        readSwitch lucfg "protocol" "validate_version" cfg.protocol.validateVersion
      validateCrc16 := readSwitch lucfg "protocol" "validate_crc16" cfg.protocol.validateCrc16 }
  logging :=
    { logLevel := readText lucfg "logging" "log_level" cfg.logging.logLevel
      logFile := readText lucfg "logging" "log_file" cfg.logging.logFile }
  file :=
    { tmpDir := readText lucfg "file" "tmp_dir" cfg.file.tmpDir
      fileRetentionMin :=
        readNumber lucfg "file" "file_retention_min" validRetention cfg.file.fileRetentionMin }

/-- `lucpd_cfg_load_with_file()`; its callers always have a configuration. -/
def lucpdCfgLoadWithFile (lucfgOpen : LucfgOpen) (cfg : LucpdConfig) (configFile : CString) :
    Int × LucpdConfig :=
  let cfg := setDefaultConfig cfg
  match lucfgOpen configFile with
  | none => (-1, cfg)
  | some lucfg => (0, readConfig lucfg cfg)

/-- `set_file_and_port()`. -/
def setFileAndPort (lucfgOpen : LucfgOpen) (cfg : LucpdConfig) (file : CString) (port : Int32)
    (hassetc : Bool) : LucpdConfig :=
  let cfg := (lucpdCfgLoadWithFile lucfgOpen cfg file).2
  if hassetc then { cfg with network.port := port.toUInt32.toUInt16 } else cfg

/-! ## Walking the arguments -/

/-- `isspace()`. -/
def isspace (c : UInt8) : Bool := c = 0x20 ∨ 0x09 ≤ c ∧ c ≤ 0x0D

/-- `isdigit()`. -/
def isdigit (c : UInt8) : Bool := 0x30 ≤ c ∧ c ≤ 0x39

/-- `strtol()` with base 10, where `long` has 64 bits. -/
def strtol (s : Bytes) : Int :=
  let s := s.dropWhile isspace
  let negative := s.head? = some 0x2D
  let s := if negative ∨ s.head? = some 0x2B then s.drop 1 else s
  let value := (s.takeWhile isdigit).foldl (fun (n : ℕ) c => 10 * n + (c.toNat - 0x30)) 0
  if negative then max (-value) (-2 ^ 63) else min value (2 ^ 63 - 1)

/-- `atoi()`: what `strtol()` returns, cut to an `int`. -/
def atoi (s : Bytes) : Int32 := Int32.ofInt (strtol s)

/-- The loop over the arguments, with what it has found so far, and the five ways out of it. -/
def entryArgsLoop (lucfgOpen : LucfgOpen) (cfg : LucpdConfig) (cfgpath : CString) (port : Int32)
    (hassetc : Bool) : List CString → Int × LucpdConfig
  | [] => (0, setFileAndPort lucfgOpen cfg cfgpath port hassetc)
  | arg :: args =>
    if arg.bytes = textBytes "-c" then
      match args with
      | path :: args => entryArgsLoop lucfgOpen cfg path port hassetc args
      | [] => (-1, setFileAndPort lucfgOpen cfg cfgpath port hassetc)
    else if arg.bytes = textBytes "-p" then
      match args with
      | number :: args =>
        let inputPort := atoi number.bytes
        if inputPort ≤ 0 ∨ 65535 < inputPort then
          (-1, setFileAndPort lucfgOpen cfg cfgpath port hassetc)
        else entryArgsLoop lucfgOpen cfg cfgpath inputPort true args
      | [] => (-1, setFileAndPort lucfgOpen cfg cfgpath port hassetc)
    else (-1, setFileAndPort lucfgOpen cfg cfgpath port hassetc)

/-- `lucpd_cfg_load_with_entryArgs()`; the name of the program is not looked at. -/
def lucpdCfgLoadWithEntryArgs (lucfgOpen : LucfgOpen) (cfg : LucpdConfig) (argv : List CString) :
    Int × LucpdConfig :=
  entryArgsLoop lucfgOpen cfg lucpdDefaultCfgFile lucpdDefaultPort false (argv.drop 1)

/-! ## The limits -/

/-- An array holds the text that the file gives, or else the default, cut to its size. -/
def HoldsText {n : ℕ} (given : Option LucfgString) (default : CString) (a : CArray UInt8 n) :
    Prop :=
  Terminated a ∧ cText a = ((given.map LucfgString.text).getD default).bytes.take (n - 1)

/-- What the source calls a reasonable range, for every number that has one, and the texts of the
file that was loaded. -/
structure InLimits (lucfg : Lucfg) (cfg : LucpdConfig) : Prop where
  maxClients : 1 ≤ cfg.network.maxClients.toInt ∧ cfg.network.maxClients.toInt ≤ 100
  recvTimeoutMs : 100 ≤ cfg.network.recvTimeoutMs.toInt ∧
    cfg.network.recvTimeoutMs.toInt ≤ 10000
  sendTimeoutMs : 100 ≤ cfg.network.sendTimeoutMs.toInt ∧
    cfg.network.sendTimeoutMs.toInt ≤ 10000
  rateLimitMs : 1000 ≤ cfg.protocol.rateLimitMs.toInt ∧
    cfg.protocol.rateLimitMs.toInt ≤ 60000
  sessionTimeoutMs : 1000 ≤ cfg.protocol.sessionTimeoutMs.toInt ∧
    cfg.protocol.sessionTimeoutMs.toInt ≤ 30000
  fileRetentionMin : 5 ≤ cfg.file.fileRetentionMin.toInt ∧
    cfg.file.fileRetentionMin.toInt ≤ 1440
  ip : HoldsText (lucfg.getString "network" "ip") lucpdDefaultIp cfg.network.ip
  logLevel : HoldsText (lucfg.getString "logging" "log_level") defaultLogLevel
    cfg.logging.logLevel
  logFile : HoldsText (lucfg.getString "logging" "log_file") noText cfg.logging.logFile
  tmpDir : HoldsText (lucfg.getString "file" "tmp_dir") defaultTmpDir cfg.file.tmpDir

/-- The last bytes of the four texts, which nothing writes to. -/
structure ZeroEndedTexts (cfg : LucpdConfig) : Prop where
  ip : ZeroEnded cfg.network.ip
  logLevel : ZeroEnded cfg.logging.logLevel
  logFile : ZeroEnded cfg.logging.logFile
  tmpDir : ZeroEnded cfg.file.tmpDir

theorem zeroEndedTexts_zero : ZeroEndedTexts .zero where
  ip := zeroEnded_fill (by decide)
  logLevel := zeroEnded_fill (by decide)
  logFile := zeroEnded_fill (by decide)
  tmpDir := zeroEnded_fill (by decide)

/-- A number that is valid stays valid, whatever the file says. -/
theorem readNumber_valid {lucfg : Lucfg} {sec key : String} {valid : Int32 → Bool} {number : Int32}
    (h : valid number = true) : valid (readNumber lucfg sec key valid number) = true := by
  rw [readNumber]
  split
  · split
    · assumption
    · exact h
  · exact h

/-- A text of the file over a default that fits. -/
theorem holdsText_readText {n : ℕ} {lucfg : Lucfg} {sec key : String} {default : CString}
    {a : CArray UInt8 n} (hend : ZeroEnded a) (htext : cText a = default.bytes.take (n - 1)) :
    HoldsText (lucfg.getString sec key) default (readText lucfg sec key a) := by
  rw [readText]
  cases lucfg.getString sec key with
  | none => exact ⟨hend.terminated, htext⟩
  | some value => exact ⟨(hend.copy value.text).terminated, hend.cText_copy value.text⟩

/-- A number whose default is within its limits. -/
theorem readNumber_within {lucfg : Lucfg} {sec key : String} {a b number : Int32}
    (h : within a b number = true) :
    a.toInt ≤ (readNumber lucfg sec key (within a b) number).toInt ∧
      (readNumber lucfg sec key (within a b) number).toInt ≤ b.toInt := by
  have hvalid : within a b (readNumber lucfg sec key (within a b) number) = true :=
    readNumber_valid h
  obtain ⟨hlo, hhi⟩ := of_decide_eq_true hvalid
  exact ⟨Int32.le_iff_toInt_le.1 hlo, Int32.le_iff_toInt_le.1 hhi⟩

theorem toInt_of_validMaxClients {n : Int32} (h : validMaxClients n = true) :
    1 ≤ n.toInt ∧ n.toInt ≤ 100 := by
  obtain ⟨hlo, hhi⟩ := of_decide_eq_true h
  exact ⟨Int32.lt_iff_toInt_lt.1 hlo, Int32.le_iff_toInt_le.1 hhi⟩

/-- The defaults keep the last bytes of the texts. -/
theorem ZeroEndedTexts.setDefault {cfg : LucpdConfig} (h : ZeroEndedTexts cfg) :
    ZeroEndedTexts (setDefaultConfig cfg) where
  ip := h.ip.copy lucpdDefaultIp
  logLevel := h.logLevel.copy defaultLogLevel
  logFile := h.logFile.clear (by decide)
  tmpDir := h.tmpDir.copy defaultTmpDir

/-- Every default passes its own check. -/
theorem defaults_valid :
    validMaxClients lucpdDefaultMaxClients = true ∧
      validTimeout lucpdDefaultNwRecvTimeoutMs = true ∧
      validTimeout lucpdDefaultNwSendTimeoutMs = true ∧
      validRateLimit lucpdDefaultRateLimitMs = true ∧
      validSessionTimeout lucpdDefaultSessionTimeoutMs = true ∧
      validRetention defaultFileRetentionMin = true := by decide

/-- A file over the defaults. -/
theorem readConfig_inLimits (lucfg : Lucfg) {cfg : LucpdConfig} (h : ZeroEndedTexts cfg) :
    InLimits lucfg (readConfig lucfg (setDefaultConfig cfg)) := by
  obtain ⟨hclients, hrecv, hsend, hrate, hsession, hretention⟩ := defaults_valid
  exact
    { maxClients := toInt_of_validMaxClients (readNumber_valid hclients)
      recvTimeoutMs := readNumber_within (a := 100) (b := 10000) hrecv
      sendTimeoutMs := readNumber_within (a := 100) (b := 10000) hsend
      rateLimitMs := readNumber_within (a := 1000) (b := 60000) hrate
      sessionTimeoutMs := readNumber_within (a := 1000) (b := 30000) hsession
      fileRetentionMin := readNumber_within (a := 5) (b := 1440) hretention
      ip := holdsText_readText h.setDefault.ip (h.ip.cText_copy lucpdDefaultIp)
      logLevel := holdsText_readText h.setDefault.logLevel (h.logLevel.cText_copy defaultLogLevel)
      logFile := holdsText_readText h.setDefault.logFile (cText_clearText _ (by decide))
      tmpDir := holdsText_readText h.setDefault.tmpDir (h.tmpDir.cText_copy defaultTmpDir) }

/-- A file that cannot be opened is as good as an empty one, for the configuration. -/
theorem loadWithFile_eq (lucfgOpen : LucfgOpen) (cfg : LucpdConfig) (file : CString) :
    (lucpdCfgLoadWithFile lucfgOpen cfg file).2
      = readConfig ((lucfgOpen file).getD .empty) (setDefaultConfig cfg) := by
  rw [lucpdCfgLoadWithFile]
  cases lucfgOpen file with
  | none => rfl
  | some lucfg => rfl

theorem InLimits.withPort {lucfg : Lucfg} {cfg : LucpdConfig} (h : InLimits lucfg cfg)
    (port : UInt16) : InLimits lucfg { cfg with network.port := port } :=
  ⟨h.maxClients, h.recvTimeoutMs, h.sendTimeoutMs, h.rateLimitMs, h.sessionTimeoutMs,
    h.fileRetentionMin, h.ip, h.logLevel, h.logFile, h.tmpDir⟩

/-- **One load**, with or without a port of the command line. -/
theorem setFileAndPort_inLimits (lucfgOpen : LucfgOpen) {cfg : LucpdConfig}
    (h : ZeroEndedTexts cfg) (file : CString) (port : Int32) (hassetc : Bool) :
    InLimits ((lucfgOpen file).getD .empty)
      (setFileAndPort lucfgOpen cfg file port hassetc) := by
  have hload := readConfig_inLimits ((lucfgOpen file).getD .empty) h
  rw [← loadWithFile_eq] at hload
  rw [setFileAndPort]
  split
  · exact hload.withPort _
  · exact hload

/-- **Whichever way the loop is left, the file has been loaded once.** -/
theorem entryArgsLoop_eq_load (lucfgOpen : LucfgOpen) (cfg : LucpdConfig) (cfgpath : CString)
    (port : Int32) (hassetc : Bool) (args : List CString) :
    ∃ ret file port' hassetc', (ret = 0 ∨ ret = -1) ∧ file ∈ cfgpath :: args ∧
      entryArgsLoop lucfgOpen cfg cfgpath port hassetc args
        = (ret, setFileAndPort lucfgOpen cfg file port' hassetc') := by
  fun_induction entryArgsLoop lucfgOpen cfg cfgpath port hassetc args with
  | case1 cfgpath port hassetc =>
    exact ⟨0, cfgpath, port, hassetc, .inl rfl, List.mem_cons_self, rfl⟩
  | case2 cfgpath port hassetc arg _ path args ih =>
    obtain ⟨ret, file, port', hassetc', hret, hfile, heq⟩ := ih
    exact ⟨ret, file, port', hassetc', hret, List.mem_cons_of_mem _ (List.mem_cons_of_mem _ hfile),
      heq⟩
  | case5 cfgpath port hassetc arg _ _ number args _ _ ih =>
    obtain ⟨ret, file, port', hassetc', hret, hfile, heq⟩ := ih
    refine ⟨ret, file, port', hassetc', hret, ?_, heq⟩
    rcases List.mem_cons.1 hfile with rfl | hfile
    · exact List.mem_cons_self
    · exact List.mem_cons_of_mem _ (List.mem_cons_of_mem _ (List.mem_cons_of_mem _ hfile))
  | _ cfgpath port hassetc =>
    exact ⟨-1, cfgpath, port, hassetc, .inr rfl, List.mem_cons_self, rfl⟩

/-- **The configuration is within its limits**, whatever the arguments and the files are, and the
texts are those of the file that was loaded, cut to their arrays. -/
theorem entryArgs_inLimits (lucfgOpen : LucfgOpen) (argv : List CString) :
    let r := lucpdCfgLoadWithEntryArgs lucfgOpen .zero argv
    (r.1 = 0 ∨ r.1 = -1) ∧ ∃ file port hassetc, file ∈ lucpdDefaultCfgFile :: argv ∧
      r.2 = setFileAndPort lucfgOpen .zero file port hassetc ∧
      InLimits ((lucfgOpen file).getD .empty) r.2 := by
  obtain ⟨ret, file, port, hassetc, hret, hfile, heq⟩ := entryArgsLoop_eq_load lucfgOpen .zero
    lucpdDefaultCfgFile lucpdDefaultPort false (argv.drop 1)
  rw [lucpdCfgLoadWithEntryArgs, heq]
  refine ⟨hret, file, port, hassetc, ?_, rfl,
    setFileAndPort_inLimits lucfgOpen zeroEndedTexts_zero file port hassetc⟩
  rcases List.mem_cons.1 hfile with rfl | hfile
  · exact List.mem_cons_self
  · exact List.mem_cons_of_mem _ (List.mem_of_mem_drop hfile)

end Lucp
