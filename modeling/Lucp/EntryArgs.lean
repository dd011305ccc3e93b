import Lucp.Config

/-!
# The command line of `lucpd`

The options of `lucpd` are pairs of a word and its value, so `lucpd_cfg_load_with_entryArgs` walks
the arguments in twos, and a value is never looked at as an option.  The walk stops at the first
option that it does not know, that has no value, or whose value is no port.

## What is here

* `EntryOption` — a pair that the walk takes; `lastFile` and `lastPort` what a list of them says.
* `Malformed` — what stops the walk; `options_or_malformed` that it is one or the other.
* `entryArgsLoop_words` — what the walk has found after some options, whatever comes behind them.
* `entryArgs_options` — **the last of each kind counts, in whatever order they come**, and a
  malformed option leaves the configuration of the arguments in front of it.
-/

set_option autoImplicit false

namespace Lucp

/-! ## Options -/

/-- A value that the source accepts for `-p`. -/
structure PortText where
  text : CString
  accepted : 1 ≤ (atoi text.bytes).toInt ∧ (atoi text.bytes).toInt ≤ 65535

/-- The port itself. -/
def PortText.port (number : PortText) : UInt16 :=
  UInt16.ofNat (atoi number.text.bytes).toInt.toNat

/-- A pair of the command line. -/
inductive EntryOption where
  /-- `-c FILE`. -/
  | file (path : CString)
  /-- `-p N`. -/
  | port (number : PortText)

/-- The word in front of a file. -/
def fileWord : CString := ⟨textBytes "-c", by decide⟩

/-- The word in front of a port. -/
def portWord : CString := ⟨textBytes "-p", by decide⟩

/-- How a pair stands among the arguments. -/
def EntryOption.words : EntryOption → List CString
  | .file path => [fileWord, path]
  | .port number => [portWord, number.text]

/-- The file of a pair. -/
def EntryOption.file? : EntryOption → Option CString
  | .file path => some path
  | .port _ => none

/-- The port of a pair. -/
def EntryOption.port? : EntryOption → Option PortText
  | .file _ => none
  | .port number => some number

/-- The file that counts. -/
def lastFile (options : List EntryOption) : Option CString :=
  (options.filterMap EntryOption.file?).getLast?

/-- The port that counts. -/
def lastPort (options : List EntryOption) : Option PortText :=
  (options.filterMap EntryOption.port?).getLast?

/-- A configuration with this port. -/
def LucpdConfig.withPort (cfg : LucpdConfig) (port : UInt16) : LucpdConfig :=
  { cfg with network.port := port }

/-- What a list of options asks for: the last file, the default one if there is none, with the last
port in it, if there is one. -/
def optionsConfig (lucfgOpen : LucfgOpen) (cfg : LucpdConfig) (options : List EntryOption) :
    LucpdConfig :=
  let loaded :=
    (lucpdCfgLoadWithFile lucfgOpen cfg ((lastFile options).getD lucpdDefaultCfgFile)).2
  match lastPort options with
  | some number => loaded.withPort number.port
  | none => loaded

/-- What makes the walk give up: an unknown word, a word without its value, and a value that is no
port. -/
inductive Malformed : List CString → Prop where
  | unknownWord {word : CString} (rest : List CString) (hfile : word ≠ fileWord)
      (hport : word ≠ portWord) : Malformed (word :: rest)
  | missingFile : Malformed [fileWord]
  | missingPort : Malformed [portWord]
  | portRange {number : CString} (rest : List CString)
      (hrange : ¬ (1 ≤ (atoi number.bytes).toInt ∧ (atoi number.bytes).toInt ≤ 65535)) :
      Malformed (portWord :: number :: rest)

/-- The first malformed option is at position `k`: what is behind the name of the program and in
front of it are options. -/
def FirstMalformedAt (argv : List CString) (k : ℕ) : Prop :=
  (∃ program, ∃ options : List EntryOption,
      argv.take k = program :: options.flatMap EntryOption.words) ∧
    Malformed (argv.drop k)

/-- The options of a command line: all of it, or what stands in front of the first malformed one. -/
def OptionsOf (argv : List CString) (options : List EntryOption) : Prop :=
  ∃ rest, argv.drop 1 = options.flatMap EntryOption.words ++ rest ∧ (rest = [] ∨ Malformed rest)

@[simp] theorem lastFile_nil : lastFile [] = none := rfl

@[simp] theorem lastPort_nil : lastPort [] = none := rfl

@[simp] theorem lastFile_cons_port (number : PortText) (options : List EntryOption) :
    lastFile (.port number :: options) = lastFile options := rfl

@[simp] theorem lastPort_cons_file (path : CString) (options : List EntryOption) :
    lastPort (.file path :: options) = lastPort options := rfl

/-- A file counts until another one comes. -/
@[simp] theorem lastFile_cons_file (path : CString) (options : List EntryOption) :
    lastFile (.file path :: options) = some ((lastFile options).getD path) :=
  List.getLast?_cons

/-- A port counts until another one comes. -/
@[simp] theorem lastPort_cons_port (number : PortText) (options : List EntryOption) :
    lastPort (.port number :: options) = some ((lastPort options).getD number) :=
  List.getLast?_cons

/-- **Arguments are options to the end, or to a malformed one.** -/
theorem options_or_malformed : ∀ args : List CString, ∃ (options : List EntryOption)
    (rest : List CString), args = options.flatMap EntryOption.words ++ rest ∧
      (rest = [] ∨ Malformed rest)
  | [] => ⟨[], [], rfl, .inl rfl⟩
  | word :: args => by
    by_cases hfile : word = fileWord
    · subst hfile
      cases args with
      | nil => exact ⟨[], _, rfl, .inr .missingFile⟩
      | cons path args =>
        obtain ⟨options, rest, rfl, hrest⟩ := options_or_malformed args
        exact ⟨.file path :: options, rest, rfl, hrest⟩
    · by_cases hport : word = portWord
      · subst hport
        cases args with
        | nil => exact ⟨[], _, rfl, .inr .missingPort⟩
        | cons value args =>
          by_cases hrange : 1 ≤ (atoi value.bytes).toInt ∧ (atoi value.bytes).toInt ≤ 65535
          · obtain ⟨options, rest, rfl, hrest⟩ := options_or_malformed args
            exact ⟨.port ⟨value, hrange⟩ :: options, rest, rfl, hrest⟩
          · exact ⟨[], _, rfl, .inr (.portRange args hrange)⟩
      · exact ⟨[], _, rfl, .inr (.unknownWord args hfile hport)⟩

/-- So an argument list is well formed or has a first malformed option. -/
theorem options_or_firstMalformed (program : CString) (args : List CString) :
    (∃ options : List EntryOption, args = options.flatMap EntryOption.words) ∨
      ∃ k, FirstMalformedAt (program :: args) k := by
  obtain ⟨options, rest, rfl, hrest⟩ := options_or_malformed args
  rcases hrest with rfl | hrest
  · exact .inl ⟨options, List.append_nil _⟩
  · refine .inr ⟨(options.flatMap EntryOption.words).length + 1, ⟨program, options, ?_⟩, ?_⟩
    · rw [List.take_succ_cons, List.take_left]
    · rwa [List.drop_succ_cons, List.drop_left]

/-! ## The walk -/

section Walk

variable (lucfgOpen : LucfgOpen) (cfg : LucpdConfig) (cfgpath : CString) (port : Int32)
  (hassetc : Bool)

theorem bytes_eq_fileWord {arg : CString} : arg.bytes = textBytes "-c" ↔ arg = fileWord :=
  ⟨fun h => CString.ext h, fun h => h ▸ rfl⟩

theorem bytes_eq_portWord {arg : CString} : arg.bytes = textBytes "-p" ↔ arg = portWord :=
  ⟨fun h => CString.ext h, fun h => h ▸ rfl⟩

theorem portWord_ne_fileWord : portWord ≠ fileWord := by decide

/-- The check of the source, as a range. -/
theorem portOutOfRange_iff (n : Int32) :
    n ≤ 0 ∨ 65535 < n ↔ ¬ (1 ≤ n.toInt ∧ n.toInt ≤ 65535) := by
  rw [Int32.le_iff_toInt_le, Int32.lt_iff_toInt_lt]
  have hzero : (0 : Int32).toInt = 0 := by decide
  have hmax : (65535 : Int32).toInt = 65535 := by decide
  omega

theorem entryArgsLoop_file (path : CString) (args : List CString) :
    entryArgsLoop lucfgOpen cfg cfgpath port hassetc (fileWord :: path :: args)
      = entryArgsLoop lucfgOpen cfg path port hassetc args := by
  rw [entryArgsLoop, if_pos (bytes_eq_fileWord.2 rfl)]

theorem entryArgsLoop_port (number : PortText) (args : List CString) :
    entryArgsLoop lucfgOpen cfg cfgpath port hassetc (portWord :: number.text :: args)
      = entryArgsLoop lucfgOpen cfg cfgpath (atoi number.text.bytes) true args := by
  have hvalid : ¬ (atoi number.text.bytes ≤ 0 ∨ 65535 < atoi number.text.bytes) :=
    fun h => (portOutOfRange_iff _).1 h number.accepted
  rw [entryArgsLoop, if_neg (mt bytes_eq_fileWord.1 portWord_ne_fileWord),
    if_pos (bytes_eq_portWord.2 rfl)]
  exact if_neg hvalid

/-- Each of the four ways out in front of the end applies what the walk has found. -/
theorem entryArgsLoop_malformed {rest : List CString} (h : Malformed rest) :
    entryArgsLoop lucfgOpen cfg cfgpath port hassetc rest
      = (-1, setFileAndPort lucfgOpen cfg cfgpath port hassetc) := by
  have hword : ¬ portWord.bytes = textBytes "-c" := mt bytes_eq_fileWord.1 portWord_ne_fileWord
  cases h with
  | unknownWord rest hfile hport =>
    rw [entryArgsLoop.eq_def]
    exact (if_neg (mt bytes_eq_fileWord.1 hfile)).trans (if_neg (mt bytes_eq_portWord.1 hport))
  | missingFile => rw [entryArgsLoop, if_pos (bytes_eq_fileWord.2 rfl)]
  | missingPort => rw [entryArgsLoop, if_neg hword, if_pos (bytes_eq_portWord.2 rfl)]
  | portRange rest hrange =>
    rw [entryArgsLoop, if_neg hword, if_pos (bytes_eq_portWord.2 rfl)]
    exact if_pos ((portOutOfRange_iff _).2 hrange)

end Walk

/-- What `port` holds while the walk has found this port, or none. -/
def portFound (number : Option PortText) : Int32 :=
  number.elim lucpdDefaultPort fun number => atoi number.text.bytes

/-- **What the walk has found after some options**, whatever comes behind them. -/
theorem entryArgsLoop_words (lucfgOpen : LucfgOpen) (cfg : LucpdConfig)
    (options : List EntryOption) (rest : List CString) (cfgpath : CString)
    (number : Option PortText) :
    entryArgsLoop lucfgOpen cfg cfgpath (portFound number) number.isSome
        (options.flatMap EntryOption.words ++ rest)
      = entryArgsLoop lucfgOpen cfg ((lastFile options).getD cfgpath)
          (portFound ((lastPort options).or number)) ((lastPort options).or number).isSome
          rest := by
  induction options generalizing cfgpath number with
  | nil => rfl
  | cons option options ih =>
    rw [List.flatMap_cons, List.append_assoc]
    cases option with
    | file path =>
      refine (entryArgsLoop_file ..).trans ((ih path number).trans ?_)
      rw [lastFile_cons_file, lastPort_cons_file, Option.getD_some]
    | port next =>
      refine (entryArgsLoop_port ..).trans ((ih cfgpath (some next)).trans ?_)
      rw [lastFile_cons_port, lastPort_cons_port]
      cases lastPort options with
      | none => rfl
      | some last => rfl

/-- A port that was accepted goes into the configuration as it is. -/
theorem PortText.toUInt16_atoi (number : PortText) :
    (atoi number.text.bytes).toUInt32.toUInt16 = number.port := by
  have hnonneg : 0 ≤ atoi number.text.bytes := by
    have hlo := number.accepted.1
    rw [Int32.le_iff_toInt_le, Int32.toInt_zero]
    omega
  calc (atoi number.text.bytes).toUInt32.toUInt16
      = UInt16.ofNat (atoi number.text.bytes).toUInt32.toNat := rfl
    _ = number.port := by rw [Int32.toNat_toUInt32_of_le hnonneg]; rfl

/-- It is the number that `atoi` read. -/
theorem PortText.toNat_port (number : PortText) :
    (number.port.toNat : ℤ) = (atoi number.text.bytes).toInt := by
  obtain ⟨hlo, hhi⟩ := number.accepted
  rw [PortText.port, UInt16.toNat_ofNat']
  omega

/-- What the walk applies is what the options in front ask for. -/
theorem setFileAndPort_found (lucfgOpen : LucfgOpen) (cfg : LucpdConfig)
    (options : List EntryOption) :
    setFileAndPort lucfgOpen cfg ((lastFile options).getD lucpdDefaultCfgFile)
        (portFound (lastPort options)) (lastPort options).isSome
      = optionsConfig lucfgOpen cfg options := by
  rw [setFileAndPort, optionsConfig]
  cases lastPort options with
  | none => rfl
  | some number => exact congrArg (LucpdConfig.withPort _) number.toUInt16_atoi

/-- The whole walk, over some options and what stands behind them. -/
theorem entryArgs_append (lucfgOpen : LucfgOpen) (cfg : LucpdConfig) (program : CString)
    (options : List EntryOption) (rest : List CString) :
    lucpdCfgLoadWithEntryArgs lucfgOpen cfg
        (program :: (options.flatMap EntryOption.words ++ rest))
      = entryArgsLoop lucfgOpen cfg ((lastFile options).getD lucpdDefaultCfgFile)
          (portFound (lastPort options)) (lastPort options).isSome rest := by
  refine (entryArgsLoop_words lucfgOpen cfg options rest lucpdDefaultCfgFile none).trans ?_
  rw [Option.or_none]

/-- **The configuration of its options** is what a command line leaves, whether a malformed one ends
them or not. -/
theorem entryArgs_config (lucfgOpen : LucfgOpen) (cfg : LucpdConfig) {argv : List CString}
    {options : List EntryOption} (h : OptionsOf argv options) :
    (lucpdCfgLoadWithEntryArgs lucfgOpen cfg argv).2 = optionsConfig lucfgOpen cfg options := by
  obtain ⟨rest, hargs, hrest⟩ := h
  have hwalk := entryArgsLoop_words lucfgOpen cfg options rest lucpdDefaultCfgFile none
  rw [Option.or_none, ← hargs] at hwalk
  rw [lucpdCfgLoadWithEntryArgs, ← setFileAndPort_found]
  refine (congrArg Prod.snd hwalk).trans ?_
  rcases hrest with rfl | hbad
  · rw [entryArgsLoop]
  · rw [entryArgsLoop_malformed lucfgOpen cfg _ _ _ hbad]

/-- Options to the end. -/
theorem entryArgs_words (lucfgOpen : LucfgOpen) (cfg : LucpdConfig) (program : CString)
    (options : List EntryOption) :
    lucpdCfgLoadWithEntryArgs lucfgOpen cfg (program :: options.flatMap EntryOption.words)
      = (0, optionsConfig lucfgOpen cfg options) := by
  have hwalk := entryArgs_append lucfgOpen cfg program options []
  rw [List.append_nil] at hwalk
  rw [hwalk, entryArgsLoop, setFileAndPort_found]

/-- **The last of each kind counts, in whatever order they come**, and a malformed option leaves
the configuration of the arguments in front of it. -/
theorem entryArgs_options (lucfgOpen : LucfgOpen) (cfg : LucpdConfig) :
    (∀ (program : CString) (args : List CString),
      (∃ options : List EntryOption, args = options.flatMap EntryOption.words) ∨
        ∃ k, FirstMalformedAt (program :: args) k) ∧
    (∀ (program : CString) (options : List EntryOption),
      lucpdCfgLoadWithEntryArgs lucfgOpen cfg (program :: options.flatMap EntryOption.words)
        = (0, optionsConfig lucfgOpen cfg options) ∧
      ∀ number, lastPort options = some number →
        ((optionsConfig lucfgOpen cfg options).network.port.toNat : ℤ)
          = (atoi number.text.bytes).toInt) ∧
    (∀ (program program' : CString) (options options' : List EntryOption),
      options.filterMap EntryOption.file? = options'.filterMap EntryOption.file? →
      options.filterMap EntryOption.port? = options'.filterMap EntryOption.port? →
      lucpdCfgLoadWithEntryArgs lucfgOpen cfg (program :: options.flatMap EntryOption.words)
        = lucpdCfgLoadWithEntryArgs lucfgOpen cfg
            (program' :: options'.flatMap EntryOption.words)) ∧
    ∀ (argv : List CString) (k : ℕ), FirstMalformedAt argv k →
      lucpdCfgLoadWithEntryArgs lucfgOpen cfg argv
        = (-1, (lucpdCfgLoadWithEntryArgs lucfgOpen cfg (argv.take k)).2) := by
  refine ⟨options_or_firstMalformed, ?_, ?_, ?_⟩
  · intro program options
    refine ⟨entryArgs_words lucfgOpen cfg program options, fun number hlast => ?_⟩
    rw [optionsConfig, hlast]
    exact number.toNat_port
  · intro program program' options options' hfiles hports
    have hfile : lastFile options = lastFile options' := congrArg List.getLast? hfiles
    have hport : lastPort options = lastPort options' := congrArg List.getLast? hports
    rw [entryArgs_words, entryArgs_words, optionsConfig, optionsConfig, hfile, hport]
  · rintro argv k ⟨⟨program, options, hfront⟩, hmalformed⟩
    have hargv : argv
        = program :: (options.flatMap EntryOption.words ++ argv.drop k) := by
      rw [← List.cons_append, ← hfront, List.take_append_drop]
    rw [hfront, entryArgs_words]
    calc lucpdCfgLoadWithEntryArgs lucfgOpen cfg argv
        = _ := congrArg _ hargv
      _ = _ := entryArgs_append lucfgOpen cfg program options _
      _ = _ := entryArgsLoop_malformed lucfgOpen cfg _ _ _ hmalformed
      _ = _ := by rw [setFileAndPort_found]

/-- A port is exchanged with the file behind it, and an unknown word stands behind a file that is
called like an option. -/
theorem entryArgs_options_lucpd :
    let program : CString := ⟨textBytes "lucpd", by decide⟩
    let port : CString := ⟨textBytes "8080", by decide⟩
    let unknown : CString := ⟨textBytes "-x", by decide⟩
    lucpdCfgLoadWithEntryArgs (fun _ => none) .zero [program, portWord, port, fileWord, portWord]
        = lucpdCfgLoadWithEntryArgs (fun _ => none) .zero
            [program, fileWord, portWord, portWord, port] ∧
      lucpdCfgLoadWithEntryArgs (fun _ => none) .zero [program, fileWord, portWord, unknown]
        = (-1, (lucpdCfgLoadWithEntryArgs (fun _ => none) .zero
            [program, fileWord, portWord]).2) := by
  intro program port unknown
  let number : PortText := ⟨port, by decide⟩
  constructor
  · exact (entryArgs_options _ _).2.2.1 program program [.port number, .file portWord]
      [.file portWord, .port number] rfl rfl
  · exact (entryArgs_options _ _).2.2.2 [program, fileWord, portWord, unknown] 3
      ⟨⟨program, [.file portWord], rfl⟩, .unknownWord [] (by decide) (by decide)⟩

end Lucp
