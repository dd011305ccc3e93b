import Lucp.CheckedString
import Lucp.Luftpd.Containment
import Mathlib.Data.List.Forall2

/-!
# The buffers of `luftpd_resolve_path`

`luftpdResolvePath` says which path the function computes.  Here it is translated once more, with
the arrays the source computes it in: six strings, a table of pointers into one of them, and the
array of the caller.  What they hold at the start is arbitrary, and so is what the three calls of
`realpath()` answer, but for the length of their answers.

## What is here

* `luftpdResolvePathBuffers` — the function on its arrays, in the pieces `luftpdResolvePath` is cut
  into.
* `resolveWith` — the path that is computed, for any answers of `realpath()`;
  `resolveWith_fileSystem` says that it is `luftpdResolvePath` for those of a file system.
* `resolveIn_refines` — the arrays are used to compute just that, and **no access is outside**.
* `resolvePathBuffers_inside` — what a caller sees of it.
-/

set_option autoImplicit false

namespace Lucp.Luftpd

/-! ## The function on its arrays -/

/-- The arrays of the function, with whatever they hold when it is called. -/
structure ResolveArrays where
  normalizedFtpRoot : CArray UInt8 pathMax
  realFtpRoot : CArray UInt8 pathMax
  realCurrentPath : CArray UInt8 pathMax
  basePath : CArray UInt8 pathMax
  tempPath : CArray UInt8 (pathMax * 2)
  /-- Pointers into `tempPath`, which are offsets there; `none` is `NULL`. -/
  components : CArray (Option ℕ) pathMax
  resultPath : CArray UInt8 (pathMax * 2)
  finalPath : CArray UInt8 pathMax

/-- What the calls of `realpath()` answer, call by call: for a path name, the string it writes. -/
abbrev Realpath := ℕ → Bytes → Option CString

/-- A call of `realpath()` that has to succeed. -/
def realpathTo {n : ℕ} (resolved : CArray UInt8 n) (answer : Option CString) :
    Checked Errno (CArray UInt8 n) :=
  match answer with
  | none => .error .realpath
  | some real => strcpyTo resolved real

/-- The one `/` at the end of a string of `len` characters is overwritten. -/
def stripSlashIn {n : ℕ} (a : CArray UInt8 n) (len : ℕ) : Checked Errno (CArray UInt8 n) :=
  if 1 < len then do
    if (← a.get (len - 1)) = slash then a.store (len - 1) [0] else return a
  else return a

/-- `checkPaths` on arrays. -/
def checkPathsIn (arrays : ResolveArrays) (realpath : Realpath) (ftpRoot currentPath : CString) :
    Checked Errno (CArray UInt8 pathMax × CArray UInt8 pathMax) :=
  if ftpRoot.bytes.head? ≠ some slash then .error .einval
  else if pathMax ≤ ftpRoot.bytes.length then .error .enametoolong
  else do
    let normalized ← strncpyTo arrays.normalizedFtpRoot ftpRoot pathMax
    let normalized ← normalized.store (pathMax - 1) [0]
    let normalized ← stripSlashIn normalized ftpRoot.bytes.length
    let path ← stringAt normalized 0
    let realFtpRoot ← realpathTo arrays.realFtpRoot (realpath 0 path.bytes)
    let realCurrentPath ← realpathTo arrays.realCurrentPath (realpath 1 currentPath.bytes)
    let root ← stringAt realFtpRoot 0
    let current ← stringAt realCurrentPath 0
    if ¬ root.bytes <+: current.bytes then .error .eacces
    else if root.bytes.length < current.bytes.length then do
      if (← realCurrentPath.get root.bytes.length) ≠ slash then .error .eacces
      else return (realFtpRoot, realCurrentPath)
    else return (realFtpRoot, realCurrentPath)

/-- `basePath` on arrays. -/
def basePathIn (basePath realFtpRoot realCurrentPath : CArray UInt8 pathMax)
    (userControlPath : CString) : Checked Errno (CArray UInt8 pathMax) := do
  let base ← stringAt
    (if userControlPath.bytes.head? = some slash then realFtpRoot else realCurrentPath) 0
  if pathMax ≤ base.bytes.length then .error .enametoolong
  else do
    let basePath ← strcpyTo basePath base
    let baseLen := (← stringAt basePath 0).bytes.length
    stripSlashIn basePath baseLen

/-- `strtok(…, "/")` on the string at `save`: the token, where the next call goes on, and the array
with the token cut off. -/
def strtokIn {n : ℕ} (a : CArray UInt8 n) (save : ℕ) :
    Checked Errno (Option ℕ × ℕ × CArray UInt8 n) := do
  let s ← stringAt a save
  let token := save + (s.bytes.takeWhile (· = slash)).length
  let rest := s.bytes.dropWhile (· = slash)
  if rest = [] then return (none, token, a)
  else do
    let stop := token + (rest.takeWhile (· ≠ slash)).length
    if (← a.get stop) = 0 then return (some token, stop, a)
    else do
      let a ← a.store stop [0]
      return (some token, stop + 1, a)

/-- The loop that fills `components`, of which `compCount` are there, with room for `room` more. -/
def splitLoopIn {n : ℕ} : ℕ → Option ℕ → ℕ → CArray UInt8 n → CArray (Option ℕ) pathMax → ℕ →
    Checked Errno (ℕ × CArray UInt8 n × CArray (Option ℕ) pathMax)
  | room + 1, some token, save, temp, components, compCount => do
    let components ← components.store compCount [some token]
    let (token, save, temp) ← strtokIn temp save
    splitLoopIn room token save temp components (compCount + 1)
  | _, _, _, temp, components, compCount => return (compCount, temp, components)

/-- `splitPath` on arrays. -/
def splitPathIn (tempPath : CArray UInt8 (pathMax * 2)) (components : CArray (Option ℕ) pathMax)
    (userControlPath : CString) :
    Checked Errno (ℕ × CArray UInt8 (pathMax * 2) × CArray (Option ℕ) pathMax) :=
  if pathMax * 2 ≤ userControlPath.bytes.length then .error .enametoolong
  else do
    let tempPath ← strcpyTo tempPath userControlPath
    let (token, save, tempPath) ← strtokIn tempPath 0
    let (compCount, tempPath, components) ←
      splitLoopIn (pathMax - 1) token save tempPath components 0
    let components ← components.store compCount [none]
    return (compCount, tempPath, components)

/-- The string `"/"`. -/
def slashText : CString := ⟨[slash], by decide⟩

/-- A separator behind a string of `len` characters, if there is none. -/
def addSlashIn {n : ℕ} (a : CArray UInt8 n) (len : ℕ) : Checked Errno (CArray UInt8 n) :=
  if 0 < len then do
    if (← a.get (len - 1)) ≠ slash then strcatTo a slashText else return a
  else return a

/-- `walkStep` on arrays. -/
def walkStepIn (realFtpRoot : CArray UInt8 pathMax) (resultPath : CArray UInt8 (pathMax * 2))
    (comp : CString) : Checked Errno (CArray UInt8 (pathMax * 2)) :=
  if comp.bytes = dot then return resultPath
  else if comp.bytes = dotDot then do
    let root ← stringAt realFtpRoot 0
    let result ← stringAt resultPath 0
    if ¬ root.bytes <+: result.bytes then .error .eacces
    else
      match strrchr slash result.bytes with
      | none => return resultPath
      | some lastSlash =>
        if root.bytes.length < lastSlash then resultPath.store lastSlash [0]
        else if root.bytes.length < result.bytes.length then
          resultPath.store root.bytes.length [0]
        else return resultPath
  else do
    let currentLen := (← stringAt resultPath 0).bytes.length
    if pathMax * 2 ≤ currentLen + comp.bytes.length + 2 then .error .enametoolong
    else do
      let resultPath ← addSlashIn resultPath currentLen
      strcatTo resultPath comp

/-- The loop over the components, of which `left` are left, from the one at `i` on. -/
def walkLoopIn (realFtpRoot : CArray UInt8 pathMax) (tempPath : CArray UInt8 (pathMax * 2))
    (components : CArray (Option ℕ) pathMax) :
    ℕ → ℕ → CArray UInt8 (pathMax * 2) → Checked Errno (CArray UInt8 (pathMax * 2))
  | 0, _, resultPath => return resultPath
  | left + 1, i, resultPath => do
    match ← components.get i with
    | none => .overrun
    | some comp =>
      let comp ← stringAt tempPath comp
      let resultPath ← walkStepIn realFtpRoot resultPath comp
      walkLoopIn realFtpRoot tempPath components left (i + 1) resultPath

/-- `walk` on arrays. -/
def walkIn (realFtpRoot basePath : CArray UInt8 pathMax) (tempPath : CArray UInt8 (pathMax * 2))
    (components : CArray (Option ℕ) pathMax) (compCount : ℕ)
    (resultPath : CArray UInt8 (pathMax * 2)) : Checked Errno (CArray UInt8 (pathMax * 2)) := do
  let base ← stringAt basePath 0
  if pathMax * 2 ≤ base.bytes.length then .error .enametoolong
  else do
    let resultPath ← strcpyTo resultPath base
    walkLoopIn realFtpRoot tempPath components compCount 0 resultPath

/-- `finalPath` on arrays.  What a call of `realpath()` that fails leaves in the array is
overwritten. -/
def finalPathIn (finalPath : CArray UInt8 pathMax) (realpath : Realpath)
    (resultPath : CArray UInt8 (pathMax * 2)) : Checked Errno (CArray UInt8 pathMax) := do
  let result ← stringAt resultPath 0
  match realpath 2 result.bytes with
  | some realRes => strcpyTo finalPath realRes
  | none =>
    if pathMax ≤ result.bytes.length then .error .enametoolong else strcpyTo finalPath result

/-- `finish` on arrays.  The array of the caller is touched by the last statement only. -/
def finishIn {outputSz : ℕ} (finalPath realFtpRoot : CArray UInt8 pathMax) (realpath : Realpath)
    (resultPath : CArray UInt8 (pathMax * 2)) (output : CArray UInt8 outputSz) :
    Checked Errno (CArray UInt8 outputSz) := do
  let root ← stringAt realFtpRoot 0
  let result ← stringAt resultPath 0
  if ¬ root.bytes <+: result.bytes then .error .eacces
  else do
    let finalPath ← finalPathIn finalPath realpath resultPath
    let final ← stringAt finalPath 0
    if ¬ root.bytes <+: final.bytes then .error .eacces
    else if outputSz ≤ final.bytes.length then .error .enametoolong
    else strcpyTo output final

/-- The body of the function: the array of the caller after a call that returns 0. -/
def resolveIn {outputSz : ℕ} (arrays : ResolveArrays) (realpath : Realpath)
    (ftpRoot currentPath userControlPath : CString) (output : CArray UInt8 outputSz) :
    Checked Errno (CArray UInt8 outputSz) :=
  if outputSz = 0 then .error .einval
  else do
    let (realFtpRoot, realCurrentPath) ← checkPathsIn arrays realpath ftpRoot currentPath
    let basePath ← basePathIn arrays.basePath realFtpRoot realCurrentPath userControlPath
    let (compCount, tempPath, components) ←
      splitPathIn arrays.tempPath arrays.components userControlPath
    let resultPath ←
      walkIn realFtpRoot basePath tempPath components compCount arrays.resultPath
    finishIn arrays.finalPath realFtpRoot realpath resultPath output

/-- `luftpd_resolve_path()`: its result and the array of the caller, unless an access is outside. -/
def luftpdResolvePathBuffers {outputSz : ℕ} (arrays : ResolveArrays) (realpath : Realpath)
    (ftpRoot currentPath userControlPath : CString) (output : CArray UInt8 outputSz) :
    Option (ℤ × CArray UInt8 outputSz) :=
  match resolveIn arrays realpath ftpRoot currentPath userControlPath output with
  | .overrun => none
  | .error _ => some (-1, output)
  | .ok output => some (0, output)

/-! ## What is computed -/

/-- The answer of a call of `realpath()` that has to succeed. -/
def answered (answer : Option CString) : Except Errno Bytes :=
  match answer with
  | none => .error .realpath
  | some real => .ok real.bytes

/-- `checkPaths`, for any answers of `realpath()`. -/
def checkPathsWith (realpath : Realpath) (ftpRoot currentPath : Bytes) :
    Except Errno (Bytes × Bytes) :=
  if ftpRoot.head? ≠ some slash then .error .einval
  else if pathMax ≤ ftpRoot.length then .error .enametoolong
  else do
    let realFtpRoot ← answered (realpath 0 (stripSlash ftpRoot))
    let realCurrentPath ← answered (realpath 1 currentPath)
    if ¬ realFtpRoot <+: realCurrentPath then .error .eacces
    else if realFtpRoot.length < realCurrentPath.length ∧
        realCurrentPath[realFtpRoot.length]? ≠ some slash then .error .eacces
    else .ok (realFtpRoot, realCurrentPath)

/-- `finalPath`, for any answers of `realpath()`. -/
def finalPathWith (realpath : Realpath) (resultPath : Bytes) : Except Errno Bytes :=
  match realpath 2 resultPath with
  | some realRes => .ok realRes.bytes
  | none => if pathMax ≤ resultPath.length then .error .enametoolong else .ok resultPath

/-- `finish`, for any answers of `realpath()`. -/
def finishWith (realpath : Realpath) (realFtpRoot resultPath : Bytes) (outputSz : ℕ) :
    Except Errno Bytes :=
  if ¬ realFtpRoot <+: resultPath then .error .eacces
  else do
    let final ← finalPathWith realpath resultPath
    if ¬ realFtpRoot <+: final then .error .eacces
    else if outputSz ≤ final.length then .error .enametoolong
    else .ok final

/-- `luftpdResolvePath`, for any answers of `realpath()`. -/
def resolveWith (realpath : Realpath) (ftpRoot currentPath userControlPath : Bytes)
    (outputSz : ℕ) : Except Errno Bytes :=
  if outputSz = 0 then .error .einval
  else do
    let (realFtpRoot, realCurrentPath) ← checkPathsWith realpath ftpRoot currentPath
    let base ← basePath realFtpRoot realCurrentPath userControlPath
    let components ← splitPath userControlPath
    let resultPath ← walk realFtpRoot base components
    finishWith realpath realFtpRoot resultPath outputSz

/-- The answers are those of a file system, call by call. -/
def Realpath.Of (realpath : Realpath) (fs : FileSystem) : Prop :=
  ∀ k p, (realpath k p).map CString.bytes = (fs.realpath p).map HostPath.text

theorem Realpath.Of.answered {realpath : Realpath} {fs : FileSystem} (h : realpath.Of fs) (k : ℕ)
    (p : Bytes) :
    answered (realpath k p) = match fs.realpath p with
      | none => .error .realpath
      | some q => .ok q.text := by
  have hk := h k p
  cases hfs : fs.realpath p with
  | none =>
    rw [hfs, Option.map_none, Option.map_eq_none_iff] at hk
    rw [hk]
    rfl
  | some q =>
    rw [hfs, Option.map_some, Option.map_eq_some_iff] at hk
    obtain ⟨real, hreal, htext⟩ := hk
    rw [hreal]
    exact congrArg Except.ok htext

theorem checkPathsWith_fileSystem {realpath : Realpath} {fs : FileSystem} (h : realpath.Of fs)
    (ftpRoot currentPath : Bytes) :
    checkPathsWith realpath ftpRoot currentPath = checkPaths fs ftpRoot currentPath := by
  rw [checkPathsWith, checkPaths, h.answered, h.answered]
  cases fs.realpath (stripSlash ftpRoot) with
  | none => rfl
  | some root =>
    cases fs.realpath currentPath with
    | none => rfl
    | some current => rfl

theorem finalPathWith_fileSystem {realpath : Realpath} {fs : FileSystem} (h : realpath.Of fs)
    (resultPath : Bytes) : finalPathWith realpath resultPath = finalPath fs resultPath := by
  have hanswer := h.answered 2 resultPath
  rw [finalPathWith, finalPath]
  cases hreal : realpath 2 resultPath with
  | none =>
    cases hfs : fs.realpath resultPath with
    | none => rfl
    | some q =>
      rw [hreal, hfs] at hanswer
      cases hanswer
  | some real =>
    cases hfs : fs.realpath resultPath with
    | none =>
      rw [hreal, hfs] at hanswer
      cases hanswer
    | some q =>
      rw [hreal, hfs] at hanswer
      exact hanswer

/-- **With the answers of a file system it is `luftpdResolvePath`.** -/
theorem resolveWith_fileSystem {realpath : Realpath} {fs : FileSystem} (h : realpath.Of fs)
    (ftpRoot currentPath userControlPath : Bytes) (outputSz : ℕ) :
    resolveWith realpath ftpRoot currentPath userControlPath outputSz
      = luftpdResolvePath fs ftpRoot currentPath userControlPath outputSz := by
  have hfinish : finishWith realpath = finish fs := by
    funext realFtpRoot resultPath outputSz
    rw [finishWith, finish, finalPathWith_fileSystem h]
  rw [resolveWith, luftpdResolvePath, checkPathsWith_fileSystem h, hfinish]

/-! ## Separators at the end of a string -/

/-- **A string without the `/` at its end.** -/
theorem stripSlashIn_holds {n : ℕ} {a : CArray UInt8 n} {s : Bytes} (h : Holds a s) :
    ∃ a', stripSlashIn a s.length = .ok a' ∧ Holds a' (stripSlash s) := by
  rw [stripSlashIn, stripSlash]
  by_cases hlong : 1 < s.length
  · obtain ⟨x, hx, hget⟩ := h.get_last (Nat.zero_lt_of_lt hlong)
    rw [if_pos hlong, Checked.bind_of_eq_ok hget, hx]
    by_cases hslash : x = slash
    · rw [if_pos hslash, if_pos ⟨hlong, congrArg some hslash⟩, List.dropLast_eq_take]
      exact h.cut (Nat.sub_le _ 1)
    · rw [if_neg hslash, if_neg fun hs => hslash (Option.some.inj hs.2)]
      exact ⟨a, rfl, h⟩
  · rw [if_neg hlong, if_neg fun hs => hlong hs.1]
    exact ⟨a, rfl, h⟩

/-- **A string with a `/` at its end.** -/
theorem addSlashIn_holds {n : ℕ} {a : CArray UInt8 n} {s : Bytes} (h : Holds a s)
    (hroom : s.length + 1 < n) :
    ∃ a', addSlashIn a s.length = .ok a' ∧
      Holds a' (if 0 < s.length ∧ s.getLast? ≠ some slash then s ++ [slash] else s) := by
  rw [addSlashIn]
  by_cases hs : 0 < s.length
  · obtain ⟨x, hx, hget⟩ := h.get_last hs
    rw [if_pos hs, Checked.bind_of_eq_ok hget, hx]
    by_cases hslash : x = slash
    · rw [if_neg (not_not.2 hslash), if_neg fun hadd => hadd.2 (congrArg some hslash)]
      exact ⟨a, rfl, h⟩
    · rw [if_pos hslash, if_pos ⟨hs, fun hadd => hslash (Option.some.inj hadd)⟩]
      exact strcatTo_holds h slashText hroom
  · rw [if_neg hs, if_neg fun hadd => hs hadd.1]
    exact ⟨a, rfl, h⟩

/-! ## The components -/

/-- What a call of `strtok` has found, and what it leaves alone. -/
structure TokenIn {n : ℕ} (a a' : CArray UInt8 n) (save ptr save' : ℕ) (token rest : Bytes) :
    Prop where
  found : HoldsAt a' ptr token
  left : HoldsAt a' save' rest
  later : save ≤ save'
  before : ptr + token.length ≤ save'
  /-- The zero is written behind the first character. -/
  frame : a.toList.take (save + 1) = a'.toList.take (save + 1)

theorem strtokIn_none {n : ℕ} {a : CArray UInt8 n} {save : ℕ} {s : Bytes} (h : HoldsAt a save s)
    (hs : strtok s = none) : ∃ save', strtokIn a save = .ok (none, save', a) := by
  rw [strtok] at hs
  rw [strtokIn, Checked.bind_of_eq_ok h.stringAt]
  by_cases hrest : s.dropWhile (· = slash) = []
  · exact ⟨_, if_pos hrest⟩
  · rw [if_neg hrest] at hs
    cases hs

/-- The pieces a call of `strtok` looks at. -/
theorem exists_pieces {s : Bytes} (h : s.dropWhile (· = slash) ≠ []) :
    ∃ seps token behind, s.takeWhile (· = slash) = seps ∧
      (s.dropWhile (· = slash)).takeWhile (· ≠ slash) = token ∧
      (s.dropWhile (· = slash)).dropWhile (· ≠ slash) = behind ∧
      s = seps ++ (token ++ behind) ∧ token ≠ [] ∧ Lexical.Cut slash behind := by
  refine ⟨_, _, _, rfl, rfl, rfl, ?_, ?_, Lexical.cut_dropWhile _⟩
  · rw [List.takeWhile_append_dropWhile, List.takeWhile_append_dropWhile]
  · have hhead := List.head_dropWhile_not (· = slash) h
    rw [← List.cons_head_tail h, List.takeWhile_cons_of_pos (by simpa using hhead)]
    exact List.cons_ne_nil _ _

section Token

variable {n : ℕ} {a a' : CArray UInt8 n} {front seps token behind tail : Bytes}

/-- The last token: nothing is written, and the next call is at the zero. -/
theorem tokenIn_last (hnul : 0 ∉ token) (h : a.toList = (front ++ seps ++ token) ++ 0 :: tail) :
    TokenIn a a front.length (front ++ seps).length (front ++ seps ++ token).length token [] where
  found := .of_append hnul (h.trans (List.append_assoc ..))
  left := .of_append List.not_mem_nil h
  later := by
    simp only [List.length_append]
    omega
  before := by rw [← List.length_append]
  frame := rfl

/-- A token with a separator behind it, which is overwritten. -/
theorem tokenIn_cut (hne : token ≠ []) (hnul : 0 ∉ token) (hbehind : 0 ∉ behind)
    (h : a.toList = (front ++ seps ++ token) ++ (slash :: behind ++ 0 :: tail))
    (h' : a'.toList = (front ++ seps ++ token) ++ [0] ++ (behind ++ 0 :: tail)) :
    TokenIn a a' front.length (front ++ seps).length ((front ++ seps ++ token).length + 1) token
      behind where
  found := by
    have hfound : a'.toList = (front ++ seps) ++ (token ++ 0 :: (behind ++ 0 :: tail)) := by
      rw [h', List.append_assoc, List.append_assoc _ token]
      rfl
    exact .of_append hnul hfound
  left := by
    have hend : (front ++ seps ++ token ++ [0]).length = (front ++ seps ++ token).length + 1 :=
      List.length_append
    exact hend ▸ .of_append hbehind h'
  later := by
    simp only [List.length_append]
    omega
  before := by
    simp only [List.length_append]
    omega
  frame := by
    have hpos : 0 < token.length := List.length_pos_iff.2 hne
    have hshort : front.length + 1 ≤ (front ++ seps ++ token).length := by
      simp only [List.length_append]
      omega
    rw [h, h', List.append_assoc _ [0], List.take_append_of_le_length hshort,
      List.take_append_of_le_length hshort]

end Token

/-- **A token is cut off.** -/
theorem strtokIn_some {n : ℕ} {a : CArray UInt8 n} {save : ℕ} {s token rest : Bytes}
    (h : HoldsAt a save s) (hs : strtok s = some (token, rest)) :
    ∃ ptr save' a', strtokIn a save = .ok (some ptr, save', a') ∧
      TokenIn a a' save ptr save' token rest := by
  rw [strtok] at hs
  rw [strtokIn, Checked.bind_of_eq_ok h.stringAt]
  by_cases hrest : s.dropWhile (· = slash) = []
  · rw [if_pos hrest] at hs
    cases hs
  · obtain ⟨seps, tok, behind, hseps, htok, hbehind, rfl, hne, hcut⟩ := exists_pieces hrest
    obtain ⟨front, tail, rfl, hlist⟩ := h.exists_append
    obtain ⟨hnul, hnul'⟩ : 0 ∉ tok ∧ 0 ∉ behind := by
      have := h.1
      simp only [List.mem_append, not_or] at this
      exact this.2
    rw [if_neg hrest, htok, hbehind, Option.some.injEq, Prod.mk.injEq] at hs
    obtain ⟨rfl, rfl⟩ := hs
    have hhere : a.toList = (front ++ seps ++ tok) ++ (behind ++ 0 :: tail) := by
      rw [hlist]
      simp only [List.append_assoc]
    dsimp only
    rw [if_neg hrest, htok, hseps, ← List.length_append, ← List.length_append]
    cases behind with
    | nil =>
      rw [Checked.bind_of_eq_ok (CArray.get_append hhere), if_pos rfl]
      exact ⟨_, _, a, rfl, tokenIn_last hnul hhere⟩
    | cons x behind =>
      obtain rfl : x = slash := hcut x rfl
      have hone : ([0] : Bytes).length ≤ (slash :: behind ++ 0 :: tail).length :=
        Nat.le_add_left 1 _
      obtain ⟨a', hstore, hlist'⟩ := CArray.store_append (ε := Errno) hhere hone
      rw [Checked.bind_of_eq_ok (CArray.get_append hhere), if_neg (by decide),
        Checked.bind_of_eq_ok hstore]
      exact ⟨_, _, a', rfl, tokenIn_cut hne hnul (fun h0 => hnul' (List.mem_cons_of_mem _ h0))
        hhere hlist'⟩

/-- The table starts with pointers to these strings, none of which reaches behind `last`. -/
def Entries {n : ℕ} (temp : CArray UInt8 n) (components : CArray (Option ℕ) pathMax) (last : ℕ)
    (comps : List Bytes) : Prop :=
  ∃ ptrs rest, components.toList = ptrs.map some ++ rest ∧
    List.Forall₂ (fun ptr comp => HoldsAt temp ptr comp ∧ ptr + comp.length ≤ last) ptrs comps

section Entries

variable {n : ℕ} {temp temp' : CArray UInt8 n} {components : CArray (Option ℕ) pathMax}
  {last : ℕ} {comps : List Bytes}

theorem entries_nil : Entries temp components last [] :=
  ⟨[], components.toList, rfl, .nil⟩

/-- The next token is cut off behind the strings that are in the table. -/
theorem Entries.mono (h : Entries temp components last comps) {last' : ℕ} (hlast : last ≤ last')
    (hframe : temp.toList.take (last + 1) = temp'.toList.take (last + 1)) :
    Entries temp' components last' comps := by
  obtain ⟨ptrs, rest, hlist, hholds⟩ := h
  refine ⟨ptrs, rest, hlist, hholds.imp fun ptr comp hcomp => ⟨?_, hcomp.2.trans hlast⟩⟩
  exact hcomp.1.of_take_eq hframe (Nat.lt_succ_of_le hcomp.2)

/-- **Writing an entry.** -/
theorem Entries.store (h : Entries temp components last comps) (hroom : comps.length < pathMax)
    (entry : Option ℕ) :
    ∃ components' : CArray (Option ℕ) pathMax,
      (components.store comps.length [entry] : Checked Errno _) = .ok components' ∧
      Entries temp components' last comps ∧
      ∀ ptr comp, entry = some ptr → HoldsAt temp ptr comp → ptr + comp.length ≤ last →
        Entries temp components' last (comps ++ [comp]) := by
  obtain ⟨ptrs, rest, hlist, hholds⟩ := h
  have hlen := components.length_eq
  rw [hlist, List.length_append, List.length_map, hholds.length_eq] at hlen
  have hone : [entry].length ≤ rest.length := by
    rw [List.length_singleton]
    omega
  obtain ⟨components', hstore, hlist'⟩ := CArray.store_append (ε := Errno) hlist hone
  rw [List.length_map, hholds.length_eq] at hstore
  refine ⟨components', hstore, ⟨ptrs, _, by rw [hlist', List.append_assoc], hholds⟩, ?_⟩
  rintro ptr comp rfl hcomp hbefore
  refine ⟨ptrs ++ [ptr], _, by rw [hlist', List.map_append, List.map_singleton], ?_⟩
  exact List.rel_append hholds (.cons ⟨hcomp, hbefore⟩ .nil)

/-- Reading an entry. -/
theorem Entries.get (h : Entries temp components last comps) {i : ℕ} {comp : Bytes}
    (hi : comps[i]? = some comp) :
    ∃ ptr, (components.get i : Checked Errno _) = .ok (some ptr) ∧ HoldsAt temp ptr comp := by
  obtain ⟨ptrs, rest, hlist, hholds⟩ := h
  obtain ⟨hlt, rfl⟩ := List.getElem?_eq_some_iff.1 hi
  have hlt' : i < ptrs.length := hholds.length_eq ▸ hlt
  have hentry : (ptrs.map some)[i]? = some (some ptrs[i]) := by
    rw [List.getElem?_map, List.getElem?_eq_getElem hlt']
    rfl
  exact ⟨ptrs[i], CArray.get_front hlist hentry, (hholds.get hlt' hlt).1⟩

end Entries

/-- **The table is filled** with the components that are left, as many as there is room for. -/
theorem splitLoopIn_entries {n : ℕ} (room : ℕ) {temp : CArray UInt8 n}
    {components : CArray (Option ℕ) pathMax} {save : ℕ} {s : Bytes} {done : List Bytes}
    (h : HoldsAt temp save s) (hdone : Entries temp components save done)
    (hroom : done.length + room < pathMax) :
    ∃ token save' cut, strtokIn temp save = .ok (token, save', cut) ∧
      ∃ temp' components' last,
        splitLoopIn room token save' cut components done.length
          = .ok ((done ++ splitLoop room s).length, temp', components') ∧
        Entries temp' components' last (done ++ splitLoop room s) := by
  induction room generalizing temp components save s done with
  | zero =>
    rw [splitLoop, List.append_nil]
    cases hs : strtok s with
    | none =>
      obtain ⟨save', hcut⟩ := strtokIn_none h hs
      exact ⟨none, save', temp, hcut, temp, components, save, rfl, hdone⟩
    | some tr =>
      -- the table is full: the token is cut off, but not entered
      obtain ⟨ptr, save', cut, hcut, htoken⟩ := strtokIn_some h hs
      exact ⟨some ptr, save', cut, hcut, cut, components, save', rfl,
        hdone.mono htoken.later htoken.frame⟩
  | succ room ih =>
    rw [splitLoop]
    cases hs : strtok s with
    | none =>
      obtain ⟨save', hcut⟩ := strtokIn_none h hs
      refine ⟨none, save', temp, hcut, temp, components, save, ?_, ?_⟩
      · dsimp only
        rw [List.append_nil]
        rfl
      · simpa using hdone
    | some tr =>
      obtain ⟨token, rest⟩ := tr
      obtain ⟨ptr, save', cut, hcut, htoken⟩ := strtokIn_some h hs
      obtain ⟨components', hstore, -, hpush⟩ := (hdone.mono htoken.later htoken.frame).store
        (Nat.lt_of_add_right_lt hroom) (some ptr)
      have hpushed := hpush ptr token rfl htoken.found htoken.before
      obtain ⟨next, save'', cut', hcut', hloop⟩ := ih htoken.left hpushed
        (by rw [List.length_append, List.length_singleton]; omega)
      rw [List.length_append, List.length_singleton] at hloop
      refine ⟨some ptr, save', cut, hcut, ?_⟩
      rw [splitLoopIn, Checked.bind_of_eq_ok hstore, Checked.bind_of_eq_ok hcut']
      simpa only [List.append_assoc, List.singleton_append] using hloop

theorem length_splitLoop_le (room : ℕ) (s : Bytes) : (splitLoop room s).length ≤ room := by
  rw [splitLoop_eq]
  exact List.length_take_le _ _

/-- The table holds what `splitPath` says. -/
theorem splitPathIn_refines (tempPath : CArray UInt8 (pathMax * 2))
    (components : CArray (Option ℕ) pathMax) (userControlPath : CString) :
    Checked.Refines (fun split comps => split.1 = comps.length ∧
        ∃ last, Entries split.2.1 split.2.2 last comps)
      (splitPathIn tempPath components userControlPath) (splitPath userControlPath.bytes) := by
  rw [splitPathIn, splitPath]
  refine .ite (fun _ => .error _) fun hshort => ?_
  obtain ⟨copied, hcopy, hholds⟩ := strcpyTo_holds (ε := Errno) tempPath userControlPath
    (Nat.lt_of_not_le hshort)
  have hroom : ([] : List Bytes).length + (pathMax - 1) < pathMax := by decide
  obtain ⟨token, save, cut, hcut, temp, table, last, hloop, htable⟩ :=
    splitLoopIn_entries (pathMax - 1) hholds entries_nil hroom
  have hfull := length_splitLoop_le (pathMax - 1) userControlPath.bytes
  obtain ⟨ended, hend, hentries, -⟩ := htable.store (Nat.lt_of_le_pred (by decide) hfull) none
  refine .access hcopy (.access hcut (.access hloop (.access hend ?_)))
  exact .ok ⟨rfl, last, hentries⟩

/-! ## The walk -/

theorem walkStepIn_refines {realFtpRoot : CArray UInt8 pathMax}
    {resultPath : CArray UInt8 (pathMax * 2)} {root result : Bytes} (hroot : Holds realFtpRoot root)
    (hresult : Holds resultPath result) (comp : CString) :
    Checked.Refines Holds (walkStepIn realFtpRoot resultPath comp)
      (walkStep root result comp.bytes) := by
  rw [walkStepIn, walkStep]
  refine .ite (fun _ => .ok hresult) fun _ => .ite (fun _ => ?_) fun _ => ?_
  · refine .access hroot.stringAt (.access hresult.stringAt ?_)
    refine .ite (fun _ => .error _) fun _ => ?_
    cases hslash : strrchr slash result with
    | none => exact .ok hresult
    | some lastSlash =>
      have hcut (i : ℕ) (hi : i ≤ result.length) : Checked.Refines Holds
          (resultPath.store i [0]) (.ok (result.take i) : Except Errno _) := by
        obtain ⟨cut, hstore, hholds⟩ := hresult.cut (ε := Errno) hi
        exact .of_eq_ok hstore hholds
      exact .ite (fun _ => hcut lastSlash (strrchr_lt hslash).le) fun _ =>
        .ite (fun hlong => hcut root.length hlong.le) fun _ => .ok hresult
  · -- the test leaves room for the separator, the component and the zero
    refine .access hresult.stringAt (.ite (fun _ => .error _) fun hlong => ?_)
    have hroom : result.length + comp.bytes.length + 2 < pathMax * 2 := Nat.lt_of_not_le hlong
    obtain ⟨ended, hadd, hended⟩ := addSlashIn_holds hresult (by omega)
    refine .access hadd ?_
    by_cases hslash : 0 < result.length ∧ result.getLast? ≠ some slash
    · rw [if_pos hslash] at hended ⊢
      have hfit : (result ++ [slash]).length + comp.bytes.length < pathMax * 2 := by
        rw [List.length_append, List.length_singleton]
        omega
      obtain ⟨joined, hjoin, hholds⟩ := strcatTo_holds (ε := Errno) hended comp hfit
      exact .of_eq_ok hjoin hholds
    · rw [if_neg hslash] at hended ⊢
      obtain ⟨joined, hjoin, hholds⟩ := strcatTo_holds (ε := Errno) hended comp (by omega)
      exact .of_eq_ok hjoin hholds

/-- **The loop**, from the component at `i` on. -/
theorem walkLoopIn_refines {realFtpRoot : CArray UInt8 pathMax}
    {tempPath : CArray UInt8 (pathMax * 2)} {components : CArray (Option ℕ) pathMax} {last : ℕ}
    {root : Bytes} {comps : List Bytes} (hroot : Holds realFtpRoot root)
    (hentries : Entries tempPath components last comps) {left : List Bytes} {i : ℕ}
    (hleft : comps.drop i = left) {resultPath : CArray UInt8 (pathMax * 2)} {result : Bytes}
    (hresult : Holds resultPath result) :
    Checked.Refines Holds
      (walkLoopIn realFtpRoot tempPath components left.length i resultPath)
      (left.foldlM (walkStep root) result) := by
  induction left generalizing i resultPath result with
  | nil => exact .ok hresult
  | cons comp left ih =>
    have hi : comps[i]? = some comp := by
      rw [← List.head?_drop, hleft]
      rfl
    have hnext : comps.drop (i + 1) = left := by rw [← List.tail_drop, hleft, List.tail_cons]
    obtain ⟨ptr, hget, hholds⟩ := hentries.get hi
    rw [List.length_cons, walkLoopIn, List.foldlM_cons]
    refine .access hget (.access hholds.stringAt ?_)
    exact .bind (walkStepIn_refines hroot hresult _) fun stepped result' hstepped =>
      ih hnext hstepped

theorem walkIn_refines {realFtpRoot basePath : CArray UInt8 pathMax}
    {tempPath : CArray UInt8 (pathMax * 2)} {components : CArray (Option ℕ) pathMax} {last : ℕ}
    {root base : Bytes} {comps : List Bytes} (hroot : Holds realFtpRoot root)
    (hbase : Holds basePath base) (hentries : Entries tempPath components last comps)
    (resultPath : CArray UInt8 (pathMax * 2)) :
    Checked.Refines Holds
      (walkIn realFtpRoot basePath tempPath components comps.length resultPath)
      (walk root base comps) := by
  rw [walkIn, walk]
  refine .access hbase.stringAt (.ite (fun _ => .error _) fun hshort => ?_)
  obtain ⟨copied, hcopy, hholds⟩ := strcpyTo_holds (ε := Errno) resultPath ⟨base, hbase.1⟩
    (Nat.lt_of_not_le hshort)
  exact .access hcopy (walkLoopIn_refines hroot hentries List.drop_zero hholds)

/-! ## The whole function -/

/-- What is documented of the answers of `realpath()`: they fit into a buffer of `PATH_MAX`
bytes. -/
def Realpath.Short (realpath : Realpath) : Prop :=
  ∀ k p real, realpath k p = some real → real.bytes.length < pathMax

theorem realpathTo_refines (resolved : CArray UInt8 pathMax) {answer : Option CString}
    (h : ∀ real, answer = some real → real.bytes.length < pathMax) :
    Checked.Refines Holds (realpathTo resolved answer) (answered answer) := by
  cases answer with
  | none => exact .error _
  | some real => exact strcpyTo_refines resolved real (h real rfl)

theorem checkPathsIn_refines (arrays : ResolveArrays) {realpath : Realpath} (h : realpath.Short)
    (ftpRoot currentPath : CString) :
    Checked.Refines (fun a s => Holds a.1 s.1 ∧ Holds a.2 s.2)
      (checkPathsIn arrays realpath ftpRoot currentPath)
      (checkPathsWith realpath ftpRoot.bytes currentPath.bytes) := by
  rw [checkPathsIn, checkPathsWith]
  refine .ite (fun _ => .error _) fun _ => .ite (fun _ => .error _) fun hshort => ?_
  obtain ⟨copied, ended, hcopy, hend, hended⟩ := strncpyTo_holds (ε := Errno)
    arrays.normalizedFtpRoot ftpRoot (Nat.lt_of_not_le hshort)
  obtain ⟨stripped, hstrip, hstripped⟩ := stripSlashIn_holds hended
  refine .access hcopy (.access hend (.access hstrip (.access hstripped.stringAt ?_)))
  refine .bind (realpathTo_refines _ (h 0 _)) fun realFtpRoot root hroot => ?_
  refine .bind (realpathTo_refines _ (h 1 _)) fun realCurrentPath current hcurrent => ?_
  refine .access hroot.stringAt (.access hcurrent.stringAt ?_)
  refine .ite (fun _ => .error _) fun _ => ?_
  dsimp only
  by_cases hlong : root.length < current.length
  · have hget : (realCurrentPath.get root.length : Checked Errno _) = .ok current[root.length] :=
      hcurrent.get (List.getElem?_eq_getElem hlong)
    rw [if_pos hlong, List.getElem?_eq_getElem hlong]
    refine .access hget ?_
    by_cases hslash : current[root.length] = slash
    · rw [if_neg (not_not.2 hslash), if_neg fun hs => hs.2 (congrArg some hslash)]
      exact .ok ⟨hroot, hcurrent⟩
    · rw [if_pos hslash, if_pos ⟨hlong, fun hs => hslash (Option.some.inj hs)⟩]
      exact .error _
  · rw [if_neg hlong, if_neg fun hs => hlong hs.1]
    exact .ok ⟨hroot, hcurrent⟩

theorem basePathIn_refines (basePath' : CArray UInt8 pathMax)
    {realFtpRoot realCurrentPath : CArray UInt8 pathMax} {root current : Bytes}
    (hroot : Holds realFtpRoot root) (hcurrent : Holds realCurrentPath current)
    (userControlPath : CString) :
    Checked.Refines Holds (basePathIn basePath' realFtpRoot realCurrentPath userControlPath)
      (basePath root current userControlPath.bytes) := by
  have hbase : Holds
      (if userControlPath.bytes.head? = some slash then realFtpRoot else realCurrentPath)
      (if userControlPath.bytes.head? = some slash then root else current) := by
    split
    · exact hroot
    · exact hcurrent
  rw [basePathIn, basePath]
  refine .access hbase.stringAt (.ite (fun _ => .error _) fun hshort => ?_)
  obtain ⟨copied, hcopy, hholds⟩ := strcpyTo_holds (ε := Errno) basePath' ⟨_, hbase.1⟩
    (Nat.lt_of_not_le hshort)
  obtain ⟨stripped, hstrip, hstripped⟩ := stripSlashIn_holds hholds
  exact .access hcopy (.access hholds.stringAt (.of_eq_ok hstrip hstripped))

theorem finalPathIn_refines (finalPath' : CArray UInt8 pathMax) {realpath : Realpath}
    (h : realpath.Short) {resultPath : CArray UInt8 (pathMax * 2)} {result : Bytes}
    (hresult : Holds resultPath result) :
    Checked.Refines Holds (finalPathIn finalPath' realpath resultPath)
      (finalPathWith realpath result) := by
  rw [finalPathIn, finalPathWith]
  refine .access hresult.stringAt ?_
  dsimp only
  cases hreal : realpath 2 result with
  | some real => exact strcpyTo_refines finalPath' real (h 2 result real hreal)
  | none =>
    refine .ite (fun _ => .error _) fun hshort => ?_
    exact strcpyTo_refines finalPath' ⟨result, hresult.1⟩ (Nat.lt_of_not_le hshort)

theorem finishIn_refines {outputSz : ℕ} (finalPath' : CArray UInt8 pathMax)
    {realFtpRoot : CArray UInt8 pathMax} {realpath : Realpath} (h : realpath.Short)
    {resultPath : CArray UInt8 (pathMax * 2)} {root result : Bytes}
    (hroot : Holds realFtpRoot root) (hresult : Holds resultPath result)
    (output : CArray UInt8 outputSz) :
    Checked.Refines Holds (finishIn finalPath' realFtpRoot realpath resultPath output)
      (finishWith realpath root result outputSz) := by
  rw [finishIn, finishWith]
  refine .access hroot.stringAt (.access hresult.stringAt (.ite (fun _ => .error _) fun _ => ?_))
  refine .bind (finalPathIn_refines finalPath' h hresult) fun resolved final hfinal => ?_
  refine .access hfinal.stringAt (.ite (fun _ => .error _) fun _ => ?_)
  refine .ite (fun _ => .error _) fun hshort => ?_
  exact strcpyTo_refines output ⟨final, hfinal.1⟩ (Nat.lt_of_not_le hshort)

/-- **The arrays are used to compute the path, and no access is outside.** -/
theorem resolveIn_refines {outputSz : ℕ} (arrays : ResolveArrays) {realpath : Realpath}
    (h : realpath.Short) (ftpRoot currentPath userControlPath : CString)
    (output : CArray UInt8 outputSz) :
    Checked.Refines Holds
      (resolveIn arrays realpath ftpRoot currentPath userControlPath output)
      (resolveWith realpath ftpRoot.bytes currentPath.bytes userControlPath.bytes outputSz) := by
  rw [resolveIn, resolveWith]
  refine .ite (fun _ => .error _) fun _ => ?_
  refine .bind (checkPathsIn_refines arrays h ftpRoot currentPath) ?_
  rintro ⟨realFtpRoot, realCurrentPath⟩ ⟨root, current⟩ ⟨hroot, hcurrent⟩
  refine .bind (basePathIn_refines arrays.basePath hroot hcurrent userControlPath)
    fun basePath base hbase => ?_
  refine .bind (splitPathIn_refines arrays.tempPath arrays.components userControlPath) ?_
  rintro ⟨compCount, tempPath, components⟩ comps ⟨rfl, last, hentries⟩
  refine .bind (walkIn_refines hroot hbase hentries arrays.resultPath)
    fun resultPath result hresult => ?_
  exact finishIn_refines arrays.finalPath h hroot hresult output

/-- **No access of the function is outside its arrays**: it returns -1 and leaves the array of the
caller alone, or it returns 0 with a string in that array. -/
theorem resolvePathBuffers_inside {outputSz : ℕ} (arrays : ResolveArrays) (realpath : Realpath)
    (h : realpath.Short) (ftpRoot currentPath userControlPath : CString)
    (output : CArray UInt8 outputSz) :
    ∃ ret output', luftpdResolvePathBuffers arrays realpath ftpRoot currentPath userControlPath
        output = some (ret, output') ∧
      (ret = -1 ∧ output' = output ∨
        ret = 0 ∧ Terminated output' ∧ (cText output').length < outputSz) := by
  have hrefines := resolveIn_refines arrays h ftpRoot currentPath userControlPath output
  rw [luftpdResolvePathBuffers]
  generalize resolveIn arrays realpath ftpRoot currentPath userControlPath output = r at hrefines ⊢
  generalize resolveWith realpath ftpRoot.bytes currentPath.bytes userControlPath.bytes outputSz = s
    at hrefines
  cases hrefines with
  | error e => exact ⟨-1, output, rfl, .inl ⟨rfl, rfl⟩⟩
  | ok hholds =>
    obtain ⟨hterm, htext⟩ := hholds.terminated
    have hlen := hholds.length_lt
    rw [Nat.zero_add, ← htext] at hlen
    exact ⟨0, _, rfl, .inr ⟨rfl, hterm, hlen⟩⟩

/-- Arrays in which nothing has been written yet. -/
def ResolveArrays.blank : ResolveArrays where
  normalizedFtpRoot := .fill _ 0xFF
  realFtpRoot := .fill _ 0xFF
  realCurrentPath := .fill _ 0xFF
  basePath := .fill _ 0xFF
  tempPath := .fill _ 0xFF
  components := .fill _ none
  resultPath := .fill _ 0xFF
  finalPath := .fill _ 0xFF

/-- A directory of a server, and a path below it that goes up once. -/
def srvText : CString := ⟨textBytes "/srv/ftp", by decide⟩

def docsText : CString := ⟨textBytes "pub/../docs/", by decide⟩

/-- `pub/../docs/` below `/srv/ftp`, where `realpath()` knows the directory itself and nothing in
it. -/
theorem resolvePathBuffers_inside_docs :
    ∃ output', luftpdResolvePathBuffers .blank (fun k _ => if k = 2 then none else some srvText)
        srvText srvText docsText (CArray.fill 32 0xFF) = some (0, output') ∧
      Terminated output' ∧ (cText output').length < 32 := by
  let realpath : Realpath := fun k _ => if k = 2 then none else some srvText
  have hshort : realpath.Short := by
    rintro k p real hreal
    have hreal' : (if k = 2 then none else some srvText) = some real := hreal
    split_ifs at hreal'
    obtain rfl := Option.some.inj hreal'
    decide
  obtain ⟨ret, output', hrun, ⟨rfl, -⟩ | ⟨rfl, hend⟩⟩ := resolvePathBuffers_inside .blank realpath
    hshort srvText srvText docsText (CArray.fill 32 0xFF)
  · -- the path is found
    have hfound : resolveWith realpath srvText.bytes srvText.bytes docsText.bytes 32
        = .ok (textBytes "/srv/ftp/docs") := by decide +kernel
    have hrefines := resolveIn_refines .blank hshort srvText srvText docsText (CArray.fill 32 0xFF)
    rw [hfound] at hrefines
    rw [luftpdResolvePathBuffers] at hrun
    generalize resolveIn .blank realpath srvText srvText docsText (CArray.fill 32 0xFF) = r
      at hrun hrefines
    cases hrefines
    cases hrun
  · exact ⟨output', hrun, hend⟩

/-- With the answers of a file system, the result is that of `luftpdResolvePath`. -/
theorem resolvePathBuffers_fileSystem {outputSz : ℕ} (arrays : ResolveArrays) {realpath : Realpath}
    {fs : FileSystem} (hof : realpath.Of fs) (hfs : fs.Lawful)
    (ftpRoot currentPath userControlPath : CString) (output : CArray UInt8 outputSz) :
    match luftpdResolvePath fs ftpRoot.bytes currentPath.bytes userControlPath.bytes outputSz with
    | .error _ => luftpdResolvePathBuffers arrays realpath ftpRoot currentPath userControlPath
        output = some (-1, output)
    | .ok out => ∃ output', luftpdResolvePathBuffers arrays realpath ftpRoot currentPath
        userControlPath output = some (0, output') ∧ Holds output' out := by
  have hshort : realpath.Short := by
    intro k p real hreal
    have hk := hof k p
    rw [hreal, Option.map_some] at hk
    obtain ⟨q, hq, htext⟩ := Option.map_eq_some_iff.1 hk.symm
    exact htext ▸ hfs.short p q hq
  have hrefines := resolveIn_refines arrays hshort ftpRoot currentPath userControlPath output
  rw [resolveWith_fileSystem hof] at hrefines
  rw [luftpdResolvePathBuffers]
  generalize resolveIn arrays realpath ftpRoot currentPath userControlPath output = r at hrefines ⊢
  generalize luftpdResolvePath fs ftpRoot.bytes currentPath.bytes userControlPath.bytes outputSz = s
    at hrefines ⊢
  cases hrefines with
  | error e => rfl
  | ok hholds => exact ⟨_, rfl, hholds⟩

end Lucp.Luftpd
