import Lucp.ByteOrder
import Lucp.General.Lexical

/-!
# The FTP server's paths: `luftpd_resolve_path`

`luftpd_utils.c` turns what a client types into a path of the host in one long function: it looks up
the root and the current path, picks one of them as the base, splits the client's path at `/`, walks
the components on a string, and looks the result up.  It is cut here at the places where the source
has its comments, and put together in `luftpdResolvePath`.  A C string is the list of its bytes
without the terminator; the tests with `strncmp(s, r, strlen(r))` are prefix tests.  The `NULL`
arguments have no counterpart.

What the host's file system knows is `FileSystem`: the function `realpath()`, whose results are
`HostPath`s.  A result is canonical by construction, and symbolic links may lead anywhere; what else
is documented of `realpath()` is `FileSystem.Lawful`.
-/

set_option autoImplicit false

namespace Lucp.Luftpd

/-! ## Paths of the host -/

/-- The separator of path names. -/
def slash : UInt8 := 0x2F

/-- The name of the same directory. -/
def dot : Bytes := [0x2E]

/-- The name of the directory above. -/
def dotDot : Bytes := [0x2E, 0x2E]

/-- `PATH_MAX`. -/
def pathMax : ℕ := 4096

/-- A name an entry of a directory can have. -/
def FileName (n : Bytes) : Prop := Lexical.IsName slash n ∧ n ≠ dot ∧ n ≠ dotDot

instance (n : Bytes) : Decidable (FileName n) :=
  inferInstanceAs (Decidable ((n ≠ [] ∧ slash ∉ n) ∧ n ≠ dot ∧ n ≠ dotDot))

/-- A canonical absolute path. -/
@[ext]
structure HostPath where
  names : List Bytes
  valid : ∀ n ∈ names, FileName n
  deriving DecidableEq

namespace HostPath

/-- The path as a string. -/
def text (p : HostPath) : Bytes := Lexical.text slash p.names

theorem isName (p : HostPath) : ∀ n ∈ p.names, Lexical.IsName slash n :=
  fun n hn => (p.valid n hn).1

/-- The path of the root of the host. -/
def root : HostPath := ⟨[], by simp⟩

/-- An entry of a directory. -/
def push (p : HostPath) (n : Bytes) (h : FileName n) : HostPath :=
  ⟨p.names ++ [n], fun m hm => (List.mem_append.1 hm).elim (p.valid m) fun hm => by
    rw [List.mem_singleton.1 hm]; exact h⟩

/-- The directory above. -/
def parent (p : HostPath) : HostPath :=
  ⟨p.names.dropLast, fun m hm => p.valid m (List.mem_of_mem_dropLast hm)⟩

/-- `q` is `p` or below it. -/
def Contains (p q : HostPath) : Prop := p.names <+: q.names

instance (p q : HostPath) : Decidable (p.Contains q) :=
  inferInstanceAs (Decidable (p.names <+: q.names))

theorem text_injective {p q : HostPath} (h : p.text = q.text) : p = q :=
  HostPath.ext (Lexical.text_injective p.isName q.isName h)

/-- Containment, seen on the strings. -/
theorem inside_iff (p q : HostPath) : Lexical.Inside slash p.text q.text ↔ p.Contains q :=
  Lexical.inside_text p.isName q.isName

end HostPath

/-- What `realpath()` knows: for a path name, the canonical path it leads to, if there is one. -/
structure FileSystem where
  realpath : Bytes → Option HostPath

/-- What is documented of `realpath()`. -/
structure FileSystem.Lawful (fs : FileSystem) : Prop where
  /-- A result fits into a buffer of `PATH_MAX` bytes. -/
  short : ∀ p q, fs.realpath p = some q → q.text.length < pathMax
  /-- A canonical path leads to itself. -/
  idem : ∀ p q, fs.realpath p = some q → fs.realpath q.text = some q

/-- A file system that knows the path names of a table. -/
def FileSystem.ofTable (table : List (Bytes × HostPath)) : FileSystem := ⟨fun p => table.lookup p⟩

theorem mem_of_lookup {table : List (Bytes × HostPath)} {p : Bytes} {q : HostPath}
    (h : table.lookup p = some q) : (p, q) ∈ table := by
  obtain ⟨l, r, rfl, -⟩ := List.lookup_eq_some_iff.1 h
  simp

theorem FileSystem.Lawful.of_table {table : List (Bytes × HostPath)}
    (hshort : ∀ e ∈ table, e.2.text.length < pathMax)
    (hidem : ∀ e ∈ table, table.lookup e.2.text = some e.2) :
    (FileSystem.ofTable table).Lawful where
  short p q h := hshort (p, q) (mem_of_lookup h)
  idem p q h := hidem (p, q) (mem_of_lookup h)

/-- The values of `errno` the function leaves, that of a failed `realpath()` being the host's. -/
inductive Errno
  | einval
  | enametoolong
  | eacces
  | realpath
  deriving DecidableEq

/-! ## The parts of the function -/

/-- A string without the one `/` at its end, unless it is `/`. -/
def stripSlash (s : Bytes) : Bytes :=
  if 1 < s.length ∧ s.getLast? = some slash then s.dropLast else s

/-- The tests of the root and of the current path; the result is their real paths. -/
def checkPaths (fs : FileSystem) (ftpRoot currentPath : Bytes) : Except Errno (Bytes × Bytes) :=
  if ftpRoot.head? ≠ some slash then .error .einval
  else if pathMax ≤ ftpRoot.length then .error .enametoolong
  else
    match fs.realpath (stripSlash ftpRoot) with
    | none => .error .realpath
    | some realFtpRoot =>
      match fs.realpath currentPath with
      | none => .error .realpath
      | some realCurrentPath =>
        let realFtpRoot := realFtpRoot.text
        let realCurrentPath := realCurrentPath.text
        if ¬ realFtpRoot <+: realCurrentPath then .error .eacces
        else if realFtpRoot.length < realCurrentPath.length ∧
            realCurrentPath[realFtpRoot.length]? ≠ some slash then .error .eacces
        else .ok (realFtpRoot, realCurrentPath)

/-- `base_path`: the root for an absolute path of the client, else the current path. -/
def basePath (realFtpRoot realCurrentPath userControlPath : Bytes) : Except Errno Bytes :=
  let base := if userControlPath.head? = some slash then realFtpRoot else realCurrentPath
  if pathMax ≤ base.length then .error .enametoolong else .ok (stripSlash base)

/-- `strtok(s, "/")`: the first token and what is left for the next call. -/
def strtok (s : Bytes) : Option (Bytes × Bytes) :=
  let s := s.dropWhile (· = slash)
  if s = [] then none
  else some (s.takeWhile (· ≠ slash), (s.dropWhile (· ≠ slash)).drop 1)

/-- The loop that fills `components`, with room for `room` more. -/
def splitLoop : ℕ → Bytes → List Bytes
  | 0, _ => []
  | room + 1, s =>
    match strtok s with
    | none => []
    | some (token, rest) => token :: splitLoop room rest

/-- The components of the client's path. -/
def splitPath (userControlPath : Bytes) : Except Errno (List Bytes) :=
  if pathMax * 2 ≤ userControlPath.length then .error .enametoolong
  else .ok (splitLoop (pathMax - 1) userControlPath)

/-- `strrchr(s, c)`, as an index. -/
def strrchr (c : UInt8) : Bytes → Option ℕ
  | [] => none
  | x :: s =>
    match strrchr c s with
    | some i => some (i + 1)
    | none => if x = c then some 0 else none

/-- One component, on `result_path`. -/
def walkStep (realFtpRoot resultPath comp : Bytes) : Except Errno Bytes :=
  if comp = dot then .ok resultPath
  else if comp = dotDot then
    if ¬ realFtpRoot <+: resultPath then .error .eacces
    else
      match strrchr slash resultPath with
      | none => .ok resultPath
      | some lastSlash =>
        if realFtpRoot.length < lastSlash then .ok (resultPath.take lastSlash)
        else if realFtpRoot.length < resultPath.length then
          .ok (resultPath.take realFtpRoot.length)
        else .ok resultPath
  else if pathMax * 2 ≤ resultPath.length + comp.length + 2 then .error .enametoolong
  else if 0 < resultPath.length ∧ resultPath.getLast? ≠ some slash then
    .ok (resultPath ++ [slash] ++ comp)
  else .ok (resultPath ++ comp)

/-- The loop over the components. -/
def walk (realFtpRoot basePath : Bytes) (components : List Bytes) : Except Errno Bytes :=
  if pathMax * 2 ≤ basePath.length then .error .enametoolong
  else components.foldlM (walkStep realFtpRoot) basePath

/-- `final_path`: where the result leads, or the result itself if it leads nowhere. -/
def finalPath (fs : FileSystem) (resultPath : Bytes) : Except Errno Bytes :=
  match fs.realpath resultPath with
  | some realRes => .ok realRes.text
  | none => if pathMax ≤ resultPath.length then .error .enametoolong else .ok resultPath

/-- The last tests; the result is what is copied to `output`. -/
def finish (fs : FileSystem) (realFtpRoot resultPath : Bytes) (outputSz : ℕ) :
    Except Errno Bytes :=
  if ¬ realFtpRoot <+: resultPath then .error .eacces
  else do
    let final ← finalPath fs resultPath
    if ¬ realFtpRoot <+: final then .error .eacces
    else if outputSz ≤ final.length then .error .enametoolong
    else .ok final

/-- `luftpd_resolve_path()`: the output of a call that returns 0, or the error of one that returns
-1 and leaves the output alone. -/
def luftpdResolvePath (fs : FileSystem) (ftpRoot currentPath userControlPath : Bytes)
    (outputSz : ℕ) : Except Errno Bytes :=
  if outputSz = 0 then .error .einval
  else do
    let (realFtpRoot, realCurrentPath) ← checkPaths fs ftpRoot currentPath
    let base ← basePath realFtpRoot realCurrentPath userControlPath
    let components ← splitPath userControlPath
    let resultPath ← walk realFtpRoot base components
    finish fs realFtpRoot resultPath outputSz

end Lucp.Luftpd
