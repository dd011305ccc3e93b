import Lucp.General.StackWalk
import Lucp.Luftpd.Containment

/-!
# The walk of `luftpd_resolve_path` and the root

The loop over the components works on a string and takes care not to cut it shorter than the root.
On names it is a walk on a stack with a floor (`lexicalWalk_eq_clamped`), and everything there is to
say about it follows from `Move.foldl_clamped`.

## What is here

* `walkUser` — the part of the function that splits the client's path and walks it.
* `walkUser_cases` — **the walk ends in the root or below it**, in the place where a walk on a plain
  stack ends if no prefix of the client's path climbs above the root.
* `rejects_climbing_iff` — **paths that climb above the root are not rejected**: the moves up at the
  root are left out, and the call fails only if what is left fails.
-/

set_option autoImplicit false

namespace Lucp.Luftpd

/-! ## The walk as moves on a stack -/

/-- What a component asks for. -/
def moveOf (comp : Bytes) : Move Bytes :=
  if comp = dot then .stay else if comp = dotDot then .up else .enter comp

/-- The moves of the client's path. -/
def movesOf (user : Bytes) : List (Move Bytes) := (Lexical.components slash user).map moveOf

/-- One step of the walk is one move with the root as the floor. -/
theorem lexicalStep_names {root p q : HostPath} {comp : Bytes}
    (hcomp : Lexical.IsName slash comp) (h : lexicalStep root p comp = some q) :
    q.names = Move.clamped root.names.length p.names (moveOf comp) := by
  obtain rfl | rfl | hname := component_cases hcomp
  · obtain rfl : p = q := by simpa using h
    rfl
  · rw [lexicalStep_dotDot] at h
    have hmove : moveOf dotDot = .up := by decide
    rw [← Option.some.inj h, hmove, Move.clamped]
    split
    · rfl
    · rfl
  · rw [lexicalStep_name root p hname] at h
    obtain ⟨-, hq⟩ := Option.ite_none_right_eq_some.1 h
    rw [moveOf, if_neg hname.2.1, if_neg hname.2.2, ← Option.some.inj hq]
    rfl

/-- **The walk, as moves.** -/
theorem lexicalWalk_eq_clamped {root p q : HostPath} {comps : List Bytes}
    (hcomps : ∀ n ∈ comps, Lexical.IsName slash n) (h : lexicalWalk root p comps = some q) :
    q.names = (comps.map moveOf).foldl (Move.clamped root.names.length) p.names := by
  unfold lexicalWalk at h
  induction comps generalizing p with
  | nil =>
    obtain rfl : p = q := by simpa using h
    rfl
  | cons comp comps ih =>
    rw [List.foldlM_cons] at h
    obtain ⟨r, hstep, hrest⟩ := Option.bind_eq_some_iff.1 h
    rw [List.map_cons, List.foldl_cons, ← lexicalStep_names (hcomps comp (by simp)) hstep]
    exact ih (fun n hn => hcomps n (by simp [hn])) hrest

/-! ## Where the walk ends -/

/-- The client's path, split and walked. -/
def walkUser (realFtpRoot basePath user : Bytes) : Except Errno Bytes := do
  let components ← splitPath user
  walk realFtpRoot basePath components

/-- From the place `base`, some prefix of the client's path has more `..` than the depth below the
root that it has reached. -/
def ClimbsAbove (root base : HostPath) (user : Bytes) : Prop :=
  Move.Climbs (base.names.length - root.names.length) (movesOf user)

instance (root base : HostPath) (user : Bytes) : Decidable (ClimbsAbove root base user) :=
  inferInstanceAs (Decidable (Move.Climbs _ _))

/-- **Where the walk ends**: it fails only by getting too long, and otherwise ends in the root or
below it; if the client's path does not climb, each `..` takes back the name in front of it. -/
theorem walkUser_cases {root base : HostPath} (hin : root.Contains base) (user : Bytes)
    (hcount : (Lexical.components slash user).length ≤ pathMax - 1) :
    match walkUser root.text base.text user with
    | .error e => e = .enametoolong
    | .ok result => root.text <+: result ∧
        ∃ names : List Bytes, (∀ n ∈ names, FileName n) ∧
          result = Lexical.text slash (root.names ++ names) ∧
          (¬ ClimbsAbove root base user →
            root.names ++ names = (movesOf user).foldl Move.free base.names) := by
  rw [walkUser, splitPath]
  by_cases huser : pathMax * 2 ≤ user.length
  · rw [if_pos huser]
    rfl
  · have hnames : ∀ n ∈ Lexical.components slash user, Lexical.IsName slash n :=
      fun n hn => Lexical.isName_of_mem_components hn
    rw [if_neg huser, splitLoop_eq, List.take_of_length_le hcount]
    show match walk root.text base.text (Lexical.components slash user) with
      | .error e => e = .enametoolong
      | .ok result => _
    rw [walk]
    by_cases hbase : pathMax * 2 ≤ base.text.length
    · rw [if_pos hbase]
    · rw [if_neg hbase, walk_eq hin hnames]
      cases hwalk : lexicalWalk root base (Lexical.components slash user) with
      | none => rfl
      | some target =>
        have hcontains : root.Contains target := lexicalWalk_contains hin hnames hwalk
        obtain ⟨names, hsplit⟩ := hcontains
        refine ⟨HostPath.Contains.text_prefix ⟨names, hsplit⟩, names, fun n hn => ?_, ?_, ?_⟩
        · exact target.valid n (hsplit ▸ List.mem_append_right _ hn)
        · rw [hsplit]
          rfl
        · intro hclimbs
          rw [hsplit, lexicalWalk_eq_clamped hnames hwalk]
          exact Move.foldl_clamped (List.IsPrefix.length_le hin) hclimbs

theorem walkUser_cases_back_and_forth :
    match walkUser srvFtp.text srvFtp.text (textBytes "a/../b//") with
    | .error e => e = .enametoolong
    | .ok result => srvFtp.text <+: result ∧
        ∃ names : List Bytes, (∀ n ∈ names, FileName n) ∧
          result = Lexical.text slash (srvFtp.names ++ names) ∧
          (¬ ClimbsAbove srvFtp srvFtp (textBytes "a/../b//") →
            srvFtp.names ++ names
              = (movesOf (textBytes "a/../b//")).foldl Move.free srvFtp.names) :=
  walkUser_cases (.refl srvFtp) (textBytes "a/../b//") (by decide)

/-! ## Paths that climb -/

/-- The place from which the client's path is followed. -/
def baseOf (root current : HostPath) (user : Bytes) : HostPath :=
  if user.head? = some slash then root else current

/-- What is left of the client's path, once the moves up at the root are left out, gets to a path
that does not get too long, is in the root as far as strings can tell, and fits. -/
def ClampedResolves (fs : FileSystem) (ftpRoot currentPath user : Bytes) (outputSz : ℕ) : Prop :=
  ∃ root target, Walks fs ftpRoot currentPath user root target ∧
    match fs.realpath target.text with
    | some place => root.text <+: place.text ∧ place.text.length < outputSz
    | none => target.text.length < pathMax ∧ target.text.length < outputSz

/-- The call returns -1 exactly if what is left of the path does not resolve. -/
theorem resolve_error_iff (fs : FileSystem) (ftpRoot currentPath user : Bytes) (outputSz : ℕ) :
    (∃ e, luftpdResolvePath fs ftpRoot currentPath user outputSz = .error e) ↔
      ¬ ClampedResolves fs ftpRoot currentPath user outputSz := by
  have hok : ClampedResolves fs ftpRoot currentPath user outputSz ↔
      ∃ out, luftpdResolvePath fs ftpRoot currentPath user outputSz = .ok out := by
    simp only [ClampedResolves, luftpdResolvePath_eq_ok, finalPath_eq_ok]
    constructor
    · rintro ⟨root, target, hwalks, hlands⟩
      cases hplace : fs.realpath target.text with
      | none =>
        rw [hplace] at hlands
        exact ⟨target.text, root, target, hwalks, .inr ⟨hplace, hlands.1, rfl⟩,
          hwalks.contains.text_prefix, hlands.2⟩
      | some place =>
        rw [hplace] at hlands
        exact ⟨place.text, root, target, hwalks, .inl ⟨place, hplace, rfl⟩, hlands⟩
    · rintro ⟨out, root, target, hwalks, hfinal, hpre, hlen⟩
      refine ⟨root, target, hwalks, ?_⟩
      obtain ⟨place, hplace, rfl⟩ | ⟨hnone, hshort, rfl⟩ := hfinal
      · rw [hplace]
        exact ⟨hpre, hlen⟩
      · rw [hnone]
        exact ⟨hshort, hlen⟩
  rw [hok]
  cases luftpdResolvePath fs ftpRoot currentPath user outputSz with
  | error e => simp
  | ok out => simp

/-- **When climbing is rejected**: exactly if what is left of the path, with the moves up at the
root left out, would be rejected as well. -/
theorem rejects_climbing_iff (fs : FileSystem) (ftpRoot currentPath user : Bytes) (outputSz : ℕ)
    (root current : HostPath) :
    (fs.realpath (stripSlash ftpRoot) = some root → fs.realpath currentPath = some current →
        root.Contains current → ClimbsAbove root (baseOf root current user) user →
        ∃ e, luftpdResolvePath fs ftpRoot currentPath user outputSz = .error e) ↔
      ¬ (fs.realpath (stripSlash ftpRoot) = some root ∧ fs.realpath currentPath = some current ∧
        root.Contains current ∧ ClimbsAbove root (baseOf root current user) user ∧
        ClampedResolves fs ftpRoot currentPath user outputSz) := by
  rw [resolve_error_iff]
  tauto

/-- The directory of the tests, with one directory in it. -/
def testFileSystem : FileSystem :=
  .ofTable
    [(textBytes "/tmp/test_ftp_root", ⟨[textBytes "tmp", textBytes "test_ftp_root"], by decide⟩),
      (textBytes "/tmp/test_ftp_root/tmp",
        ⟨[textBytes "tmp", textBytes "test_ftp_root", textBytes "tmp"], by decide⟩)]

/-- **The path that the tests expect to be blocked is resolved.** -/
theorem climbing_path_resolved :
    ∃ (fs : FileSystem) (ftpRoot currentPath user out : Bytes) (root current : HostPath),
      fs.Lawful ∧ fs.realpath (stripSlash ftpRoot) = some root ∧
        fs.realpath currentPath = some current ∧ root.Contains current ∧
        ClimbsAbove root (baseOf root current user) user ∧
        luftpdResolvePath fs ftpRoot currentPath user pathMax = .ok out :=
  ⟨testFileSystem, textBytes "/tmp/test_ftp_root", textBytes "/tmp/test_ftp_root/tmp",
    textBytes "../../etc/passwd", textBytes "/tmp/test_ftp_root/etc/passwd",
    ⟨[textBytes "tmp", textBytes "test_ftp_root"], by decide⟩,
    ⟨[textBytes "tmp", textBytes "test_ftp_root", textBytes "tmp"], by decide⟩,
    .of_table (by decide) (by decide), by decide +kernel, by decide +kernel, by decide,
    by decide +kernel, by decide +kernel⟩

end Lucp.Luftpd
