import Lucp.Luftpd.Containment
import Lucp.Luftpd.Session

/-!
# Virtual paths

To a client the root directory is `/`, and `current_dir` is meant to be relative to it.  The
handlers pass `current_dir` to `luftpd_resolve_path`, which takes it for a path of the host and
refuses it if it is not in the root.  `Serves` says that the paths a client can name are resolved
all the same; `serves_iff` says that this is a matter of where the host finds `current_dir`.

A session starts with `current_dir = "/"`.  Unless `/` is the root the first resolution fails, and
so do all that follow, because `current_dir` is only changed after one that did not:
`virtual_paths_iff`.
-/

set_option autoImplicit false

namespace Lucp.Luftpd

/-- Each existing place in the root, reached without symbolic links, is what its virtual path
resolves to from the current directory `currentDir`. -/
def Serves (fs : FileSystem) (cfg : LuftpdConfig) (root : HostPath) (currentDir : Bytes) : Prop :=
  ∀ (names : List Bytes) (place : HostPath), place.names = root.names ++ names →
    fs.realpath place.text = some place →
      luftpdResolvePath fs cfg.rootDir currentDir (Lexical.text slash names) pathMax
        = .ok place.text

/-! ## Resolving a virtual path -/

theorem HostPath.Contains.length_le {p q : HostPath} (h : p.Contains q) :
    p.text.length ≤ q.text.length :=
  h.text_prefix.length_le

/-- The walk over the names of a short enough path takes one name after the other. -/
theorem lexicalWalk_names {root q : HostPath} (hshort : q.text.length < pathMax)
    (names : List Bytes) {p : HostPath} (h : q.names = p.names ++ names) :
    lexicalWalk root p names = some q := by
  induction names generalizing p with
  | nil => exact congrArg some (HostPath.ext (by simpa using h.symm))
  | cons n names ih =>
    have hn : FileName n := q.valid n (by simp [h])
    have hpush : (p.push n hn).Contains q := ⟨names, by simp [HostPath.push, h]⟩
    have hlen : p.text.length + n.length ≤ (p.push n hn).text.length := by
      rw [HostPath.text_push]
      split <;> simp
    have hle := hpush.length_le
    have hroom : p.text.length + n.length + 2 < pathMax * 2 := by
      unfold pathMax at *
      omega
    rw [lexicalWalk, List.foldlM_cons, lexicalStep_name root p hn, if_pos hroom]
    exact ih (by simp [HostPath.push, h])

theorem head?_text (names : List Bytes) : (Lexical.text slash names).head? = some slash := by
  cases names <;> rfl

/-- The virtual path of a place is not longer than the place, and all its names are looked at. -/
theorem virtual_short {root place : HostPath} {names : List Bytes}
    (hplace : place.names = root.names ++ names) (hshort : place.text.length < pathMax) :
    (Lexical.text slash names).length < pathMax ∧
      (Lexical.components slash (Lexical.text slash names)).take (pathMax - 1) = names := by
  have hnames : ∀ n ∈ names, Lexical.IsName slash n :=
    fun n hn => place.isName n (by simp [hplace, hn])
  rw [Lexical.components_text hnames]
  by_cases hnil : names = []
  · subst hnil
    exact ⟨by decide, rfl⟩
  · have hbelow : (Lexical.below slash names).length ≤ place.text.length := by
      rw [HostPath.text, Lexical.text_of_ne_nil (by simp [hplace, hnil]), hplace,
        Lexical.below_append, List.length_append]
      omega
    have hcount := Lexical.length_le_length_below hnames
    rw [Lexical.text_of_ne_nil hnil]
    exact ⟨by omega, List.take_of_length_le (by omega)⟩

/-- **Virtual paths resolve exactly if the host finds `currentDir` in the root.** -/
theorem serves_iff {fs : FileSystem} {cfg : LuftpdConfig} {root : HostPath} (hlaw : fs.Lawful)
    (hroot : fs.realpath (stripSlash cfg.rootDir) = some root) (currentDir : Bytes) :
    Serves fs cfg root currentDir ↔
      cfg.rootDir.head? = some slash ∧ cfg.rootDir.length < pathMax ∧
        ∃ current, fs.realpath currentDir = some current ∧ Admits root current := by
  constructor
  · intro h
    obtain ⟨root', target, hwalks, -⟩ :=
      luftpdResolvePath_eq_ok.1 (h [] root (by simp) (hlaw.idem _ root hroot))
    obtain rfl : root = root' := Option.some.inj (hroot.symm.trans hwalks.realRoot)
    obtain ⟨current, hcurrent, hadmits, -⟩ := hwalks.walks
    exact ⟨hwalks.absolute, hwalks.rootShort, current, hcurrent, hadmits⟩
  · rintro ⟨habs, hlen, current, hcurrent, hadmits⟩ names place hplace hreal
    have hin : root.Contains place := ⟨names, hplace.symm⟩
    have hshort := hlaw.short _ place hreal
    obtain ⟨htext, htake⟩ := virtual_short hplace hshort
    refine luftpdResolvePath_eq_ok.2 ⟨root, place, ⟨habs, hlen, hroot, by omega, current, hcurrent,
      hadmits, ?_⟩, finalPath_eq_ok.2 (.inl ⟨place, hreal, rfl⟩), hin.text_prefix, hshort⟩
    rw [if_pos (head?_text names), htake]
    exact ⟨hlaw.short _ root hroot, lexicalWalk_names hshort names hplace⟩

/-! ## The sessions of a server -/

theorem admits_root {root : HostPath} : Admits root .root ↔ root = .root := by
  constructor
  · exact fun h => HostPath.ext (List.prefix_nil.1 h.1)
  · rintro rfl
    exact ⟨.refl _, fun h => h⟩

theorem root_admits {current : HostPath} : Admits .root current ↔ current = .root := by
  constructor
  · exact fun h => HostPath.ext (h.2 rfl)
  · rintro rfl
    exact ⟨.refl _, fun h => h⟩

/-- From `/` nothing is resolved, unless `/` is the root. -/
theorem resolve_stuck {fs : FileSystem} {cfg : LuftpdConfig} {root : HostPath}
    (hroot : fs.realpath (stripSlash cfg.rootDir) = some root)
    (hhost : fs.realpath [slash] = some .root) (hne : root ≠ .root) (arg out : Bytes) :
    luftpdResolvePath fs cfg.rootDir [slash] arg pathMax ≠ .ok out := by
  intro hok
  obtain ⟨root', target, hwalks, -⟩ := luftpdResolvePath_eq_ok.1 hok
  obtain ⟨current', hcurrent', hadmits', -⟩ := hwalks.walks
  obtain rfl : root = root' := Option.some.inj (hroot.symm.trans hwalks.realRoot)
  obtain rfl : HostPath.root = current' := Option.some.inj (hhost.symm.trans hcurrent')
  exact hne (admits_root.1 hadmits')

/-- From a directory that the host does not find in the root no command gets anywhere. -/
theorem keeps_handleCwd {fs : FileSystem} {cfg : LuftpdConfig} {dir : Bytes}
    (h : ∀ arg out, luftpdResolvePath fs cfg.rootDir dir arg pathMax ≠ .ok out) (arg : Bytes) :
    Keeps fs (fun c => c.currentDir = dir) (luftpdHandleCwd cfg arg) := by
  intro c hc
  refine (resolve_ensures arg hc).bind ?_
  rintro r _ ⟨rfl, hr⟩
  rw [hc] at hr
  cases r with
  | error e => exact keeps_of_stays (J := (· = dir)) (stays_reply _) _ hc
  | ok out => exact absurd hr.symm (h arg out)

/-- **Virtual paths resolve in the reachable states of a session exactly if the root is the root
directory of the host and the host finds `current_dir` there.** -/
theorem virtual_paths_iff {fs : FileSystem} {cfg : LuftpdConfig} {root : HostPath}
    (hlaw : fs.Lawful) (hroot : fs.realpath (stripSlash cfg.rootDir) = some root)
    (hhost : fs.realpath [slash] = some .root) {s : FtpSession}
    (h : (ftpSession cfg fs).Reachable s) :
    Serves fs cfg root s.client.currentDir ↔
      cfg.rootDir.head? = some slash ∧ cfg.rootDir.length < pathMax ∧ root = .root ∧
        fs.realpath s.client.currentDir = some .root := by
  rw [serves_iff hlaw hroot]
  refine and_congr_right fun habs => and_congr_right fun hlen => ?_
  constructor
  · rintro ⟨current, hcurrent, hadmits⟩
    by_cases hr : root = .root
    · subst hr
      exact ⟨rfl, root_admits.1 hadmits ▸ hcurrent⟩
    · -- the session has not got away from where it started
      have hstuck := resolve_stuck hroot hhost hr
      have hdir : s.client.currentDir = [slash] :=
        FtpSession.currentDir_invariant (J := (· = [slash])) rfl (keeps_handleCwd hstuck) h
      rw [hdir, hhost, Option.some.injEq] at hcurrent
      exact absurd (admits_root.1 (hcurrent ▸ hadmits)) hr
  · rintro ⟨rfl, hcurrent⟩
    exact ⟨.root, hcurrent, root_admits.2 rfl⟩

/-- The root directory of the host as the root of the server. -/
theorem virtual_paths_root :
    ∃ (fs : FileSystem) (cfg : LuftpdConfig) (s : FtpSession), fs.Lawful ∧
      (ftpSession cfg fs).Reachable s ∧ Serves fs cfg .root s.client.currentDir := by
  let fs : FileSystem := .ofTable [(textBytes "/", .root)]
  let cfg : LuftpdConfig := ⟨none, textBytes "/", 10, 30000, 30100⟩
  have hlaw : fs.Lawful := .of_table (by decide) (by decide)
  have hreach : (ftpSession cfg fs).Reachable ⟨newClient 4 1001, .serving luftpdWelcome⟩ :=
    .of_init ⟨4, 1001, rfl⟩
  refine ⟨fs, cfg, _, hlaw, hreach,
    (virtual_paths_iff hlaw (by decide) (by decide) hreach).2 ?_⟩
  exact ⟨by decide, by decide, rfl, by decide⟩

/-- A root `/srv/ftp` with a directory `pub` in it. -/
def publicFileSystem : FileSystem :=
  .ofTable
    [(textBytes "/", .root), (textBytes "/srv/ftp", srvFtp),
      (textBytes "/srv/ftp/pub", ⟨[textBytes "srv", textBytes "ftp", textBytes "pub"], by decide⟩)]

/-- A new client asks for `/pub`, which exists, and is refused. -/
theorem virtual_path_refused :
    ∃ (fs : FileSystem) (cfg : LuftpdConfig) (root place : HostPath) (s : FtpSession)
        (names : List Bytes),
      fs.Lawful ∧ fs.realpath (stripSlash cfg.rootDir) = some root ∧ (ftpSession cfg fs).Reachable s ∧
        place.names = root.names ++ names ∧ fs.realpath place.text = some place ∧
        luftpdResolvePath fs cfg.rootDir s.client.currentDir (Lexical.text slash names) pathMax
          = .error .eacces :=
  ⟨publicFileSystem, ⟨none, textBytes "/srv/ftp", 10, 30000, 30100⟩,
    srvFtp, ⟨[textBytes "srv", textBytes "ftp", textBytes "pub"], by decide⟩,
    ⟨newClient 4 1001, .serving luftpdWelcome⟩, [textBytes "pub"],
    .of_table (by decide) (by decide), by decide +kernel, .of_init ⟨4, 1001, rfl⟩, by decide,
    by decide +kernel, by decide +kernel⟩

end Lucp.Luftpd
