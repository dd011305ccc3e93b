import Lucp.Luftpd.Containment

/-!
# The components `luftpd_resolve_path` goes through

The table of components has 4096 entries, of which the last one is for the `NULL` behind them, and
the loop that fills it ends when it is full.  All the other lengths that do not fit make the
function fail; this one makes it go on with the components that are in the table.

`keepsComponents_iff` says which paths lose a component: a path that is short enough to be accepted
has at most 4096 components, and it has that many only if each is a single byte.
-/

set_option autoImplicit false

namespace Lucp.Luftpd

/-- A call goes through these components, one after the other, and gets to the end of them. -/
def Processed (fs : FileSystem) (ftpRoot currentPath user : Bytes) (comps : List Bytes) : Prop :=
  ∃ realFtpRoot realCurrentPath base resultPath,
    checkPaths fs ftpRoot currentPath = .ok (realFtpRoot, realCurrentPath) ∧
      basePath realFtpRoot realCurrentPath user = .ok base ∧ splitPath user = .ok comps ∧
      walk realFtpRoot base comps = .ok resultPath

/-- No component of the path is dropped: a call that returns 0 has gone through all of them, and
one for whose components the table is too small does not return 0. -/
def KeepsComponents (fs : FileSystem) (ftpRoot currentPath user : Bytes) (outputSz : ℕ) : Prop :=
  (∀ out, luftpdResolvePath fs ftpRoot currentPath user outputSz = .ok out →
    Processed fs ftpRoot currentPath user (Lexical.components slash user)) ∧
  (pathMax - 1 < (Lexical.components slash user).length →
    ∃ e, luftpdResolvePath fs ftpRoot currentPath user outputSz = .error e)

/-- What a call that returns 0 has gone through. -/
theorem processed_of_ok {fs : FileSystem} {ftpRoot currentPath user out : Bytes} {outputSz : ℕ}
    (h : luftpdResolvePath fs ftpRoot currentPath user outputSz = .ok out) :
    Processed fs ftpRoot currentPath user
      ((Lexical.components slash user).take (pathMax - 1)) := by
  rw [luftpdResolvePath, ite_error_eq_ok] at h
  simp only [bind_eq_ok] at h
  obtain ⟨-, ⟨root, current⟩, hcheck, base, hbase, comps, hsplit, result, hwalk, -⟩ := h
  obtain ⟨-, rfl⟩ := splitPath_eq_ok.1 hsplit
  exact ⟨root, current, base, result, hcheck, hbase, hsplit, hwalk⟩

/-- If the table has room for all components, none is dropped. -/
theorem keepsComponents_of_le {user : Bytes}
    (h : (Lexical.components slash user).length ≤ pathMax - 1) (fs : FileSystem)
    (ftpRoot currentPath : Bytes) (outputSz : ℕ) :
    KeepsComponents fs ftpRoot currentPath user outputSz := by
  refine ⟨fun out hout => ?_, fun hlong => absurd hlong (Nat.not_lt.2 h)⟩
  have hprocessed := processed_of_ok hout
  rwa [List.take_of_length_le h] at hprocessed

/-- If it has not, a call that returns 0 has dropped one. -/
theorem not_keepsComponents {fs : FileSystem} {ftpRoot currentPath user out : Bytes} {outputSz : ℕ}
    (hout : luftpdResolvePath fs ftpRoot currentPath user outputSz = .ok out)
    (hlong : pathMax - 1 < (Lexical.components slash user).length) :
    ¬ KeepsComponents fs ftpRoot currentPath user outputSz := by
  rintro ⟨-, hfail⟩
  obtain ⟨e, herror⟩ := hfail hlong
  cases hout.symm.trans herror

/-! ## Walks that do not get too long -/

theorem HostPath.length_text (p : HostPath) :
    p.text.length = max 1 (Lexical.below slash p.names).length := by
  by_cases hp : p.names = []
  · rw [HostPath.text, hp]
    rfl
  · have hlong := Lexical.one_lt_length_below p.isName hp
    rw [HostPath.text, Lexical.text_of_ne_nil hp, max_eq_right hlong.le]

theorem HostPath.length_below_parent (p : HostPath) :
    (Lexical.below slash p.parent.names).length ≤ (Lexical.below slash p.names).length := by
  obtain ⟨last, hlast⟩ := List.dropLast_prefix p.names
  rw [← hlast, Lexical.below_append, List.length_append]
  exact Nat.le_add_right _ _

/-- A step that is not too long leads to a path that is not much longer. -/
theorem exists_lexicalStep {root p : HostPath} {comp : Bytes} (hcomp : Lexical.IsName slash comp)
    (h : p.text.length + comp.length + 2 < pathMax * 2) :
    ∃ q, lexicalStep root p comp = some q ∧
      (Lexical.below slash q.names).length
        ≤ (Lexical.below slash p.names).length + (comp.length + 1) := by
  obtain rfl | rfl | hname := component_cases hcomp
  · exact ⟨p, lexicalStep_dot root p, Nat.le_add_right _ _⟩
  · refine ⟨_, lexicalStep_dotDot root p, ?_⟩
    split
    · exact Nat.le_add_right_of_le p.length_below_parent
    · exact Nat.le_add_right _ _
  · refine ⟨p.push comp hname, by rw [lexicalStep_name root p hname, if_pos h], ?_⟩
    simp only [HostPath.push, Lexical.below_append, Lexical.below_cons, Lexical.below_nil,
      List.append_nil, List.length_append, List.length_cons]
    omega

/-- A walk over components of one byte each gets along if there is room for all of them. -/
theorem exists_lexicalWalk {root : HostPath} {comps : List Bytes}
    (hcomps : ∀ n ∈ comps, Lexical.IsName slash n) (hbyte : ∀ n ∈ comps, n.length = 1)
    {p : HostPath} (h : (Lexical.below slash p.names).length
      + (Lexical.below slash comps).length + 1 < pathMax * 2) :
    ∃ target, lexicalWalk root p comps = some target := by
  have hmax : pathMax = 4096 := rfl
  unfold lexicalWalk
  induction comps generalizing p with
  | nil => exact ⟨p, rfl⟩
  | cons comp comps ih =>
    have hone : comp.length = 1 := hbyte comp List.mem_cons_self
    rw [Lexical.below_cons, List.length_cons, List.length_append] at h
    have hroom : p.text.length + comp.length + 2 < pathMax * 2 := by
      rw [p.length_text]
      omega
    obtain ⟨q, hstep, hlen⟩ := exists_lexicalStep (hcomps comp List.mem_cons_self) hroom
    rw [List.foldlM_cons, hstep]
    exact ih (fun n hn => hcomps n (List.mem_cons_of_mem _ hn))
      (fun n hn => hbyte n (List.mem_cons_of_mem _ hn)) (by omega)

/-! ## Paths that fill the table -/

section Full

variable {user : Bytes} (hshort : user.length < pathMax * 2)
  (hlong : pathMax - 1 < (Lexical.components slash user).length)

include hshort hlong

/-- Each component of such a path is a single byte. -/
theorem length_component {comp : Bytes} (h : comp ∈ Lexical.components slash user) :
    comp.length = 1 := by
  have hmax : pathMax = 4096 := rfl
  have htext : (Lexical.below slash (Lexical.components slash user)).length ≤ user.length + 1 :=
    Lexical.length_below_components user
  have hnames : ∀ n ∈ Lexical.components slash user, Lexical.IsName slash n :=
    fun n => Lexical.isName_of_mem_components
  have hpos : 0 < comp.length := List.length_pos_iff.2 (hnames comp h).1
  obtain ⟨before, behind, hsplit⟩ := List.append_of_mem h
  rw [hsplit] at htext hlong hnames
  rw [Lexical.below_append, Lexical.below_cons, List.length_append, List.length_cons,
    List.length_append] at htext
  rw [List.length_append, List.length_cons] at hlong
  have hbefore : 2 * before.length ≤ (Lexical.below slash before).length :=
    Lexical.length_le_length_below fun n hn => hnames n (List.mem_append_left _ hn)
  have hbehind : 2 * behind.length ≤ (Lexical.below slash behind).length :=
    Lexical.length_le_length_below fun n hn =>
      hnames n (List.mem_append_right _ (List.mem_cons_of_mem _ hn))
  omega

/-- Somewhere the walk over the components in the table gets to its end. -/
theorem exists_lexicalWalk_take :
    ∃ target, lexicalWalk .root .root ((Lexical.components slash user).take (pathMax - 1))
      = some target := by
  have hmax : pathMax = 4096 := rfl
  have htext : (Lexical.below slash (Lexical.components slash user)).length ≤ user.length + 1 :=
    Lexical.length_below_components user
  have hrest : (Lexical.components slash user).drop (pathMax - 1) ≠ [] := by
    rw [Ne, List.drop_eq_nil_iff]
    exact Nat.not_le.2 hlong
  have hdropped : 1 < (Lexical.below slash
      ((Lexical.components slash user).drop (pathMax - 1))).length :=
    Lexical.one_lt_length_below
      (fun n hn => Lexical.isName_of_mem_components (List.mem_of_mem_drop hn)) hrest
  rw [← List.take_append_drop (pathMax - 1) (Lexical.components slash user),
    Lexical.below_append, List.length_append] at htext
  refine exists_lexicalWalk (fun n => isName_of_mem_take)
    (fun n hn => length_component hshort hlong (List.mem_of_mem_take hn)) ?_
  rw [HostPath.root, Lexical.below_nil, List.length_nil]
  omega

/-- **And there a call returns 0.** -/
theorem exists_resolved :
    luftpdResolvePath ⟨fun _ => some .root⟩ [slash] [slash] user pathMax = .ok [slash] := by
  obtain ⟨target, hwalk⟩ := exists_lexicalWalk_take hshort hlong
  have hwalks : Walks ⟨fun _ => some .root⟩ [slash] [slash] user .root target := by
    refine ⟨rfl, by decide, rfl, hshort, .root, rfl, ⟨.refl _, fun _ => rfl⟩, ?_, ?_⟩
    · rw [ite_self]
      decide
    · rw [ite_self]
      exact hwalk
  exact luftpdResolvePath_eq_ok.2 ⟨.root, target, hwalks,
    finalPath_eq_ok.2 (.inl ⟨.root, rfl, rfl⟩), List.prefix_rfl, by decide⟩

end Full

/-- A file system in which every path name leads to the root. -/
theorem lawful_root : FileSystem.Lawful ⟨fun _ => some .root⟩ where
  short p q h := by
    obtain rfl := Option.some.inj h
    decide
  idem p q h := h

/-- **No component of a path is dropped exactly if the path has at most 4095 of them.** -/
theorem keepsComponents_iff {user : Bytes} (h : user.length < pathMax * 2) :
    (∀ (fs : FileSystem) (ftpRoot currentPath : Bytes) (outputSz : ℕ), fs.Lawful →
      KeepsComponents fs ftpRoot currentPath user outputSz) ↔
    (Lexical.components slash user).length ≤ pathMax - 1 := by
  constructor
  · intro hkeeps
    by_contra hmany
    have hlong := Nat.lt_of_not_le hmany
    exact not_keepsComponents (exists_resolved h hlong) hlong
      (hkeeps ⟨fun _ => some .root⟩ [slash] [slash] pathMax lawful_root)
  · exact fun hfew fs ftpRoot currentPath outputSz _ =>
      keepsComponents_of_le hfew fs ftpRoot currentPath outputSz

/-- A path of two components. -/
theorem keepsComponents_iff_short :
    (textBytes "pub/new").length < pathMax * 2 ∧
      ((∀ (fs : FileSystem) (ftpRoot currentPath : Bytes) (outputSz : ℕ), fs.Lawful →
        KeepsComponents fs ftpRoot currentPath (textBytes "pub/new") outputSz) ↔
      (Lexical.components slash (textBytes "pub/new")).length ≤ pathMax - 1) :=
  ⟨by decide, keepsComponents_iff (by decide)⟩

/-! ## A path that loses its last component -/

/-- The path `./././…/x`, with `k` times the name of the same directory. -/
def dotsThenX (k : ℕ) : Bytes :=
  (Lexical.below slash (List.replicate k dot ++ [textBytes "x"])).drop 1

theorem lexicalWalk_dots (root p : HostPath) (k : ℕ) :
    lexicalWalk root p (List.replicate k dot) = some p := by
  unfold lexicalWalk
  induction k with
  | zero => rfl
  | succ k ih =>
    rw [List.replicate_succ, List.foldlM_cons, lexicalStep_dot]
    exact ih

theorem isName_dotsThenX {k : ℕ} {n : Bytes} (h : n ∈ List.replicate k dot ++ [textBytes "x"]) :
    Lexical.IsName slash n := by
  obtain hdot | hx := List.mem_append.1 h
  · rw [List.eq_of_mem_replicate hdot]
    exact ⟨by decide, by decide⟩
  · rw [List.mem_singleton.1 hx]
    exact ⟨by decide, by decide⟩

theorem cons_dotsThenX (k : ℕ) :
    slash :: dotsThenX k = Lexical.below slash (List.replicate k dot ++ [textBytes "x"]) := by
  cases k <;> rfl

theorem components_dotsThenX (k : ℕ) :
    Lexical.components slash (dotsThenX k) = List.replicate k dot ++ [textBytes "x"] := by
  rw [← Lexical.components_sep_cons, cons_dotsThenX]
  exact Lexical.components_below fun n => isName_dotsThenX

theorem length_dotsThenX (k : ℕ) : (dotsThenX k).length = 2 * k + 1 := by
  have hdots : (Lexical.below slash (List.replicate k dot)).length = 2 * k := by
    induction k with
    | zero => rfl
    | succ k ih =>
      rw [List.replicate_succ, Lexical.below_cons, List.length_cons, List.length_append, ih, dot,
        List.length_singleton]
      omega
  rw [← Nat.add_right_cancel_iff (n := 1), ← List.length_cons, cons_dotsThenX,
    Lexical.below_append, List.length_append, hdots]
  rfl

/-- The root of the host, and nothing in it. -/
def emptyFileSystem : FileSystem := .ofTable [([slash], .root)]

/-- **The last of 4096 components is dropped**: the path leads to the root instead of `/x`. -/
theorem component_dropped :
    ∃ (fs : FileSystem) (user : Bytes), fs.Lawful ∧ user.length < pathMax * 2 ∧
      Lexical.components slash user = List.replicate (pathMax - 1) dot ++ [textBytes "x"] ∧
      luftpdResolvePath fs [slash] [slash] (textBytes "x") pathMax = .ok (textBytes "/x") ∧
      luftpdResolvePath fs [slash] [slash] user pathMax = .ok [slash] ∧
      ¬ KeepsComponents fs [slash] [slash] user pathMax := by
  have hcomps := components_dotsThenX (pathMax - 1)
  have hshort : (dotsThenX (pathMax - 1)).length < pathMax * 2 := by
    rw [length_dotsThenX]
    decide
  have hlong : pathMax - 1 < (Lexical.components slash (dotsThenX (pathMax - 1))).length := by
    rw [hcomps, List.length_append, List.length_replicate]
    exact Nat.lt_succ_self _
  have hwalks :
      Walks emptyFileSystem [slash] [slash] (dotsThenX (pathMax - 1)) .root .root := by
    refine ⟨rfl, by decide, rfl, hshort, .root, rfl, ⟨.refl _, fun _ => rfl⟩, ?_, ?_⟩
    · rw [ite_self]
      decide
    · rw [ite_self, hcomps, List.take_left' (List.length_replicate ..)]
      exact lexicalWalk_dots .root .root (pathMax - 1)
  have hout : luftpdResolvePath emptyFileSystem [slash] [slash] (dotsThenX (pathMax - 1)) pathMax
      = .ok [slash] :=
    luftpdResolvePath_eq_ok.2 ⟨.root, .root, hwalks, finalPath_eq_ok.2 (.inl ⟨.root, rfl, rfl⟩),
      List.prefix_rfl, by decide⟩
  exact ⟨emptyFileSystem, dotsThenX (pathMax - 1), .of_table (by decide) (by decide), hshort,
    hcomps, by decide +kernel, hout, not_keepsComponents hout hlong⟩

end Lucp.Luftpd
