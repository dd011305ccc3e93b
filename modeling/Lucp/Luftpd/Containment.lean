import Lucp.Luftpd.Resolve

/-!
# What `luftpd_resolve_path` lets through

`luftpdResolvePath` works on strings; this file says what it does in terms of names.  The two tests
of the current path accept exactly the paths `Admits` describes, and the walk over the components is
`lexicalWalk`: a name is entered, `.` stays, and `..` goes up unless that would leave the root.
`luftpdResolvePath_eq_ok` is the whole function seen this way.

The walk never leaves the root, but the path it ends in may be a symbolic link, and the test of the
place the link leads to is a prefix test of strings.  `resolve_contained_iff` says that this is the
only way out.
-/

set_option autoImplicit false

namespace Lucp.Luftpd

/-! ## Computations that may fail -/

section Except

variable {ε α β : Type}

/-- A test that fails with an error has been passed. -/
theorem ite_error_eq_ok {c : Prop} [Decidable c] {e : ε} {x : Except ε α} {r : α} :
    (if c then .error e else x) = .ok r ↔ ¬ c ∧ x = .ok r := by
  by_cases h : c <;> simp [h]

theorem bind_eq_ok {x : Except ε α} {f : α → Except ε β} {r : β} :
    x >>= f = .ok r ↔ ∃ a, x = .ok a ∧ f a = .ok r := by
  cases x with
  | error e => exact iff_of_false (by rintro ⟨⟩) (by simp)
  | ok a => exact ⟨fun h => ⟨a, rfl, h⟩, fun ⟨b, hb, h⟩ => Except.ok.inj hb ▸ h⟩

end Except

/-! ## The walk on names -/

/-- One component, on names; nothing if the path gets too long. -/
def lexicalStep (root p : HostPath) (comp : Bytes) : Option HostPath :=
  if h : FileName comp then
    if p.text.length + comp.length + 2 < pathMax * 2 then some (p.push comp h) else none
  else if comp = dotDot ∧ root.names.length < p.names.length then some p.parent
  else some p

/-- The walk over the components, from a path at or below the root. -/
def lexicalWalk (root base : HostPath) (comps : List Bytes) : Option HostPath :=
  comps.foldlM (lexicalStep root) base

theorem HostPath.Contains.parent {root p : HostPath} (h : root.Contains p)
    (hlt : root.names.length < p.names.length) : root.Contains p.parent := by
  have hle : root.names.length ≤ p.names.dropLast.length := by
    rw [List.length_dropLast]
    omega
  have hup := List.dropLast_prefix p.names
  exact List.prefix_of_prefix_length_le h hup hle

theorem HostPath.Contains.push {root p : HostPath} (h : root.Contains p) (n : Bytes)
    (hn : FileName n) : root.Contains (p.push n hn) :=
  h.trans (List.prefix_append _ _)

@[simp] theorem lexicalStep_dot (root p : HostPath) : lexicalStep root p dot = some p := by
  have hname : ¬ FileName dot := by decide
  simp [lexicalStep, hname, show dot ≠ dotDot by decide]

@[simp] theorem lexicalStep_dotDot (root p : HostPath) :
    lexicalStep root p dotDot
      = some (if root.names.length < p.names.length then p.parent else p) := by
  have hname : ¬ FileName dotDot := by decide
  simp only [lexicalStep, hname, dite_false, true_and]
  split <;> rfl

theorem lexicalStep_name (root p : HostPath) {comp : Bytes} (h : FileName comp) :
    lexicalStep root p comp
      = if p.text.length + comp.length + 2 < pathMax * 2 then some (p.push comp h) else none :=
  dif_pos h

/-- A component between separators is `.`, `..` or a name. -/
theorem component_cases {comp : Bytes} (h : Lexical.IsName slash comp) :
    comp = dot ∨ comp = dotDot ∨ FileName comp := by
  by_cases hdot : comp = dot
  · exact .inl hdot
  · by_cases hup : comp = dotDot
    · exact .inr (.inl hup)
    · exact .inr (.inr ⟨h, hdot, hup⟩)

/-- **The walk stays at or below the root.** -/
theorem lexicalStep_contains {root p q : HostPath} {comp : Bytes} (h : root.Contains p)
    (hcomp : Lexical.IsName slash comp) (hstep : lexicalStep root p comp = some q) :
    root.Contains q := by
  obtain rfl | rfl | hname := component_cases hcomp
  · obtain rfl : p = q := by simpa using hstep
    exact h
  · obtain rfl : (if root.names.length < p.names.length then p.parent else p) = q := by
      simpa using hstep
    by_cases hlt : root.names.length < p.names.length
    · rw [if_pos hlt]
      exact h.parent hlt
    · rw [if_neg hlt]
      exact h
  · rw [lexicalStep_name root p hname] at hstep
    obtain ⟨-, hq⟩ := Option.ite_none_right_eq_some.1 hstep
    exact Option.some.inj hq ▸ h.push comp hname

theorem lexicalWalk_contains {root p q : HostPath} {comps : List Bytes} (h : root.Contains p)
    (hcomps : ∀ n ∈ comps, Lexical.IsName slash n) (hwalk : lexicalWalk root p comps = some q) :
    root.Contains q := by
  unfold lexicalWalk at hwalk
  induction comps generalizing p with
  | nil =>
    obtain rfl : p = q := by simpa using hwalk
    exact h
  | cons comp comps ih =>
    rw [List.foldlM_cons] at hwalk
    obtain ⟨r, hstep, hrest⟩ := Option.bind_eq_some_iff.1 hwalk
    exact ih (lexicalStep_contains h (hcomps comp (by simp)) hstep)
      (fun n hn => hcomps n (by simp [hn])) hrest

/-! ## The walk on strings -/

theorem HostPath.text_push (p : HostPath) (n : Bytes) (hn : FileName n) :
    (p.push n hn).text
      = if 0 < p.text.length ∧ p.text.getLast? ≠ some slash then p.text ++ [slash] ++ n
        else p.text ++ n := by
  by_cases hp : p.names = []
  · simp [HostPath.text, push, hp]
  · have hlast := Lexical.getLast?_text p.isName hp
    have hlen := Lexical.one_lt_length_below p.isName hp
    rw [if_pos ⟨by rw [HostPath.text, Lexical.text_of_ne_nil hp]; omega, hlast⟩]
    simp [HostPath.text, push, Lexical.text_of_ne_nil hp, Lexical.text_of_ne_nil]

theorem strrchr_lt {c : UInt8} {s : Bytes} {i : ℕ} (h : strrchr c s = some i) : i < s.length := by
  induction s generalizing i with
  | nil => cases h
  | cons x s ih =>
    rw [strrchr] at h
    cases hs : strrchr c s with
    | none =>
      rw [hs] at h
      obtain ⟨-, hi⟩ := Option.ite_none_right_eq_some.1 h
      simp [← Option.some.inj hi]
    | some j =>
      rw [hs] at h
      have := ih hs
      simp only [Option.some.injEq] at h
      simp only [List.length_cons]
      omega

theorem strrchr_of_notMem {c : UInt8} {s : Bytes} (h : c ∉ s) : strrchr c s = none := by
  induction s with
  | nil => rfl
  | cons x s ih =>
    simp only [List.mem_cons, not_or] at h
    simp [strrchr, ih h.2, Ne.symm h.1]

theorem strrchr_append {c : UInt8} {s n : Bytes} (h : c ∉ n) :
    strrchr c (s ++ c :: n) = some s.length := by
  induction s with
  | nil => simp [strrchr, strrchr_of_notMem h]
  | cons x s ih => simp [strrchr, ih]

theorem HostPath.Contains.text_prefix {root p : HostPath} (h : root.Contains p) :
    root.text <+: p.text :=
  ((HostPath.inside_iff root p).2 h).isPrefix

/-- `..` on a string: the directory above is what is left when the string is cut at its last `/`,
but not below the length of the root. -/
theorem HostPath.text_parent {root p : HostPath} (h : root.Contains p)
    (hlt : root.names.length < p.names.length) :
    root.text.length < p.text.length ∧ ∃ lastSlash, strrchr slash p.text = some lastSlash ∧
      p.parent.text = p.text.take (max lastSlash root.text.length) := by
  have hne : p.names ≠ [] := by
    rintro hnil
    simp [hnil] at hlt
  have htext : p.text = Lexical.below slash p.parent.names ++ slash :: p.names.getLast hne := by
    rw [HostPath.text, Lexical.text_of_ne_nil hne, parent]
    conv_lhs => rw [← List.dropLast_append_getLast hne]
    simp
  have hslash : strrchr slash p.text = some (Lexical.below slash p.parent.names).length := by
    rw [htext]
    exact strrchr_append (p.isName _ (List.getLast_mem hne)).2
  have hup : root.Contains p.parent := h.parent hlt
  by_cases hnil : p.parent.names = []
  · have hroot : root.names = [] := List.prefix_nil.1 (hnil ▸ hup)
    have hlong : 1 < p.text.length := by
      rw [HostPath.text, Lexical.text_of_ne_nil hne]
      exact Lexical.one_lt_length_below p.isName hne
    have hone : root.text.length = 1 := by simp [HostPath.text, hroot]
    refine ⟨by omega, _, hslash, ?_⟩
    rw [htext, hone]
    simp [HostPath.text, hnil]
  · have hparent : p.parent.text = Lexical.below slash p.parent.names :=
      Lexical.text_of_ne_nil hnil
    have hle := hup.text_prefix.length_le
    refine ⟨?_, _, hslash, ?_⟩
    · rw [htext, List.length_append, List.length_cons, ← hparent]
      omega
    · rw [max_eq_left (hparent ▸ hle), htext, List.take_left, hparent]

/-- **One step, on strings and on names.** -/
theorem walkStep_eq {root p : HostPath} {comp : Bytes} (h : root.Contains p)
    (hcomp : Lexical.IsName slash comp) :
    walkStep root.text p.text comp
      = match lexicalStep root p comp with
        | some q => .ok q.text
        | none => .error .enametoolong := by
  obtain rfl | rfl | hname := component_cases hcomp
  · simp [walkStep]
  · simp only [walkStep, show dotDot ≠ dot by decide, if_false, if_true, h.text_prefix,
      not_true_eq_false, lexicalStep_dotDot]
    by_cases hlt : root.names.length < p.names.length
    · obtain ⟨hlen, lastSlash, hslash, htext⟩ := HostPath.text_parent h hlt
      simp only [hslash, hlen, hlt, htext, if_true]
      by_cases hcut : root.text.length < lastSlash
      · rw [if_pos hcut, max_eq_left hcut.le]
      · rw [if_neg hcut, max_eq_right (not_lt.1 hcut)]
    · -- at the root itself the last `/` lies within the root
      obtain rfl : root = p := HostPath.ext (h.eq_of_length_le (not_lt.1 hlt))
      simp only [lt_irrefl, if_false]
      cases hslash : strrchr slash root.text with
      | none => rfl
      | some lastSlash => exact if_neg (not_lt.2 (strrchr_lt hslash).le)
  · rw [walkStep, if_neg hname.2.1, if_neg hname.2.2, lexicalStep_name root p hname]
    by_cases hlong : pathMax * 2 ≤ p.text.length + comp.length + 2
    · rw [if_pos hlong, if_neg (not_lt.2 hlong)]
    · rw [if_neg hlong, if_pos (not_le.1 hlong)]
      simp only [HostPath.text_push]
      split <;> rfl

/-- **The walk, on strings and on names.** -/
theorem walk_eq {root p : HostPath} {comps : List Bytes} (h : root.Contains p)
    (hcomps : ∀ n ∈ comps, Lexical.IsName slash n) :
    comps.foldlM (walkStep root.text) p.text
      = match lexicalWalk root p comps with
        | some q => .ok q.text
        | none => .error .enametoolong := by
  unfold lexicalWalk
  induction comps generalizing p with
  | nil => rfl
  | cons comp comps ih =>
    have hcomp := hcomps comp (by simp)
    rw [List.foldlM_cons, List.foldlM_cons, walkStep_eq h hcomp]
    cases hstep : lexicalStep root p comp with
    | none => rfl
    | some q =>
      exact ih (lexicalStep_contains h hcomp hstep) fun n hn => hcomps n (by simp [hn])

/-! ## The parts around the walk -/

/-- What the tests of the current path accept: the root and the paths below it, but nothing below
the root of the host if that is the root. -/
def Admits (root current : HostPath) : Prop :=
  root.Contains current ∧ (root.names = [] → current.names = [])

theorem admits_iff (root current : HostPath) :
    Admits root current ↔ root.text <+: current.text ∧
      ¬ (root.text.length < current.text.length ∧
        current.text[root.text.length]? ≠ some slash) := by
  rw [← Lexical.continues_iff]
  exact (Lexical.continues_text root.isName current.isName).symm

theorem stripSlash_text (p : HostPath) : stripSlash p.text = p.text := by
  by_cases hp : p.names = []
  · simp [stripSlash, HostPath.text, hp]
  · exact if_neg fun h => Lexical.getLast?_text p.isName hp h.2

theorem checkPaths_eq_ok {fs : FileSystem} {ftpRoot currentPath : Bytes} {r : Bytes × Bytes} :
    checkPaths fs ftpRoot currentPath = .ok r ↔
      ftpRoot.head? = some slash ∧ ftpRoot.length < pathMax ∧
        ∃ root current, fs.realpath (stripSlash ftpRoot) = some root ∧
          fs.realpath currentPath = some current ∧ Admits root current ∧
          r = (root.text, current.text) := by
  rw [checkPaths, ite_error_eq_ok, ite_error_eq_ok, not_not, not_le]
  refine and_congr_right fun _ => and_congr_right fun _ => ?_
  cases fs.realpath (stripSlash ftpRoot) with
  | none => simp
  | some root =>
    cases fs.realpath currentPath with
    | none => simp
    | some current =>
      simp only [ite_error_eq_ok, Except.ok.injEq, Option.some.injEq, not_not]
      constructor
      · rintro ⟨h1, h2, rfl⟩
        exact ⟨root, current, rfl, rfl, (admits_iff root current).2 ⟨h1, h2⟩, rfl⟩
      · rintro ⟨_, _, rfl, rfl, hadmits, rfl⟩
        obtain ⟨h1, h2⟩ := (admits_iff root current).1 hadmits
        exact ⟨h1, h2, rfl⟩

theorem basePath_eq_ok {root current : HostPath} {user base : Bytes} :
    basePath root.text current.text user = .ok base ↔
      (if user.head? = some slash then root else current).text.length < pathMax ∧
        base = (if user.head? = some slash then root else current).text := by
  rw [basePath, ite_error_eq_ok, not_le, Except.ok.injEq]
  split <;> rw [stripSlash_text, eq_comm (a := base)]

theorem strtok_none {s : Bytes} (h : strtok s = none) : Lexical.components slash s = [] := by
  rw [← Lexical.components_dropWhile]
  unfold strtok at h
  by_cases hs : s.dropWhile (· = slash) = []
  · rw [hs, Lexical.components_nil]
  · simp [hs] at h

theorem strtok_some {s token rest : Bytes} (h : strtok s = some (token, rest)) :
    Lexical.components slash s = token :: Lexical.components slash rest := by
  rw [← Lexical.components_dropWhile]
  unfold strtok at h
  cases hs : s.dropWhile (· = slash) with
  | nil => simp [hs] at h
  | cons x t =>
    have hx : x ≠ slash := by
      have := List.head?_dropWhile_not (· = slash) s
      simpa [hs] using this
    simp only [hs, reduceCtorEq, if_false, Option.some.injEq, Prod.mk.injEq] at h
    rw [Lexical.components_cons hx, h.1, h.2]

/-- The loop around `strtok` finds the components, as many as there is room for. -/
theorem splitLoop_eq (room : ℕ) (s : Bytes) :
    splitLoop room s = (Lexical.components slash s).take room := by
  induction room generalizing s with
  | zero => simp [splitLoop]
  | succ room ih =>
    rw [splitLoop]
    cases h : strtok s with
    | none => simp [strtok_none h]
    | some tr => simp [strtok_some h, ih]

theorem splitPath_eq_ok {user : Bytes} {comps : List Bytes} :
    splitPath user = .ok comps ↔
      user.length < pathMax * 2 ∧ comps = (Lexical.components slash user).take (pathMax - 1) := by
  rw [splitPath, ite_error_eq_ok, not_le, splitLoop_eq, Except.ok.injEq, eq_comm]

theorem finalPath_eq_ok {fs : FileSystem} {target out : Bytes} :
    finalPath fs target = .ok out ↔
      (∃ q, fs.realpath target = some q ∧ out = q.text) ∨
        (fs.realpath target = none ∧ target.length < pathMax ∧ out = target) := by
  unfold finalPath
  cases fs.realpath target with
  | none => simp [ite_error_eq_ok, eq_comm (a := out)]
  | some q => simp [eq_comm]

theorem finish_eq_ok {fs : FileSystem} {root target out : Bytes} {outputSz : ℕ}
    (h : root <+: target) :
    finish fs root target outputSz = .ok out ↔
      finalPath fs target = .ok out ∧ root <+: out ∧ out.length < outputSz := by
  rw [finish, ite_error_eq_ok, bind_eq_ok]
  simp only [h, not_true_eq_false, not_false_eq_true, true_and, ite_error_eq_ok, not_not, not_le,
    Except.ok.injEq]
  constructor
  · rintro ⟨_, hfinal, hpre, hlen, rfl⟩
    exact ⟨hfinal, hpre, hlen⟩
  · rintro ⟨hfinal, hpre, hlen⟩
    exact ⟨out, hfinal, hpre, hlen, rfl⟩

/-! ## The whole function -/

/-- A call with these arguments gets as far as looking up `target`, the path the walk ends in. -/
structure Walks (fs : FileSystem) (ftpRoot currentPath user : Bytes) (root target : HostPath) :
    Prop where
  absolute : ftpRoot.head? = some slash
  rootShort : ftpRoot.length < pathMax
  realRoot : fs.realpath (stripSlash ftpRoot) = some root
  userShort : user.length < pathMax * 2
  /-- The current path is accepted, and the walk from the base does not get too long. -/
  walks : ∃ current, fs.realpath currentPath = some current ∧ Admits root current ∧
    (if user.head? = some slash then root else current).text.length < pathMax ∧
    lexicalWalk root (if user.head? = some slash then root else current)
      ((Lexical.components slash user).take (pathMax - 1)) = some target

theorem HostPath.Contains.refl (p : HostPath) : p.Contains p := List.prefix_rfl

theorem Admits.base {root current : HostPath} (h : Admits root current) (user : Bytes) :
    root.Contains (if user.head? = some slash then root else current) := by
  split
  · exact .refl root
  · exact h.1

theorem isName_of_mem_take {user n : Bytes} {room : ℕ}
    (h : n ∈ (Lexical.components slash user).take room) : Lexical.IsName slash n :=
  Lexical.isName_of_mem_components (List.mem_of_mem_take h)

theorem Walks.contains {fs : FileSystem} {ftpRoot currentPath user : Bytes} {root target : HostPath}
    (h : Walks fs ftpRoot currentPath user root target) : root.Contains target := by
  obtain ⟨current, -, hadmits, -, hwalk⟩ := h.walks
  exact lexicalWalk_contains (hadmits.base user) (fun n => isName_of_mem_take) hwalk

/-- The walk of the function, from a base at or below the root. -/
theorem walk_eq_ok {root base : HostPath} {comps : List Bytes} {result : Bytes}
    (hshort : base.text.length < pathMax) (h : root.Contains base)
    (hcomps : ∀ n ∈ comps, Lexical.IsName slash n) :
    walk root.text base.text comps = .ok result ↔
      ∃ target, lexicalWalk root base comps = some target ∧ result = target.text := by
  rw [walk, if_neg (by omega), walk_eq h hcomps]
  cases lexicalWalk root base comps with
  | none => simp
  | some target => simp [eq_comm]

/-- **The function, seen on names.** -/
theorem luftpdResolvePath_eq_ok {fs : FileSystem} {ftpRoot currentPath user : Bytes} {outputSz : ℕ}
    {out : Bytes} :
    luftpdResolvePath fs ftpRoot currentPath user outputSz = .ok out ↔
      ∃ root target, Walks fs ftpRoot currentPath user root target ∧
        finalPath fs target.text = .ok out ∧ root.text <+: out ∧ out.length < outputSz := by
  rw [luftpdResolvePath, ite_error_eq_ok]
  simp only [bind_eq_ok, checkPaths_eq_ok, splitPath_eq_ok]
  constructor
  · rintro ⟨-, _, ⟨habs, hlen, root, current, hroot, hcurrent, hadmits, rfl⟩, base, hbase, _,
      ⟨huser, rfl⟩, result, hwalk, hfinish⟩
    obtain ⟨hshort, rfl⟩ := basePath_eq_ok.1 hbase
    obtain ⟨target, htarget, rfl⟩ := (walk_eq_ok hshort (hadmits.base user)
      fun n => isName_of_mem_take).1 hwalk
    have hwalks : Walks fs ftpRoot currentPath user root target :=
      ⟨habs, hlen, hroot, huser, current, hcurrent, hadmits, hshort, htarget⟩
    exact ⟨root, target, hwalks, (finish_eq_ok hwalks.contains.text_prefix).1 hfinish⟩
  · rintro ⟨root, target, hwalks, hfinal⟩
    obtain ⟨current, hcurrent, hadmits, hshort, hwalk⟩ := hwalks.walks
    refine ⟨by omega, _, ⟨hwalks.absolute, hwalks.rootShort, root, current, hwalks.realRoot,
      hcurrent, hadmits, rfl⟩, _, basePath_eq_ok.2 ⟨hshort, rfl⟩, _, ⟨hwalks.userShort, rfl⟩,
      target.text, ?_, ?_⟩
    · exact (walk_eq_ok hshort (hadmits.base user)
        fun n => isName_of_mem_take).2 ⟨target, hwalk, rfl⟩
    · exact (finish_eq_ok hwalks.contains.text_prefix).2 hfinal

/-! ## Containment -/

/-- The call lets a symbolic link through: the walk ends in a path that leads out of the root, to a
place whose string begins with the string of the root all the same. -/
def LinkedToSibling (fs : FileSystem) (ftpRoot currentPath user : Bytes) (outputSz : ℕ) : Prop :=
  ∃ root target place, Walks fs ftpRoot currentPath user root target ∧
    fs.realpath target.text = some place ∧ ¬ root.Contains place ∧ root.text <+: place.text ∧
    place.text.length < outputSz

/-- **What is returned lies in the root exactly if no link to a sibling is followed.** -/
theorem resolve_contained_iff (fs : FileSystem) (ftpRoot currentPath user : Bytes)
    (outputSz : ℕ) :
    (∀ out, luftpdResolvePath fs ftpRoot currentPath user outputSz = .ok out →
      ∃ root, fs.realpath (stripSlash ftpRoot) = some root ∧ Lexical.Inside slash root.text out) ↔
    ¬ LinkedToSibling fs ftpRoot currentPath user outputSz := by
  constructor
  · rintro h ⟨root, target, place, hwalks, hplace, hout, hpre, hlen⟩
    obtain ⟨root', hroot', hin⟩ := h place.text (luftpdResolvePath_eq_ok.2
      ⟨root, target, hwalks, finalPath_eq_ok.2 (.inl ⟨place, hplace, rfl⟩), hpre, hlen⟩)
    obtain rfl : root = root' := Option.some.inj (hwalks.realRoot.symm.trans hroot')
    exact hout ((HostPath.inside_iff root place).1 hin)
  · intro h out hok
    obtain ⟨root, target, hwalks, hfinal, hpre, hlen⟩ := luftpdResolvePath_eq_ok.1 hok
    refine ⟨root, hwalks.realRoot, ?_⟩
    obtain ⟨place, hplace, rfl⟩ | ⟨-, -, rfl⟩ := finalPath_eq_ok.1 hfinal
    · refine (HostPath.inside_iff root place).2 (by_contra fun hout => h ?_)
      exact ⟨root, target, place, hwalks, hplace, hout, hpre, hlen⟩
    · exact (HostPath.inside_iff root target).2 hwalks.contains

/-- The path `/srv/ftp`. -/
def srvFtp : HostPath := ⟨[textBytes "srv", textBytes "ftp"], by decide⟩

/-- The directory `/srv/ftp` is the root, and in it `old` is a symbolic link to its neighbour
`/srv/ftp-old`. -/
def linkedFileSystem : FileSystem :=
  .ofTable
    [(textBytes "/srv/ftp", srvFtp),
      (textBytes "/srv/ftp/old", ⟨[textBytes "srv", textBytes "ftp-old"], by decide⟩),
      (textBytes "/srv/ftp-old", ⟨[textBytes "srv", textBytes "ftp-old"], by decide⟩)]

/-- The neighbour of the root is returned. -/
theorem resolve_leaves_root :
    ∃ (fs : FileSystem) (ftpRoot currentPath user out : Bytes) (root : HostPath), fs.Lawful ∧
      luftpdResolvePath fs ftpRoot currentPath user pathMax = .ok out ∧
        fs.realpath (stripSlash ftpRoot) = some root ∧ ¬ Lexical.Inside slash root.text out :=
  ⟨linkedFileSystem, textBytes "/srv/ftp", textBytes "/srv/ftp", textBytes "old",
    textBytes "/srv/ftp-old", srvFtp, .of_table (by decide) (by decide),
    by decide +kernel, by decide +kernel, by unfold Lexical.Inside Lexical.Continues; decide⟩

end Lucp.Luftpd
