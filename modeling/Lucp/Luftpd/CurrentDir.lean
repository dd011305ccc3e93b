import Lucp.Luftpd.Transfer
import Lucp.Luftpd.VirtualPath

/-!
# What becomes of `current_dir`

`luftpd_handle_cwd` means to store the path of the directory relative to the root.  It skips as many
characters of the path as `root_dir` has in the configuration; but the path begins with what
`realpath()` has made of `root_dir`, and that can be shorter.  What is behind the end of the path is
then read, and for the root `/` it is the first `/` that is missing.

## What is here

* `DirState`, `dirSystem` — a session as a sequence of turns, with the directory the last successful
  `CWD` has changed to; `dirSystem_of_session` says that no session is left out.
* `foundDir` — the directory a turn changes to, in terms of what the turn starts from.
* `current_dir_iff` — **when `current_dir` designates that directory**: exactly as long as each
  `CWD` that finds a directory finds `/`, and with `root_dir = "/"`.
-/

set_option autoImplicit false

namespace Lucp.Luftpd

/-! ## Sessions as sequences of turns -/

/-- A session between two turns. -/
structure DirState where
  client : LuftpdClient
  /-- The loop goes on. -/
  more : Bool
  /-- The directory the last successful `CWD` has changed to; at first, the root. -/
  directory : Bytes

/-- The reply to a successful `CWD`. -/
def cwdDone : Bytes := luftpdSendResponse (textBytes "250 Directory successfully changed")

/-- The first file that `stat()` is asked for. -/
def statted (tr : ClientTrace) : Option Bytes :=
  tr.findSome? fun e =>
    match e.op with
    | .host (.stat path) => some path
    | _ => none

/-- The directory a turn changes to, if it is a `CWD` that succeeds. -/
def changedTo : ClientTrace → Option Bytes
  | _ :: ⟨_, .sys .control .recv, received⟩ :: tr =>
    if (commandOf received.bytes).1 = textBytes "CWD" ∧ ∃ e ∈ tr, e.op = .reply cwdDone then
      statted tr
    else none
  | _ => none

/-- The turns of a session, as long as the file system does not change; `root` is the real path of
the root. -/
def dirSystem (cfg : LuftpdConfig) (fs : FileSystem) (root : HostPath) :
    System DirState ClientTrace where
  init s := ∃ sock threadId, 0 ≤ sock ∧ s = ⟨newClient sock threadId, true, root.text⟩
  step s tr s' := s.more = true ∧ (∀ e ∈ tr, e.env.fs = fs) ∧
    (luftpdServe cfg).Runs ClientOp.exec s.client tr s'.more s'.client ∧
    s'.directory = (changedTo tr).getD s.directory

variable {cfg : LuftpdConfig} {fs : FileSystem} {root : HostPath}

/-- **No session is left out**: at the end of a turn it is in a state of the system. -/
theorem dirSystem_of_session {s₀ : FtpSession} {es : List OsAnswer} {c : LuftpdClient} {more : Bool}
    (hinit : (clientSession cfg).init s₀) (hfs : ∀ os ∈ es, os.fs = fs)
    (h : (clientSession cfg).Run s₀ es ⟨c, .serving (.done more)⟩) :
    ∃ s, (dirSystem cfg fs root).Reachable s ∧ s.client = c ∧ s.more = more := by
  let P (c : LuftpdClient) : Prop :=
    ∃ s, (dirSystem cfg fs root).Reachable s ∧ s.client = c ∧ s.more = true
  have hnew (sock threadId : Int) (hsock : 0 ≤ sock) : P (newClient sock threadId) :=
    ⟨_, .of_init ⟨sock, threadId, hsock, rfl⟩, rfl, rfl⟩
  have hturn (c : LuftpdClient) (tr : ClientTrace) (c' : LuftpdClient) (more : Bool) (hc : P c)
      (htr : ∀ e ∈ tr, e.env.fs = fs) (hrun : (luftpdServe cfg).Runs ClientOp.exec c tr more c') :
      ∃ s, (dirSystem cfg fs root).Reachable s ∧ s.client = c' ∧ s.more = more := by
    obtain ⟨s, hs, rfl, hmore⟩ := hc
    refine ⟨⟨c', more, (changedTo tr).getD s.directory⟩, hs.step ⟨hmore, htr, hrun, rfl⟩, rfl, rfl⟩
  obtain ⟨script, c₀, tr, hbegin, htr, hsteps⟩ :=
    serving_of_turns (fun os : OsAnswer => os.fs = fs) P hnew
      (fun c tr c' hc htr hrun => hturn c tr c' true hc htr hrun) hinit hfs h
  obtain ⟨rfl, sock, threadId, hsock, rfl⟩ | ⟨rfl, hP⟩ := hbegin
  · obtain ⟨rfl, rfl⟩ := welcome_runs hsteps
    exact hnew sock threadId hsock
  · exact hturn c₀ tr c more hP htr hsteps

/-! ## One turn -/

/-- What `luftpd_handle_cwd` makes of the directory `dir`. -/
def newCurrentDir (rootDir dir behind : Bytes) : Bytes :=
  if relativePath rootDir dir behind = [] then [slash]
  else (relativePath rootDir dir behind).take (pathMax - 1)

/-- The directory that a turn finds, and what the stack holds behind its path, from the record it
starts with and the answers it gets. -/
def foundDir (cfg : LuftpdConfig) (fs : FileSystem) (c : LuftpdClient) :
    List OsAnswer → Option (Bytes × Bytes)
  | _ :: received :: _ :: _ :: st :: stack :: _ =>
    if (commandOf received.bytes).1 = textBytes "CWD" ∧ st.ret = 0 ∧ st.kind = .directory then
      match luftpdResolvePath fs cfg.rootDir c.currentDir (commandOf received.bytes).2 pathMax with
      | .error _ => none
      | .ok dir => some (dir, stack.bytes)
    else none
  | _ => none

/-- Only a `CWD` finds a directory. -/
theorem foundDir_of_ne {c : LuftpdClient} {e received : OsAnswer} {answers : List OsAnswer}
    (h : (commandOf received.bytes).1 ≠ textBytes "CWD") :
    foundDir cfg fs c (e :: received :: answers) = none := by
  match answers with
  | [] | [_] | [_, _] | [_, _, _] => rfl
  | _ :: _ :: st :: stack :: _ => rw [foundDir, if_neg fun hall => h hall.1]

/-- The handler, with the two cases of the new directory put together. -/
theorem handleCwd_eq (arg : Bytes) :
    luftpdHandleCwd cfg arg
      = withFile cfg arg .directory "550 Directory not found" (fun dir _ => do
        let stack ← doOp (.host .stack)
        doOp (.setCurrentDir (newCurrentDir cfg.rootDir dir stack.bytes))
        reply "250 Directory successfully changed") := by
  refine congrArg (withFile cfg arg _ _) (funext₂ fun dir _ => ?_)
  refine congrArg (doOp (.host .stack) >>= ·) (funext fun stack => ?_)
  dsimp only
  by_cases hnil : relativePath cfg.rootDir dir stack.bytes = []
  · rw [if_pos hnil, newCurrentDir, if_pos hnil]
  · rw [if_neg hnil, newCurrentDir, if_neg hnil]

theorem runs_reply_iff {text : String} {c c' : LuftpdClient} {tr : ClientTrace} {u : Unit} :
    (reply text).Runs ClientOp.exec c tr u c' ↔
      (∃ e, tr = [⟨c, .reply (luftpdSendResponse (textBytes text)), e⟩]) ∧ c' = c := by
  rw [reply, luftpdRespond, Script.runs_op_iff]
  constructor
  · rintro ⟨e, rfl, -, rfl⟩
    exact ⟨⟨e, rfl⟩, rfl⟩
  · rintro ⟨⟨e, rfl⟩, rfl⟩
    exact ⟨e, rfl, rfl, rfl⟩

theorem resolve_runs {arg : Bytes} {c c' : LuftpdClient} {tr : ClientTrace}
    {r : Except Errno Bytes} (h : (resolve cfg arg).Runs ClientOp.exec c tr r c')
    (hfs : ∀ e ∈ tr, e.env.fs = fs) :
    c' = c ∧ r = luftpdResolvePath fs cfg.rootDir c.currentDir arg pathMax ∧
      ∃ e₁ e₂, tr = [⟨c, .currentDir, e₁⟩, ⟨c, .host .realpath, e₂⟩] := by
  obtain ⟨e₁, tr₁, rfl, hreal⟩ := Script.runs_op_bind_iff.1 h
  obtain ⟨e₂, tr₂, rfl, hdone⟩ := Script.runs_op_bind_iff.1 hreal
  obtain ⟨rfl, rfl, rfl⟩ := Script.runs_pure_iff.1 hdone
  have he₂ : e₂.fs = fs := hfs _ (List.mem_cons_of_mem _ List.mem_cons_self)
  rw [← he₂]
  exact ⟨rfl, rfl, e₁, e₂, rfl⟩

/-- What `luftpd_handle_cwd` can do with the record `c`. -/
inductive CwdRun (cfg : LuftpdConfig) (fs : FileSystem) (arg : Bytes) (c : LuftpdClient) :
    ClientTrace → LuftpdClient → Prop
  | unresolved {err : Errno} {tr : ClientTrace}
      (hresolve : luftpdResolvePath fs cfg.rootDir c.currentDir arg pathMax = .error err)
      (hno : ∀ e ∈ tr, e.op ≠ .reply cwdDone) (hlen : tr.length = 3) : CwdRun cfg fs arg c tr c
  | noDirectory {e₁ e₂ st e₃ : OsAnswer} {tr : ClientTrace}
      (hst : ¬ (st.ret = 0 ∧ st.kind = .directory)) (hno : ∀ e ∈ tr, e.op ≠ .reply cwdDone)
      (hanswers : tr.map (·.env) = [e₁, e₂, st, e₃]) : CwdRun cfg fs arg c tr c
  | changed {e₁ e₂ st stack e₃ e₄ : OsAnswer} {dir : Bytes} {c' : LuftpdClient}
      (hresolve : luftpdResolvePath fs cfg.rootDir c.currentDir arg pathMax = .ok dir)
      (hret : st.ret = 0) (hkind : st.kind = .directory)
      (hc : c' = { c with currentDir := newCurrentDir cfg.rootDir dir stack.bytes }) :
      CwdRun cfg fs arg c
        [⟨c, .currentDir, e₁⟩, ⟨c, .host .realpath, e₂⟩, ⟨c, .host (.stat dir), st⟩,
          ⟨c, .host .stack, stack⟩, ⟨c, .setCurrentDir c'.currentDir, e₃⟩,
          ⟨c', .reply cwdDone, e₄⟩] c'

theorem handleCwd_runs {arg : Bytes} {c c' : LuftpdClient} {tr : ClientTrace} {u : Unit}
    (h : (luftpdHandleCwd cfg arg).Runs ClientOp.exec c tr u c') (hfs : ∀ e ∈ tr, e.env.fs = fs) :
    CwdRun cfg fs arg c tr c' := by
  rw [handleCwd_eq, withFile] at h
  obtain ⟨tr₁, r, c₁, tr₂, rfl, hresolve, hrest⟩ := Script.runs_bind_iff.1 h
  obtain ⟨rfl, hr, e₁, e₂, rfl⟩ :=
    resolve_runs hresolve fun e he => hfs e (List.mem_append_left _ he)
  have hunresolved : luftpdSendResponse (textBytes "550 Failed to resolve path") ≠ cwdDone := by
    decide
  have hnoDirectory : luftpdSendResponse (textBytes "550 Directory not found") ≠ cwdDone := by
    decide
  cases r with
  | error err =>
    obtain ⟨⟨e₃, rfl⟩, rfl⟩ := runs_reply_iff.1 hrest
    exact .unresolved hr.symm (by simpa using hunresolved) rfl
  | ok dir =>
    obtain ⟨st, tr₃, rfl, hst⟩ := Script.runs_op_bind_iff.1 hrest
    obtain ⟨hno, hend⟩ | ⟨hyes, hend⟩ := Script.runs_ite_iff.1 hst
    · obtain ⟨⟨e₃, rfl⟩, rfl⟩ := runs_reply_iff.1 hend
      exact .noDirectory (fun hst => hno.elim (· hst.1) (· hst.2)) (by simpa using hnoDirectory) rfl
    · obtain ⟨hret, hkind⟩ := not_or.1 hyes
      obtain ⟨stack, tr₄, rfl, hset⟩ := Script.runs_op_bind_iff.1 hend
      obtain ⟨e₃, tr₅, rfl, hdone⟩ := Script.runs_op_bind_iff.1 hset
      obtain ⟨⟨e₄, rfl⟩, rfl⟩ := runs_reply_iff.1 hdone
      exact .changed hr.symm (not_not.1 hret) (not_not.1 hkind) rfl

/-- A turn with these calls changes to the directory that is found, if one is. -/
structure Changes (cfg : LuftpdConfig) (found : Option (Bytes × Bytes)) (tr : ClientTrace)
    (c c' : LuftpdClient) : Prop where
  changedTo : changedTo tr = found.map (·.1)
  currentDir : c'.currentDir =
    (found.map fun found => newCurrentDir cfg.rootDir found.1 found.2).getD c.currentDir

/-- A `CWD`. -/
theorem cwdTurn_found {arg : Bytes} {c c' : LuftpdClient} {e received : OsAnswer}
    {tr : ClientTrace} (hcommand : commandOf received.bytes = (textBytes "CWD", arg))
    (h : CwdRun cfg fs arg c tr c') :
    Changes cfg (foundDir cfg fs c (e :: received :: tr.map (·.env)))
      (⟨c, .isActive, e⟩ :: ⟨c, .sys .control .recv, received⟩ :: tr) c c' := by
  have hcwd : (commandOf received.bytes).1 = textBytes "CWD" := by rw [hcommand]
  cases h with
  | unresolved _ hno hlen =>
    have hfound : foundDir cfg fs c (e :: received :: tr.map (·.env)) = none := by
      obtain ⟨x, y, z, rfl⟩ := List.length_eq_three.1 hlen
      rfl
    rw [hfound]
    exact ⟨if_neg fun hall => hall.2.elim fun e he => hno e he.1 he.2, rfl⟩
  | noDirectory hst hno hanswers =>
    rw [hanswers, foundDir, if_neg fun hall => hst hall.2]
    exact ⟨if_neg fun hall => hall.2.elim fun e he => hno e he.1 he.2, rfl⟩
  | changed hresolve hret hkind hc =>
    refine ⟨(if_pos ⟨hcwd, by simp⟩).trans ?_, ?_⟩
    · simp [foundDir, statted, hcommand, hret, hkind, hresolve]
    · simp [foundDir, hcommand, hret, hkind, hresolve, hc]

/-- What a turn finds is what it changes to. -/
theorem DirState.step_found {s s' : DirState} {tr : ClientTrace}
    (hs : (dirSystem cfg fs root).step s tr s') :
    Changes cfg (foundDir cfg fs s.client (tr.map (·.env))) tr s.client s'.client := by
  obtain ⟨-, hfs, hrun, -⟩ := hs
  obtain ⟨-, -, hc, e, rfl⟩ | ⟨-, e, received, tr', rfl, hturn⟩ := serve_runs_iff.1 hrun
  · rw [hc]
    exact ⟨rfl, rfl⟩
  · obtain ⟨-, -, hc, rfl⟩ | ⟨-, hcommand⟩ := hturn
    · rw [hc]
      exact ⟨by simp [changedTo, foundDir], rfl⟩
    · by_cases hcwd : (commandOf received.bytes).1 = textBytes "CWD"
      · rw [hcwd, handleCommand_cwd] at hcommand
        obtain ⟨tr₁, u, c₁, tr₂, rfl, hhandler, hend⟩ := Script.runs_bind_iff.1 hcommand
        obtain ⟨rfl, -, hc⟩ := Script.runs_pure_iff.1 hend
        rw [hc, List.append_nil]
        exact cwdTurn_found (Prod.ext hcwd rfl)
          (handleCwd_runs hhandler fun e he => hfs e (by simp [he]))
      · have hstays : s'.client.currentDir = s.client.currentDir :=
          (stays_handleCommand cfg _ hcwd).keeps (fun c => c.currentDir = s.client.currentDir)
            (fun o ho c os hc => (ho.currentDir_exec c os).trans hc) hcommand rfl
        rw [List.map_cons, List.map_cons, foundDir_of_ne hcwd]
        exact ⟨if_neg fun hall => hcwd hall.1, hstays⟩

/-! ## When the new directory is the right one -/

/-- `currentDir` designates the directory `dir` of a server whose root is `/`. -/
def Designates (currentDir dir : Bytes) : Prop :=
  currentDir.head? = some slash ∧
    Lexical.components slash currentDir = Lexical.components slash dir

/-- What the handler makes of `dir` designates it, by the look of its arguments: nothing is skipped
but the one `/` of the root itself, or by chance what is behind the end of the path will do. -/
def Spared (rootDir dir behind : Bytes) : Prop :=
  (rootDir = [slash] ∧ dir = [slash]) ∨
    (dir.length < rootDir.length ∧
      let chance := cString (behind.drop (rootDir.length - dir.length - 1))
      (chance = [] ∧ dir = [slash]) ∨ Designates (chance.take (pathMax - 1)) dir)

theorem HostPath.text_eq_slash_iff (p : HostPath) : p.text = [slash] ↔ p.names = [] := by
  constructor
  · exact fun h => Lexical.text_injective p.isName (by simp) (h.trans (by simp [Lexical.text]))
  · exact fun h => by simp [HostPath.text, h, Lexical.text]

/-- Behind the end of the path. -/
theorem relativePath_of_lt {rootDir dir : Bytes} (behind : Bytes)
    (h : dir.length < rootDir.length) :
    relativePath rootDir dir behind
      = cString (behind.drop (rootDir.length - dir.length - 1)) := by
  obtain ⟨k, hk⟩ : ∃ k, rootDir.length = dir.length + k + 1 :=
    ⟨rootDir.length - dir.length - 1, by omega⟩
  rw [relativePath, List.drop_append, List.drop_of_length_le h.le, List.nil_append, hk]
  congr 1
  rw [show dir.length + k + 1 - dir.length = k + 1 by omega, List.drop_succ_cons,
    show k + 1 - 1 = k by omega]

theorem cString_append_zero (s t : Bytes) : cString (s ++ 0 :: t) = cString s := by
  induction s with
  | nil => rfl
  | cons x s ih =>
    by_cases hx : x = 0
    · simp [cString, hx]
    · simpa [cString, hx] using ih

/-- Within the path, what is left is shorter. -/
theorem length_relativePath_le {rootDir dir : Bytes} (behind : Bytes)
    (h : rootDir.length ≤ dir.length) :
    (relativePath rootDir dir behind).length + rootDir.length ≤ dir.length := by
  have hle : (cString (dir.drop rootDir.length)).length ≤ (dir.drop rootDir.length).length :=
    (List.takeWhile_prefix _).length_le
  rw [relativePath, List.drop_append_of_le_length h, cString_append_zero]
  rw [List.length_drop] at hle
  omega

/-- A string that designates a directory other than `/` is at least as long as its path. -/
theorem Designates.length_le {currentDir : Bytes} {p : HostPath}
    (h : Designates currentDir p.text) : p.text.length ≤ currentDir.length := by
  obtain ⟨hhead, hnames⟩ := h
  rw [HostPath.text, Lexical.components_text p.isName] at hnames
  cases currentDir with
  | nil => cases hhead
  | cons x rest =>
    obtain rfl : x = slash := Option.some.inj hhead
    have hlen : (Lexical.below slash (Lexical.components slash rest)).length ≤ rest.length + 1 :=
      Lexical.length_below_components rest
    rw [Lexical.components_sep_cons] at hnames
    rw [hnames] at hlen
    by_cases hnil : p.names = []
    · rw [p.text_eq_slash_iff.2 hnil]
      simp
    · rwa [HostPath.text, Lexical.text_of_ne_nil hnil, List.length_cons]

theorem designates_slash {p : HostPath} : Designates [slash] p.text ↔ p.text = [slash] := by
  constructor
  · intro h
    have hnames := h.2
    rw [HostPath.text, Lexical.components_text p.isName] at hnames
    exact p.text_eq_slash_iff.2 hnames.symm
  · intro h
    rw [h]
    exact ⟨rfl, rfl⟩

/-- Behind the end of the path, the stack decides. -/
theorem designates_iff_of_lt {rootDir : Bytes} {p : HostPath} (behind : Bytes)
    (h : p.text.length < rootDir.length) :
    Designates (newCurrentDir rootDir p.text behind) p.text ↔ Spared rootDir p.text behind := by
  rw [newCurrentDir, relativePath_of_lt behind h]
  by_cases hnil : cString (behind.drop (rootDir.length - p.text.length - 1)) = []
  · rw [if_pos hnil, designates_slash]
    constructor
    · exact fun hslash => .inr ⟨h, .inl ⟨hnil, hslash⟩⟩
    · rintro (⟨-, hslash⟩ | ⟨-, ⟨-, hslash⟩ | ⟨hhead, -⟩⟩)
      · exact hslash
      · exact hslash
      · rw [hnil] at hhead
        cases hhead
  · rw [if_neg hnil]
    constructor
    · exact fun hdir => .inr ⟨h, .inr hdir⟩
    · rintro (⟨hroot, hslash⟩ | ⟨-, ⟨hchance, -⟩ | hdir⟩)
      · rw [hroot, hslash] at h
        exact absurd h (lt_irrefl _)
      · exact absurd hchance hnil
      · exact hdir

/-- Within the path, what is left has room for fewer names. -/
theorem designates_iff_of_le {rootDir : Bytes} (habs : rootDir.head? = some slash) {p : HostPath}
    (behind : Bytes) (h : rootDir.length ≤ p.text.length) :
    Designates (newCurrentDir rootDir p.text behind) p.text ↔
      rootDir = [slash] ∧ p.text = [slash] := by
  have hshort := length_relativePath_le behind h
  rw [newCurrentDir]
  constructor
  · intro hdir
    have hlen := hdir.length_le
    by_cases hnil : relativePath rootDir p.text behind = []
    · rw [if_pos hnil, designates_slash] at hdir
      refine ⟨?_, hdir⟩
      rw [hdir] at h
      match rootDir, habs with
      | [x], habs => rw [Option.some.inj habs]
      | _ :: _ :: _, _ => simp at h
    · rw [if_neg hnil, List.length_take] at hlen
      have hpos : 0 < rootDir.length := List.length_pos_iff.2 fun h => by simp [h] at habs
      omega
  · rintro ⟨rfl, hslash⟩
    have hnil : relativePath [slash] p.text behind = [] := by rw [hslash]; rfl
    rwa [if_pos hnil, designates_slash]

/-- **When the handler keeps track of where it is**, if the real root is `/`. -/
theorem designates_newCurrentDir_iff {rootDir : Bytes} (habs : rootDir.head? = some slash)
    (p : HostPath) (behind : Bytes) :
    Designates (newCurrentDir rootDir p.text behind) p.text ↔ Spared rootDir p.text behind := by
  rcases lt_or_ge p.text.length rootDir.length with hlt | hle
  · exact designates_iff_of_lt behind hlt
  · rw [designates_iff_of_le habs behind hle, Spared,
      or_iff_left fun h => absurd h.1 (not_lt.2 hle)]

/-! ## Over a session -/

/-- `current_dir` is a path, and behind the root it designates the directory. -/
def FollowsRoot (root : HostPath) (s : DirState) : Prop :=
  s.client.currentDir.head? = some slash ∧
    Lexical.components slash (root.text ++ s.client.currentDir)
      = Lexical.components slash s.directory

/-- If a `CWD` finds a directory, it is spared. -/
def SparedTurn (cfg : LuftpdConfig) (fs : FileSystem) (s : DirState) (tr : ClientTrace) : Prop :=
  ∀ dir behind, foundDir cfg fs s.client (tr.map (·.env)) = some (dir, behind) →
    Spared cfg.rootDir dir behind

/-- Unless the root is `/`, the session stays where it is. -/
def Stuck (root : HostPath) (s : DirState) : Prop := root ≠ .root → s.client.currentDir = [slash]

theorem followsRoot_root {s : DirState} :
    FollowsRoot .root s ↔ Designates s.client.currentDir s.directory := by
  rw [FollowsRoot, Designates, show HostPath.root.text = [slash] from rfl, List.singleton_append,
    Lexical.components_sep_cons]

theorem components_text_slash (p : HostPath) :
    Lexical.components slash (p.text ++ [slash]) = Lexical.components slash p.text := by
  by_cases hnil : p.names = []
  · rw [p.text_eq_slash_iff.2 hnil]
    simp
  · rw [HostPath.text, Lexical.text_of_ne_nil hnil, Lexical.components_below p.isName,
      Lexical.components_below_append p.isName (Lexical.cut_cons _)]
    simp

/-- What is found has been resolved. -/
theorem resolve_of_foundDir {c : LuftpdClient} {answers : List OsAnswer} {dir behind : Bytes}
    (h : foundDir cfg fs c answers = some (dir, behind)) :
    ∃ arg, luftpdResolvePath fs cfg.rootDir c.currentDir arg pathMax = .ok dir := by
  unfold foundDir at h
  split at h
  · split at h
    · split at h
      · cases h
      · next hresolve =>
        cases h
        exact ⟨_, hresolve⟩
    · cases h
  · cases h

/-- **One turn.** -/
theorem DirState.step_iff (hroot : fs.realpath (stripSlash cfg.rootDir) = some root)
    (hhost : fs.realpath [slash] = some .root) {s s' : DirState} {tr : ClientTrace}
    (hstuck : Stuck root s) (hgood : FollowsRoot root s)
    (hs : (dirSystem cfg fs root).step s tr s') :
    Stuck root s' ∧ (FollowsRoot root s' ↔ SparedTurn cfg fs s tr) := by
  obtain ⟨hchanged, hdir⟩ := DirState.step_found hs
  have hdirectory : s'.directory = (changedTo tr).getD s.directory := hs.2.2.2
  rw [hchanged] at hdirectory
  unfold SparedTurn
  cases hfound : foundDir cfg fs s.client (tr.map (·.env)) with
  | none =>
    rw [hfound] at hdir hdirectory
    simp only [Option.map_none, Option.getD_none] at hdir hdirectory
    refine ⟨fun hne => hdir.trans (hstuck hne), fun _ _ _ h => (nomatch h), fun _ => ?_⟩
    rwa [FollowsRoot, hdir, hdirectory]
  | some found =>
    obtain ⟨dir, behind⟩ := found
    obtain ⟨arg, hresolve⟩ := resolve_of_foundDir hfound
    rw [hfound] at hdir hdirectory
    simp only [Option.map_some, Option.getD_some] at hdir hdirectory
    obtain rfl : root = .root := by
      by_contra hne
      rw [hstuck hne] at hresolve
      exact resolve_stuck hroot hhost hne arg dir hresolve
    obtain ⟨_, target, hwalks, hfinal, -⟩ := luftpdResolvePath_eq_ok.1 hresolve
    obtain ⟨p, rfl⟩ : ∃ p : HostPath, dir = p.text := by
      obtain ⟨q, -, rfl⟩ | ⟨-, -, rfl⟩ := finalPath_eq_ok.1 hfinal
      · exact ⟨q, rfl⟩
      · exact ⟨target, rfl⟩
    refine ⟨fun hne => absurd rfl hne, ?_⟩
    rw [followsRoot_root, hdir, hdirectory, designates_newCurrentDir_iff hwalks.absolute]
    constructor
    · rintro h _ _ ⟨⟩
      exact h
    · exact fun h => h _ _ rfl

/-- **When `current_dir` keeps track of the directory**: in every run, exactly as long as the turns
are spared.  A turn that does not change to another directory leaves it alone in any case. -/
theorem current_dir_iff (hroot : fs.realpath (stripSlash cfg.rootDir) = some root)
    (hhost : fs.realpath [slash] = some .root) {s₀ s : DirState} {trs : List ClientTrace}
    (hinit : (dirSystem cfg fs root).init s₀) :
    (((dirSystem cfg fs root).within (FollowsRoot root)).Run s₀ trs s ↔
        ((dirSystem cfg fs root).restrict (SparedTurn cfg fs)).Run s₀ trs s) ∧
      (((dirSystem cfg fs root).restrict (SparedTurn cfg fs)).Run s₀ trs s → FollowsRoot root s) ∧
      ∀ t tr t', (dirSystem cfg fs root).step t tr t' → changedTo tr = none →
        t'.client.currentDir = t.client.currentDir := by
  obtain ⟨sock, threadId, -, rfl⟩ := hinit
  have hgood : FollowsRoot root ⟨newClient sock threadId, true, root.text⟩ :=
    ⟨rfl, components_text_slash root⟩
  have hiff : ((dirSystem cfg fs root).within (FollowsRoot root)).Run
        ⟨newClient sock threadId, true, root.text⟩ trs s ↔
      ((dirSystem cfg fs root).restrict (SparedTurn cfg fs)).Run _ trs s :=
    System.Run.within_iff (SparedTurn cfg fs) (Stuck root) (FollowsRoot root) (fun _ => rfl) hgood
      fun _ _ _ hstuck hg hs => DirState.step_iff hroot hhost hstuck hg hs
  refine ⟨hiff, fun hrun => (hiff.2 hrun).within_last hgood, fun t tr t' hs hnone => ?_⟩
  obtain ⟨hchanged, hdir⟩ := DirState.step_found hs
  rw [hnone] at hchanged
  rw [hdir, Option.map_eq_none_iff.1 hchanged.symm]
  rfl

/-- A host with a directory `/pub`. -/
def pubFileSystem : FileSystem :=
  .ofTable [(textBytes "/", .root), (textBytes "/pub", ⟨[textBytes "pub"], by decide⟩)]

/-- A new session on this host. -/
def pubStart : DirState := ⟨newClient 4 1001, true, [slash]⟩

/-- What a turn gets that receives a line and finds a directory. -/
def cwdAnswers (line : Bytes) : List OsAnswer :=
  let quiet : OsAnswer := { ret := 0, fs := pubFileSystem, kind := .directory, size := 4096 }
  [quiet, { ret := line.length, fs := pubFileSystem, bytes := line }, quiet, quiet, quiet, quiet, quiet,
    quiet]

theorem pubStart_init : (dirSystem rootConfig pubFileSystem .root).init pubStart :=
  ⟨4, 1001, by decide, rfl⟩

/-- A turn of a new session with these answers. -/
theorem pubStart_turn (line : Bytes) (p : ClientTrace → DirState → Bool)
    (h : ((luftpdServe rootConfig).run ClientOp.exec pubStart.client (cwdAnswers line)).any
      (fun r => p r.1 ⟨r.2.2, r.2.1, (changedTo r.1).getD [slash]⟩) = true) :
    ∃ tr s, (dirSystem rootConfig pubFileSystem .root).step pubStart tr s ∧
      tr.map (·.env) = cwdAnswers line ∧ p tr s = true := by
  obtain ⟨tr, more, c, hrun, hanswers, hp⟩ := Script.exists_runs_env ClientOp.exec
    (luftpdServe rootConfig) pubStart.client (cwdAnswers line)
    (fun tr more c => p tr ⟨c, more, (changedTo tr).getD [slash]⟩) h
  refine ⟨tr, ⟨c, more, (changedTo tr).getD [slash]⟩, ⟨rfl, fun e he => ?_, hrun, rfl⟩, hanswers,
    hp⟩
  have hmem : e.env ∈ cwdAnswers line := hanswers ▸ List.mem_map_of_mem he
  simp only [cwdAnswers, List.mem_cons, List.not_mem_nil, or_false] at hmem
  rcases hmem with h | h | h | h | h | h | h | h <;> rw [h]

/-- `CWD /` does no harm. -/
theorem current_dir_iff_slash : ∃ trs s,
    ((dirSystem rootConfig pubFileSystem .root).restrict
      (SparedTurn rootConfig pubFileSystem)).Run pubStart trs s ∧
      s.client.currentDir = [slash] ∧ FollowsRoot .root s := by
  obtain ⟨tr, s, hs, hanswers, hp⟩ := pubStart_turn (textBytes "CWD /\r\n")
    (fun _ s => decide (s.client.currentDir = [slash])) (by decide +kernel)
  have hfound : foundDir rootConfig pubFileSystem pubStart.client (tr.map (·.env))
      = some ([slash], []) := by
    rw [hanswers]
    decide +kernel
  have hspared : SparedTurn rootConfig pubFileSystem pubStart tr := by
    intro dir behind h
    rw [hfound] at h
    cases h
    exact .inl ⟨by decide, rfl⟩
  have hrun : ((dirSystem rootConfig pubFileSystem .root).restrict
      (SparedTurn rootConfig pubFileSystem)).Run pubStart [tr] s := .single ⟨hspared, hs⟩
  exact ⟨_, s, hrun, of_decide_eq_true hp,
    (current_dir_iff (by decide) (by decide) pubStart_init).2.1 hrun⟩

/-- **The first `/` is lost**: a server whose root is `/` changes to `/pub`, and says that it has
done so. -/
theorem current_dir_without_slash : ∃ trs s,
    (dirSystem rootConfig pubFileSystem .root).init pubStart ∧
      (dirSystem rootConfig pubFileSystem .root).Run pubStart trs s ∧
      s.directory = textBytes "/pub" ∧ s.client.currentDir = textBytes "pub" ∧
      pubFileSystem.Lawful ∧ pubFileSystem.realpath (stripSlash rootConfig.rootDir) = some .root ∧
      ¬ FollowsRoot .root s := by
  obtain ⟨tr, s, hs, -, hp⟩ := pubStart_turn (textBytes "CWD pub\r\n")
    (fun _ s => decide (s.directory = textBytes "/pub" ∧ s.client.currentDir = textBytes "pub"))
    (by decide +kernel)
  obtain ⟨hdirectory, hdir⟩ := of_decide_eq_true hp
  refine ⟨[tr], s, pubStart_init, .single hs, hdirectory, hdir, .of_table (by decide) (by decide),
    by decide, fun h => ?_⟩
  have hhead := h.1
  rw [hdir] at hhead
  exact absurd hhead (by decide)

end Lucp.Luftpd
