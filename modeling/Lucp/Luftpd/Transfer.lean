import Lucp.Luftpd.Turns

/-!
# What `226 Transfer complete` means

`luftpd_handle_retr` sends a file block by block, and looks at the result of `send()` only to see
whether it is negative; then it stops, and in either case it replies that the transfer is complete.
`luftpd_send_raw`, which goes on until everything is sent, is not used.

## What is here

* `acceptedData`, `fileContent` — what the data connection has accepted in a run, and what is in the
  file.
* `forEach_retrPiece_runs` — **the loop delivers the file exactly if every `send()` is a full one.**
* `complete_iff_fullSends` — the same of the whole handler and its reply.
-/

set_option autoImplicit false

namespace Lucp.Luftpd

/-! ## What is sent, and what is there to send -/

/-- The bytes a call on the data connection has accepted. -/
def ClientOp.acceptedAs (ret : Int) : ClientOp → Bytes
  | .sys .data (.send buf) => buf.take ret.toNat
  | _ => []

/-- The bytes the data connection has accepted. -/
def acceptedData (tr : ClientTrace) : Bytes := tr.flatMap fun e => e.op.acceptedAs e.env.ret

/-- The call opens a file. -/
def ClientOp.isFopen : ClientOp → Bool
  | .host (.fopen _) => true
  | _ => false

/-- The blocks `fread()` is to deliver of the file that is opened. -/
def fileBlocks (tr : ClientTrace) : List Bytes :=
  tr.flatMap fun e => if e.op.isFopen ∧ 0 ≤ e.env.ret then e.env.items else []

/-- What is in the file. -/
def fileContent (tr : ClientTrace) : Bytes := (fileBlocks tr).flatten

/-- The client has been told that the transfer is complete. -/
def SaysComplete (tr : ClientTrace) : Prop :=
  ∃ e ∈ tr, e.op = .reply (luftpdSendResponse (textBytes "226 Transfer complete"))

instance (tr : ClientTrace) : Decidable (SaysComplete tr) :=
  inferInstanceAs (Decidable (∃ e ∈ tr, _))

/-- Unless it is a `send()` on the data connection, or one that accepts everything. -/
def ClientOp.fullAs (ret : Int) : ClientOp → Prop
  | .sys .data (.send buf) => buf.length ≤ ret
  | _ => True

/-- Every `send()` on the data connection has accepted all it was given. -/
def FullSends (tr : ClientTrace) : Prop := ∀ e ∈ tr, e.op.fullAs e.env.ret

theorem acceptedData_append (tr tr' : ClientTrace) :
    acceptedData (tr ++ tr') = acceptedData tr ++ acceptedData tr' := List.flatMap_append

theorem fileBlocks_append (tr tr' : ClientTrace) :
    fileBlocks (tr ++ tr') = fileBlocks tr ++ fileBlocks tr' := List.flatMap_append

theorem fullSends_append {tr tr' : ClientTrace} :
    FullSends (tr ++ tr') ↔ FullSends tr ∧ FullSends tr' := List.forall_mem_append

theorem saysComplete_append {tr tr' : ClientTrace} :
    SaysComplete (tr ++ tr') ↔ SaysComplete tr ∨ SaysComplete tr' := by
  simp only [SaysComplete, List.mem_append, or_and_right, exists_or]

/-! ## What has nothing to do with it -/

/-- The call neither sends data nor opens a file nor says that a transfer is complete. -/
def ClientOp.Aside : ClientOp → Prop
  | .sys .data (.send _) => False
  | .host (.fopen _) => False
  | .reply buffer => buffer ≠ luftpdSendResponse (textBytes "226 Transfer complete")
  | _ => True

theorem ClientOp.Aside.acceptedAs {o : ClientOp} (h : o.Aside) (ret : Int) :
    o.acceptedAs ret = [] := by
  unfold ClientOp.acceptedAs
  split
  · exact h.elim
  · rfl

theorem ClientOp.Aside.isFopen {o : ClientOp} (h : o.Aside) : o.isFopen = false := by
  unfold ClientOp.isFopen
  split
  · exact h.elim
  · rfl

theorem ClientOp.Aside.fullAs {o : ClientOp} (h : o.Aside) (ret : Int) : o.fullAs ret := by
  unfold ClientOp.fullAs
  split
  · exact h.elim
  · trivial

/-- Calls that have nothing to do with it, in a row. -/
structure Unrelated (tr : ClientTrace) : Prop where
  accepted : acceptedData tr = []
  blocks : fileBlocks tr = []
  full : FullSends tr
  silent : ¬ SaysComplete tr

theorem unrelated_of_aside {tr : ClientTrace} (h : ∀ e ∈ tr, e.op.Aside) : Unrelated tr where
  accepted := List.flatMap_eq_nil_iff.2 fun e he => (h e he).acceptedAs e.env.ret
  blocks := List.flatMap_eq_nil_iff.2 fun e he => if_neg (by simp [(h e he).isFopen])
  full e he := (h e he).fullAs e.env.ret
  silent := by
    rintro ⟨e, he, hop⟩
    have haside := h e he
    rw [hop] at haside
    exact haside rfl

section Handlers

open Script

theorem aside_reply {text : String} (h : luftpdSendResponse (textBytes text)
    ≠ luftpdSendResponse (textBytes "226 Transfer complete")) :
    (reply text).Calls ClientOp.Aside := calls_op h

theorem aside_createDataConnection : lufptdCreateDataConnection.Calls ClientOp.Aside :=
  calls_createDataConnection trivial trivial trivial (fun _ => trivial) trivial trivial trivial

theorem aside_closeClient : lufptdCloseClient.Calls ClientOp.Aside := by
  refine calls_closeClient (fun _ => trivial) (fun f => ?_) (fun _ => trivial) trivial
  cases f <;> trivial

/-! ## The loop over the blocks -/

/-- What a run of the loop over the blocks comes to. -/
structure Delivers (items : List Bytes) (tr : ClientTrace) : Prop where
  bound : (acceptedData tr).length ≤ items.flatten.length
  exact : acceptedData tr = items.flatten ↔ FullSends tr
  blocks : fileBlocks tr = []
  silent : ¬ SaysComplete tr

/-- A block that is sent in front of others. -/
theorem Delivers.cons {items : List Bytes} {tr : ClientTrace} (h : Delivers items tr)
    (p : Bytes) (c : LuftpdClient) {os : OsAnswer} (hret : 0 ≤ os.ret) :
    Delivers (p :: items) (⟨c, .sys .data (.send p), os⟩ :: tr) where
  bound := by
    show (p.take os.ret.toNat ++ acceptedData tr).length ≤ (p ++ items.flatten).length
    have hbound := h.bound
    simp only [List.length_append, List.length_take]
    omega
  exact := by
    show p.take os.ret.toNat ++ acceptedData tr = p ++ items.flatten ↔ _
    rw [FullSends, List.forall_mem_cons]
    show _ ↔ (p.length : Int) ≤ os.ret ∧ FullSends tr
    constructor
    · intro heq
      -- both parts are at most as long as what they are compared with
      have hlen := congrArg List.length heq
      have hbound := h.bound
      simp only [List.length_append, List.length_take] at hlen
      have hfull : p.length ≤ os.ret.toNat := by omega
      rw [List.take_of_length_le hfull] at heq
      exact ⟨by omega, h.exact.1 (List.append_cancel_left heq)⟩
    · rintro ⟨hfull, hrest⟩
      rw [List.take_of_length_le (by omega), h.exact.2 hrest]
  blocks := h.blocks
  silent := by
    rintro ⟨e, he, hop⟩
    rcases List.mem_cons.1 he with rfl | he
    · cases hop
    · exact h.silent ⟨e, he, hop⟩

/-- A block that is not sent, and ends the loop. -/
theorem delivers_failed (items : List Bytes) {p : Bytes} (hp : p ≠ []) (c : LuftpdClient)
    {os : OsAnswer} (hret : os.ret < 0) :
    Delivers (p :: items) [⟨c, .sys .data (.send p), os⟩] := by
  have hnone : acceptedData [(⟨c, .sys .data (.send p), os⟩ : ClientEntry)] = [] := by
    show p.take os.ret.toNat ++ [] = []
    rw [Int.toNat_of_nonpos hret.le]
    rfl
  refine ⟨by rw [hnone]; exact Nat.zero_le _, iff_of_false ?_ ?_, rfl, by simp [SaysComplete]⟩
  · rw [hnone]
    exact fun heq => hp (List.append_eq_nil_iff.1 heq.symm).1
  · intro hfull
    have hlen : (p.length : Int) ≤ os.ret := hfull _ List.mem_cons_self
    omega

/-- **The loop delivers the file exactly if every `send()` is a full one.** -/
theorem forEach_retrPiece_runs {items : List Bytes} (hitems : ∀ p ∈ items, p ≠ [])
    {c c' : LuftpdClient} {tr : ClientTrace} {u : Unit}
    (h : (Script.forEach items retrPiece).Runs ClientOp.exec c tr u c') : Delivers items tr := by
  induction items generalizing c tr with
  | nil =>
    obtain ⟨rfl, -, -⟩ := runs_pure_iff.1 h
    exact ⟨le_rfl, by simp [acceptedData, FullSends], rfl, by simp [SaysComplete]⟩
  | cons p items ih =>
    obtain ⟨tr₁, more, c₁, tr₂, rfl, hpiece, hrest⟩ := runs_bind_iff.1 h
    obtain ⟨os, tr₁, rfl, hend⟩ := runs_op_bind_iff.1 hpiece
    obtain ⟨rfl, rfl, rfl⟩ := runs_pure_iff.1 hend
    obtain ⟨hret, hrest⟩ | ⟨hret, hrest⟩ := runs_ite_iff.1 hrest
    · have hitems' : ∀ p ∈ items, p ≠ [] := fun q hq => hitems q (List.mem_cons_of_mem _ hq)
      exact (ih hitems' hrest).cons p _ (of_decide_eq_true hret)
    · obtain ⟨rfl, -, -⟩ := runs_pure_iff.1 hrest
      refine delivers_failed items (hitems p List.mem_cons_self) _ (not_le.1 fun hpos => ?_)
      exact hret (decide_eq_true hpos)

/-! ## The handler -/

/-- `fread()` delivers blocks that are not empty, and then stops. -/
def NonemptyBlocks (tr : ClientTrace) : Prop := ∀ p ∈ fileBlocks tr, p ≠ []

/-- The reply keeps what it promises exactly if every `send()` is a full one. -/
def KeptPromise (tr : ClientTrace) : Prop :=
  NonemptyBlocks tr → ((SaysComplete tr → acceptedData tr = fileContent tr) ↔ FullSends tr)

/-- All runs of the script keep the promise exactly if every `send()` is a full one. -/
def Promises {α : Type} (s : ClientScript α) : Prop :=
  ∀ c tr a c', s.Runs ClientOp.exec c tr a c' → KeptPromise tr

theorem Unrelated.kept {tr : ClientTrace} (h : Unrelated tr) : KeptPromise tr :=
  fun _ => iff_of_true (fun hclosing => absurd hclosing h.silent) h.full

theorem Unrelated.kept_append {tr tr' : ClientTrace} (h : Unrelated tr) (h' : KeptPromise tr') :
    KeptPromise (tr ++ tr') := by
  have hblocks : fileBlocks (tr ++ tr') = fileBlocks tr' := by
    rw [fileBlocks_append, h.blocks, List.nil_append]
  intro hitems
  rw [NonemptyBlocks, hblocks] at hitems
  rw [saysComplete_append, or_iff_right h.silent, acceptedData_append, h.accepted,
    List.nil_append, fileContent, hblocks, fullSends_append, and_iff_right h.full]
  exact h' hitems

/-- The rule for calls that have nothing to do with it. -/
theorem Promises.after {α β : Type} {s : ClientScript β} {f : β → ClientScript α}
    (hs : s.Calls ClientOp.Aside) (hf : ∀ b, Promises (f b)) : Promises (s >>= f) := by
  intro c tr a c' h
  obtain ⟨tr₁, b, c₁, tr₂, rfl, h₁, h₂⟩ := runs_bind_iff.1 h
  exact (unrelated_of_aside (hs.of_runs h₁)).kept_append (hf b c₁ tr₂ a c' h₂)

theorem promises_of_aside {α : Type} {s : ClientScript α} (hs : s.Calls ClientOp.Aside) :
    Promises s :=
  fun _ _ _ _ h => (unrelated_of_aside (hs.of_runs h)).kept

theorem Promises.ite {α : Type} {b : Prop} [Decidable b] {s t : ClientScript α}
    (hs : Promises s) (ht : Promises t) : Promises (if b then s else t) := by
  split
  · exact hs
  · exact ht

/-- A file that cannot be opened has no blocks. -/
theorem Unrelated.fopen_cons {tr : ClientTrace} (h : Unrelated tr) (c : LuftpdClient)
    (path : Bytes) {file : OsAnswer} (hret : file.ret < 0) :
    Unrelated (⟨c, .host (.fopen path), file⟩ :: tr) where
  accepted := h.accepted
  blocks := by
    rw [fileBlocks, List.flatMap_cons, if_neg fun hopen => absurd hopen.2 (not_le.2 hret)]
    exact h.blocks
  full := List.forall_mem_cons.2 ⟨trivial, h.full⟩
  silent := by
    rintro ⟨e, he, hop⟩
    rcases List.mem_cons.1 he with rfl | he
    · cases hop
    · exact h.silent ⟨e, he, hop⟩

/-- From the file on: its blocks, the end of the data connection, and the reply. -/
theorem kept_of_loop {c c₀ c₁ c₂ c₃ c₄ : LuftpdClient} {file closed cleared replied : OsAnswer}
    {tr : ClientTrace} {u : Unit} (path : Bytes) (hret : 0 ≤ file.ret)
    (hloop : (Script.forEach file.items retrPiece).Runs ClientOp.exec c₀ tr u c₁) :
    KeptPromise (⟨c, .host (.fopen path), file⟩ :: (tr ++ [⟨c₂, .sys .data .close, closed⟩,
      ⟨c₃, .clear .data, cleared⟩,
      ⟨c₄, .reply (luftpdSendResponse (textBytes "226 Transfer complete")), replied⟩])) := by
  generalize htail : ([⟨c₂, .sys .data .close, closed⟩, ⟨c₃, .clear .data, cleared⟩,
    ⟨c₄, .reply (luftpdSendResponse (textBytes "226 Transfer complete")), replied⟩] :
    ClientTrace) = tail
  have haccepted : acceptedData tail = [] := by rw [← htail]; rfl
  have hnone : fileBlocks tail = [] := by rw [← htail]; rfl
  have hfull : FullSends tail := by
    intro e he
    simp only [← htail, List.mem_cons, List.not_mem_nil, or_false] at he
    rcases he with rfl | rfl | rfl <;> trivial
  have hclosing : SaysComplete tail := by
    rw [← htail]
    exact ⟨_, List.mem_cons_of_mem _ (List.mem_cons_of_mem _ List.mem_cons_self), rfl⟩
  have hopen : fileBlocks (⟨c, .host (.fopen path), file⟩ :: (tr ++ tail))
      = file.items ++ fileBlocks (tr ++ tail) := by
    rw [fileBlocks, List.flatMap_cons, if_pos ⟨rfl, hret⟩]
    rfl
  intro hitems
  have hloop := forEach_retrPiece_runs
    (fun p hp => hitems p (hopen ▸ List.mem_append_left _ hp)) hloop
  have hcontent : fileContent (⟨c, .host (.fopen path), file⟩ :: (tr ++ tail))
      = file.items.flatten := by
    rw [fileContent, hopen, fileBlocks_append, hloop.blocks, hnone, List.append_nil,
      List.append_nil]
  have hdata : acceptedData (⟨c, .host (.fopen path), file⟩ :: (tr ++ tail)) = acceptedData tr := by
    show [] ++ acceptedData (tr ++ tail) = _
    rw [acceptedData_append, haccepted, List.nil_append, List.append_nil]
  have hsends : FullSends (⟨c, .host (.fopen path), file⟩ :: (tr ++ tail)) ↔ FullSends tr := by
    rw [FullSends, List.forall_mem_cons]
    exact ⟨fun h => (fullSends_append.1 h.2).1, fun h => ⟨trivial, fullSends_append.2 ⟨h, hfull⟩⟩⟩
  have hcomplete : SaysComplete (⟨c, .host (.fopen path), file⟩ :: (tr ++ tail)) := by
    obtain ⟨e, he, hop⟩ := hclosing
    exact ⟨e, List.mem_cons_of_mem _ (List.mem_append_right _ he), hop⟩
  rw [hcontent, hdata, hsends, ← hloop.exact]
  exact ⟨fun h => h hcomplete, fun h _ => h⟩

/-- What `RETR` does once there is a data connection. -/
theorem promises_transfer (path : Bytes) :
    Promises (transfer "150 Opening data connection for file transfer" (.fopen path)
      "550 Failed to open file" fun file => Script.forEach file.items retrPiece) := by
  refine .after aside_createDataConnection fun _ => .ite ?_ (promises_of_aside ?_)
  · refine .after (aside_reply (by decide)) fun _ c tr a c' h => ?_
    obtain ⟨file, tr', rfl, hrest⟩ := runs_op_bind_iff.1 h
    obtain ⟨hret, hrest⟩ | ⟨hret, hrest⟩ := runs_ite_iff.1 hrest
    · -- a file that cannot be opened has no blocks
      have haside : (do lufptdCloseClient; reply "550 Failed to open file").Calls
          ClientOp.Aside := aside_closeClient.bind fun _ => aside_reply (by decide)
      exact ((unrelated_of_aside (haside.of_runs hrest)).fopen_cons c path hret).kept
    · -- the blocks, the end of the data connection, and the reply
      obtain ⟨tr₁, u, c₁, tr₂, rfl, hloop, hclose⟩ := runs_bind_iff.1 hrest
      obtain ⟨closed, tr₃, rfl, hclear⟩ := runs_op_bind_iff.1 hclose
      obtain ⟨cleared, tr₄, rfl, hclosing⟩ := runs_op_bind_iff.1 hclear
      obtain ⟨replied, rfl, -, -⟩ := runs_op_iff.1 hclosing
      exact kept_of_loop path (not_lt.1 hret) hloop
  · exact aside_reply (by decide)

theorem promises_handleRetr (cfg : LuftpdConfig) (arg : Bytes) :
    Promises (luftpdHandleRetr cfg arg) := by
  refine .after (calls_resolve cfg arg trivial trivial) fun r => ?_
  cases r with
  | error e => exact promises_of_aside (aside_reply (by decide))
  | ok path =>
    refine .after (calls_op trivial) fun st => .ite ?_ (promises_transfer path)
    exact promises_of_aside (aside_reply (by decide))

end Handlers

/-- **`226 Transfer complete` means what it says exactly if every `send()` on the data connection
accepts all it is given.** -/
theorem complete_iff_fullSends (cfg : LuftpdConfig) (arg : Bytes) {c c' : LuftpdClient}
    {tr : ClientTrace} {u : Unit}
    (h : (luftpdHandleRetr cfg arg).Runs ClientOp.exec c tr u c') (hblocks : NonemptyBlocks tr) :
    (SaysComplete tr → acceptedData tr = fileContent tr) ↔ FullSends tr :=
  promises_handleRetr cfg arg c tr u c' h hblocks

/-- The root of the host with a file in it. -/
def oneFile : FileSystem :=
  .ofTable [(textBytes "/", .root), (textBytes "/f", ⟨[textBytes "f"], by decide⟩)]

/-- A server whose root is `/`. -/
def rootConfig : LuftpdConfig := ⟨none, textBytes "/", 10, 30000, 30100⟩

/-- `RETR f` on a data connection: its one block is `abcd`, and `send()` returns `sent`. -/
def retrAnswers (sent : Int) : List OsAnswer :=
  let quiet : OsAnswer := { ret := 0, fs := oneFile }
  [quiet, quiet, { ret := 0, fs := oneFile, kind := .regular, size := 4 }, quiet,
    { ret := 1, fs := oneFile }, { ret := 6, fs := oneFile }, quiet, quiet, quiet, quiet, quiet,
    { ret := 0, fs := oneFile, items := [textBytes "abcd"] }, { ret := sent, fs := oneFile },
    quiet, quiet, quiet]

/-- The client of these calls, after `PASV`. -/
def passiveClient : LuftpdClient := { newClient 4 0 with pasvSock := 5 }

theorem complete_iff_fullSends_whole : ∃ tr : ClientTrace, SaysComplete tr ∧
    acceptedData tr = textBytes "abcd" ∧
      ((SaysComplete tr → acceptedData tr = fileContent tr) ↔ FullSends tr) := by
  obtain ⟨tr, u, c', hrun, hp⟩ := Script.exists_runs ClientOp.exec
    (luftpdHandleRetr rootConfig (textBytes "f")) passiveClient (retrAnswers 4)
    (fun tr _ _ => decide (SaysComplete tr ∧ acceptedData tr = textBytes "abcd" ∧
      ∀ p ∈ fileBlocks tr, p ≠ [])) (by decide +kernel)
  obtain ⟨hclosing, hdata, hblocks⟩ := of_decide_eq_true hp
  exact ⟨tr, hclosing, hdata, complete_iff_fullSends rootConfig (textBytes "f") hrun hblocks⟩

/-- **A short `send()`**: the connection has accepted two of four bytes, and the transfer is said to
be complete. -/
theorem short_send_complete : ∃ (c c' : LuftpdClient) (tr : ClientTrace) (u : Unit),
    (luftpdHandleRetr rootConfig (textBytes "f")).Runs ClientOp.exec c tr u c' ∧
      SaysComplete tr ∧ acceptedData tr = textBytes "ab" ∧ fileContent tr = textBytes "abcd" := by
  obtain ⟨tr, u, c', hrun, hp⟩ := Script.exists_runs ClientOp.exec
    (luftpdHandleRetr rootConfig (textBytes "f")) passiveClient (retrAnswers 2)
    (fun tr _ _ => decide (SaysComplete tr ∧ acceptedData tr = textBytes "ab" ∧
      fileContent tr = textBytes "abcd")) (by decide +kernel)
  obtain ⟨hclosing, hdata, hcontent⟩ := of_decide_eq_true hp
  exact ⟨passiveClient, c', tr, u, hrun, hclosing, hdata, hcontent⟩

end Lucp.Luftpd
