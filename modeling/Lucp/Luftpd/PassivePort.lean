import Lucp.Decimal
import Lucp.Luftpd.Config
import Lucp.Luftpd.Turns

/-!
# The port that `227 Entering Passive Mode` names

`luftpd_enter_pasv_mode` tries the ports from `data_port_min` to `data_port_max`, two numbers of the
configuration that nothing checks.  `bind()` gets the lower 16 bits of each, where 0 leaves the
choice to the kernel, and the reply names all of it, cut into `port >> 8` and `port & 0xFF`.  The
scan variable is an `int`.  If the range goes up to `INT_MAX` and nothing in it can be bound, it
overflows, and as that has no meaning in C, the reply can say anything.

## What is here

* `boundPort` — the port the socket has after `bind()`; `lastTwoNumbers` what a reply says.
* `enterPasvMode_runs` — the ways a run can go, with the first port that could be bound.
* `pasv_advertises_iff` — **the reply names the port of the socket exactly if the first port of the
  range that can be bound is between 1 and 65535**, and there is one if the range goes up to
  `INT_MAX`.
-/

set_option autoImplicit false

namespace Lucp.Luftpd

open Script

/-! ## Ports -/

/-- The configuration as the handlers see it; `inetAddr` is `inet_addr()`. -/
def LuftpdConfigRecord.seen (inetAddr : Bytes → Option (UInt8 × UInt8 × UInt8 × UInt8))
    (cfg : LuftpdConfigRecord) : LuftpdConfig where
  address := inetAddr (cText cfg.ip)
  rootDir := cText cfg.rootDir
  maxConnections := cfg.maxConnections.toInt
  dataPortMin := cfg.dataPortMin.toInt
  dataPortMax := cfg.dataPortMax.toInt

/-- The port of a socket that was bound with `sin_port = htons(port)`, where `chosen` is what the
kernel takes for 0. -/
def boundPort (chosen : ℕ) (port : ℤ) : ℤ := if port % 65536 = 0 then chosen else port % 65536

/-- The last two numbers of a reply, which are cut out at the commas. -/
def lastTwoNumbers (line : Bytes) : Option (ℤ × ℤ) :=
  match (Lexical.components 0x2C line).reverse with
  | p2 :: p1 :: _ => some (strtol p1, strtol p2)
  | _ => none

/-- In the run, the passive socket has been bound with this port. -/
def Binds (tr : ClientTrace) (port : ℤ) : Prop :=
  ∃ e ∈ tr, e.op = .sys .pasv (.bind port) ∧ e.env.ret = 0

/-- Every reply of the run ends in two numbers from 0 to 255 that make up the port of the socket. -/
def AdvertisesBound (chosen : ℕ) (tr : ClientTrace) : Prop :=
  ∀ e ∈ tr, ∀ buffer, e.op = .reply buffer →
    ∃ p1 p2 port, lastTwoNumbers buffer = some (p1, p2) ∧ (0 ≤ p1 ∧ p1 ≤ 255) ∧
      (0 ≤ p2 ∧ p2 ≤ 255) ∧ Binds tr port ∧ 256 * p1 + p2 = boundPort chosen port

/-- Nothing in the run was without a meaning. -/
def Defined (tr : ClientTrace) : Prop := ∀ e ∈ tr, e.op ≠ .host .undefined

/-- The kernel answers the calls of `bind()` by this pattern. -/
def Follows (binds : ℤ → Bool) (tr : ClientTrace) : Prop :=
  ∀ e ∈ tr, ∀ port, e.op = .sys .pasv (.bind port) → (e.env.ret = 0 ↔ binds port = true)

/-- The first port of the range that can be bound. -/
def FirstFree (binds : ℤ → Bool) (min max port : ℤ) : Prop :=
  (min ≤ port ∧ port ≤ max) ∧ binds port = true ∧
    ∀ q, min ≤ q → q < port → ¬ binds q = true

/-- **The two numbers make up the port of the socket exactly if they are not cut.** -/
theorem port_numbers_iff {chosen : ℕ} (hchosen : 1 ≤ chosen ∧ chosen ≤ 65535) (port : ℤ) :
    ((0 ≤ port / 256 ∧ port / 256 ≤ 255) ∧ (0 ≤ port % 256 ∧ port % 256 ≤ 255) ∧
      256 * (port / 256) + port % 256 = boundPort chosen port) ↔ 1 ≤ port ∧ port ≤ 65535 := by
  rw [boundPort]
  split <;> omega

/-! ## The reply -/

/-- A number is a stretch between commas, with whatever stands around it. -/
theorem isName_number {s : Bytes} (front rest : Bytes) (hne : s ≠ [])
    (h : ∀ b ∈ s, isdigit b = true ∨ b = 0x2D) (hfront : 0x2C ∉ front) (hrest : 0x2C ∉ rest) :
    Lexical.IsName 0x2C (front ++ s ++ rest) := by
  refine ⟨by simp [hne], fun hcomma => ?_⟩
  rcases List.mem_append.1 hcomma with hcomma | hcomma
  · rcases List.mem_append.1 hcomma with hcomma | hcomma
    · exact hfront hcomma
    · rcases h _ hcomma with hdigit | hminus
      · exact absurd hdigit (by decide)
      · exact absurd hminus (by decide)
  · exact hrest hcomma

theorem isName_int (n : ℤ) (rest : Bytes) (hrest : 0x2C ∉ rest) :
    Lexical.IsName 0x2C (textBytes (toString n) ++ rest) :=
  isName_number [] rest (textBytes_toString_ne_nil n) (fun _ => isdigit_or_minus)
    List.not_mem_nil hrest

theorem toString_byte (n : UInt8) : toString n = n.toNat.repr := rfl

theorem isName_byte (n : UInt8) (front : Bytes) (hfront : 0x2C ∉ front) :
    Lexical.IsName 0x2C (front ++ textBytes (toString n)) := by
  have hname := isName_number front [] (textBytes_repr_ne_nil n.toNat)
    (fun _ h => .inl (isdigit_of_mem_repr h)) hfront List.not_mem_nil
  rwa [List.append_nil, ← toString_byte] at hname

/-- The bytes of the reply, number by number. -/
theorem textBytes_pasvReply (cfg : LuftpdConfig) (port : ℤ) :
    ∃ a b c d : UInt8, textBytes (pasvReply cfg port)
      = textBytes "227 Entering Passive Mode (" ++ textBytes (toString a)
        ++ Lexical.below 0x2C [textBytes (toString b), textBytes (toString c),
            textBytes (toString d), textBytes (toString (port / 256)),
            textBytes (toString (port % 256)) ++ [0x29]] := by
  unfold pasvReply
  generalize cfg.address.getD (0, 0, 0, 0) = address
  obtain ⟨a, b, c, d⟩ := address
  refine ⟨a, b, c, d, ?_⟩
  dsimp only
  have hcomma : textBytes "," = [0x2C] := by decide
  have hparen : textBytes ")" = [0x29] := by decide
  simp only [textBytes_append, hcomma, hparen, Lexical.below_cons, Lexical.below_nil,
    List.append_assoc, List.cons_append, List.nil_append, List.append_nil]

/-- What stands at its end. -/
theorem paren_suffix (cfg : LuftpdConfig) (port : ℤ) :
    [0x29] <:+ textBytes (pasvReply cfg port) := by
  unfold pasvReply
  generalize cfg.address.getD (0, 0, 0, 0) = address
  obtain ⟨a, b, c, d⟩ := address
  dsimp only
  rw [textBytes_append _ ")"]
  exact List.suffix_append _ _

theorem length_byte_le (n : UInt8) : (textBytes (toString n)).length ≤ 3 := by
  rw [toString_byte]
  exact length_textBytes_repr_le (by decide) (lt_of_lt_of_le n.toNat_lt (by decide))

/-- A reply fits, and gets its CR and LF. -/
theorem luftpdSendResponse_pasvReply (cfg : LuftpdConfig) {port : ℤ} (hlo : -2 ^ 31 ≤ port)
    (hhi : port < 2 ^ 31) :
    luftpdSendResponse (textBytes (pasvReply cfg port))
      = textBytes (pasvReply cfg port) ++ [0x0D, 0x0A] := by
  obtain ⟨a, b, c, d, htext⟩ := textBytes_pasvReply cfg port
  have hp1 : (textBytes (toString (port / 256))).length ≤ 11 :=
    length_textBytes_toString_le (k := 10) (by decide) (by omega)
  have hp2 : (textBytes (toString (port % 256))).length ≤ 11 :=
    length_textBytes_toString_le (k := 10) (by decide) (by omega)
  have hhead : (textBytes "227 Entering Passive Mode (").length = 27 := by decide
  have hshort : (textBytes (pasvReply cfg port)).length ≤ 1021 := by
    have ha := length_byte_le a
    have hb := length_byte_le b
    have hc := length_byte_le c
    have hd := length_byte_le d
    rw [htext]
    simp only [Lexical.below_cons, Lexical.below_nil, List.length_append, List.length_cons,
      List.length_nil, hhead]
    omega
  have hopen : ¬ [0x0D, 0x0A] <:+ textBytes (pasvReply cfg port) := by
    rintro hcrlf
    have hend : [0x29] <:+ ([0x0D, 0x0A] : Bytes) :=
      List.suffix_of_suffix_length_le (paren_suffix cfg port) hcrlf (by decide)
    exact absurd hend (by decide)
  rw [luftpdSendResponse, List.take_of_length_le hshort, if_neg hopen]

/-- **The last two numbers of the reply are the upper and the lower part of the scan variable.** -/
theorem lastTwoNumbers_pasvReply (cfg : LuftpdConfig) {port : ℤ} (hlo : -2 ^ 31 ≤ port)
    (hhi : port < 2 ^ 31) :
    lastTwoNumbers (luftpdSendResponse (textBytes (pasvReply cfg port)))
      = some (port / 256, port % 256) := by
  obtain ⟨a, b, c, d, htext⟩ := textBytes_pasvReply cfg port
  let names : List Bytes := [textBytes (toString b), textBytes (toString c),
    textBytes (toString d), textBytes (toString (port / 256)),
    textBytes (toString (port % 256)) ++ [0x29, 0x0D, 0x0A]]
  have hline : luftpdSendResponse (textBytes (pasvReply cfg port))
      = textBytes "227 Entering Passive Mode (" ++ textBytes (toString a)
        ++ Lexical.below 0x2C names := by
    rw [luftpdSendResponse_pasvReply cfg hlo hhi, htext]
    simp [names, Lexical.below_cons]
  have hnames : ∀ n ∈ names, Lexical.IsName 0x2C n := by
    have hbyte (n : UInt8) : Lexical.IsName 0x2C (textBytes (toString n)) :=
      isName_byte n [] List.not_mem_nil
    have hint (n : ℤ) : Lexical.IsName 0x2C (textBytes (toString n)) := by
      have hname := isName_int n [] List.not_mem_nil
      rwa [List.append_nil] at hname
    have hlast : Lexical.IsName 0x2C (textBytes (toString (port % 256)) ++ [0x29, 0x0D, 0x0A]) :=
      isName_int _ _ (by decide)
    simp only [names, List.forall_mem_cons]
    exact ⟨hbyte b, hbyte c, hbyte d, hint _, hlast, by simp⟩
  have hread (n : ℤ) (hn : -2 ^ 63 ≤ n ∧ n < 2 ^ 63) :
      strtol (textBytes (toString n)) = n := by
    have h := strtol_toString hn.1 hn.2 [] (by simp)
    rwa [List.append_nil] at h
  rw [lastTwoNumbers, hline, Lexical.components_name_append (isName_byte a _ (by decide))
    (Lexical.cut_below names), Lexical.components_below hnames]
  have hp1 := hread (port / 256) (by omega)
  have hend : ∀ b ∈ ([0x29, 0x0D, 0x0A] : Bytes).head?, isdigit b = false := by
    rintro b hb
    cases hb
    rfl
  have hp2 := strtol_toString (n := port % 256) (by omega) (by omega) [0x29, 0x0D, 0x0A] hend
  exact congrArg some (Prod.ext hp1 hp2)

/-! ## The scan -/

/-- The calls of a scan that has failed up to a port. -/
structure Tried (tr : ClientTrace) (lo hi : ℤ) : Prop where
  /-- All of them are failed calls of `bind()`. -/
  failed : ∀ e ∈ tr, ∃ port, e.op = .sys .pasv (.bind port) ∧ e.env.ret ≠ 0
  /-- Every port is among them. -/
  every : ∀ port, lo ≤ port → port < hi → ∃ e ∈ tr, e.op = .sys .pasv (.bind port)

/-- What a scan does at the end of its range: nothing, unless that is behind `INT_MAX`. -/
def EndsAt (hi : ℤ) (tr : ClientTrace) : Prop :=
  hi < 2 ^ 31 ∧ tr = [] ∨ 2 ^ 31 ≤ hi ∧ ∃ e, tr = [e] ∧ e.op = .host .undefined

/-- **A scan ends with the first port that can be bound, or behind the last one.** -/
theorem bindLoop_runs {left : ℕ} {port : ℤ} {c c' : LuftpdClient} {tr : ClientTrace}
    {r : Option ℤ} (h : (bindLoop left port).Runs ClientOp.exec c tr r c') :
    (r = none ∧ ∃ tried last, tr = tried ++ last ∧ Tried tried port (port + left) ∧
        EndsAt (port + left) last) ∨
      ∃ bound tried e, r = some bound ∧ (port ≤ bound ∧ bound < port + left) ∧
        tr = tried ++ [e] ∧ Tried tried port bound ∧ e.op = .sys .pasv (.bind bound) ∧
        e.env.ret = 0 := by
  induction left generalizing port c tr with
  | zero =>
    have hnone : Tried [] port (port + (0 : ℕ)) := ⟨by simp, fun q hlo hhi => by omega⟩
    obtain ⟨hlt, hdone⟩ | ⟨hge, hover⟩ := runs_ite_iff.1 h
    · obtain ⟨rfl, rfl, -⟩ := runs_pure_iff.1 hdone
      exact .inl ⟨rfl, [], [], rfl, hnone, .inl ⟨by omega, rfl⟩⟩
    · obtain ⟨os, tr', rfl, hdone⟩ := runs_op_bind_iff.1 hover
      obtain ⟨rfl, rfl, -⟩ := runs_pure_iff.1 hdone
      exact .inl ⟨rfl, [], _, rfl, hnone, .inr ⟨by omega, _, rfl, rfl⟩⟩
  | succ left ih =>
    obtain ⟨os, tr', rfl, hrest⟩ := runs_op_bind_iff.1 h
    obtain ⟨hret, hdone⟩ | ⟨hret, hmore⟩ := runs_ite_iff.1 hrest
    · obtain ⟨rfl, rfl, -⟩ := runs_pure_iff.1 hdone
      refine .inr ⟨port, [], _, rfl, by omega, rfl, ⟨by simp, fun q hlo hhi => by omega⟩, rfl,
        hret⟩
    · -- the port at the front has failed, and the rest of the scan starts behind it
      have hcons {tried : ClientTrace} {hi : ℤ} (ht : Tried tried (port + 1) hi) :
          Tried (⟨c, .sys .pasv (.bind port), os⟩ :: tried) port hi := by
        refine ⟨fun e he => ?_, fun q hlo hhi => ?_⟩
        · rcases List.mem_cons.1 he with rfl | he
          · exact ⟨port, rfl, hret⟩
          · exact ht.failed e he
        · rcases eq_or_lt_of_le hlo with rfl | hlt
          · exact ⟨_, List.mem_cons_self, rfl⟩
          · obtain ⟨e, he, hop⟩ := ht.every q (by omega) hhi
            exact ⟨e, List.mem_cons_of_mem _ he, hop⟩
      obtain ⟨rfl, tried, last, rfl, ht, hlast⟩ |
        ⟨bound, tried, e, rfl, hrange, rfl, ht, hop, hbound⟩ := ih hmore
      · have hend : port + 1 + (left : ℤ) = port + ((left + 1 : ℕ) : ℤ) := by omega
        exact .inl ⟨rfl, _ :: tried, last, rfl, hcons (hend ▸ ht), hend ▸ hlast⟩
      · exact .inr ⟨bound, _ :: tried, e, rfl, by omega, rfl, hcons ht, hop, hbound⟩

/-! ## The handler -/

/-- The operation is no part of the scan, and no reply. -/
def ClientOp.Apart : ClientOp → Prop
  | .reply _ => False
  | .sys _ (.bind _) => False
  | .host .undefined => False
  | _ => True

/-- The calls in front of the scan and behind it. -/
abbrev Apart (tr : ClientTrace) : Prop := ∀ e ∈ tr, e.op.Apart

/-- The ways a run of `luftpd_enter_pasv_mode` can go. -/
inductive PasvOutcome (cfg : LuftpdConfig) : ClientTrace → Prop where
  | noSocket {tr : ClientTrace} (hquiet : Apart tr)
      (hfailed : ∃ e ∈ tr, e.op = .host .socket ∧ e.env.ret < 0) : PasvOutcome cfg tr
  | noPort {front scan behind : ClientTrace} (hfront : Apart front)
      (hscan : Tried scan cfg.dataPortMin (cfg.dataPortMax + 1))
      (hroom : cfg.dataPortMax + 1 < 2 ^ 31) (hbehind : Apart behind) :
      PasvOutcome cfg (front ++ scan ++ behind)
  | overflow {front scan behind : ClientTrace} {e : ClientEntry}
      (hscan : Tried scan cfg.dataPortMin (cfg.dataPortMax + 1))
      (hover : 2 ^ 31 ≤ max cfg.dataPortMin (cfg.dataPortMax + 1))
      (hop : e.op = .host .undefined) : PasvOutcome cfg (front ++ (scan ++ [e]) ++ behind)
  | notListening {front tried behind : ClientTrace} {port : ℤ} {e : ClientEntry}
      (hfront : Apart front) (htried : Tried tried cfg.dataPortMin port)
      (hop : e.op = .sys .pasv (.bind port)) (hbehind : Apart behind)
      (hfailed : ∃ e ∈ behind, e.op = .sys .pasv .listen ∧ e.env.ret < 0) :
      PasvOutcome cfg (front ++ (tried ++ [e]) ++ behind)
  | replied {front tried behind : ClientTrace} {port : ℤ} {e r : ClientEntry}
      (hfront : Apart front) (htried : Tried tried cfg.dataPortMin port)
      (hrange : cfg.dataPortMin ≤ port ∧ port ≤ cfg.dataPortMax)
      (hop : e.op = .sys .pasv (.bind port)) (hbound : e.env.ret = 0) (hbehind : Apart behind)
      (hreply : r.op = .reply (luftpdSendResponse (textBytes (pasvReply cfg port)))) :
      PasvOutcome cfg (front ++ (tried ++ [e]) ++ (behind ++ [r]))

theorem apart_closeSock (f : SockField) : (closeSock f).Calls ClientOp.Apart :=
  calls_closeSock trivial trivial trivial

/-- **How a run goes.** -/
theorem enterPasvMode_runs {cfg : LuftpdConfig} {c c' : LuftpdClient} {tr : ClientTrace} {u : Unit}
    (h : (luftpdEnterPasvMode cfg).Runs ClientOp.exec c tr u c') : PasvOutcome cfg tr := by
  obtain ⟨tr₀, u₀, c₀, rest, rfl, hclose, h₁⟩ := runs_bind_iff.1 h
  obtain ⟨os, rest₁, rfl, h₂⟩ := runs_op_bind_iff.1 h₁
  obtain ⟨e₂, rest₂, rfl, h₃⟩ := runs_op_bind_iff.1 h₂
  obtain ⟨e₃, rest₃, rfl, h₄⟩ := runs_op_bind_iff.1 h₃
  have hclosed : Apart tr₀ := (apart_closeSock _).of_runs hclose
  have hgiveUp : (do
      let _ ← doOp (.sys .pasv .close)
      doOp (.clear .pasv) : ClientScript Unit).Calls ClientOp.Apart :=
    .op_bind trivial fun _ => calls_op trivial
  generalize hsocket : (⟨c₀, .host .socket, os⟩ : ClientEntry) = opened
  generalize hset : (⟨_, .setPasvSock _, e₂⟩ : ClientEntry) = stored
  generalize hsock : (⟨_, .sock .pasv, e₃⟩ : ClientEntry) = looked
  have hfront : Apart (tr₀ ++ [opened, stored, looked]) := by
    intro e he
    rcases List.mem_append.1 he with he | he
    · exact hclosed e he
    · simp only [List.mem_cons, List.not_mem_nil, or_false] at he
      rcases he with rfl | rfl | rfl
      · rw [← hsocket]; trivial
      · rw [← hset]; trivial
      · rw [← hsock]; trivial
  obtain ⟨hneg, hend⟩ | ⟨hopen, hscan⟩ := runs_ite_iff.1 h₄
  · obtain ⟨rfl, -, -⟩ := runs_pure_iff.1 hend
    exact .noSocket hfront ⟨opened, by simp, by rw [← hsocket]; exact ⟨rfl, hneg⟩⟩
  · obtain ⟨scan, r, c₄, behind, rfl, hloop, h₅⟩ := runs_bind_iff.1 hscan
    have hsplit : tr₀ ++ opened :: stored :: looked :: (scan ++ behind)
        = tr₀ ++ [opened, stored, looked] ++ scan ++ behind := by simp
    rw [hsplit]
    obtain ⟨rfl, tried, last, rfl, ht, hlast⟩ |
      ⟨port, tried, e, rfl, hrange, rfl, ht, hop, hbound⟩ := bindLoop_runs hloop
    · have hall : Tried tried cfg.dataPortMin (cfg.dataPortMax + 1) :=
        ⟨ht.failed, fun q hlo hhi => ht.every q hlo (by omega)⟩
      obtain ⟨hlt, rfl⟩ | ⟨hge, e, rfl, hop⟩ := hlast
      · rw [List.append_nil]
        exact .noPort hfront hall (by omega) (hgiveUp.of_runs h₅)
      · exact .overflow hall (by omega) hop
    · obtain ⟨listening, behind, rfl, h₆⟩ := runs_op_bind_iff.1 h₅
      have hlisten {s : LuftpdClient} : Apart [⟨s, .sys .pasv .listen, listening⟩] := by
        simp [Apart, ClientOp.Apart]
      obtain ⟨hfailed, hend⟩ | ⟨-, hend⟩ := runs_ite_iff.1 h₆
      · refine .notListening hfront ht hop ?_ ⟨_, List.mem_cons_self, rfl, hfailed⟩
        exact List.forall_mem_cons.2 ⟨trivial, hgiveUp.of_runs hend⟩
      · obtain ⟨e₆, rfl, -, -⟩ := runs_op_iff.1 hend
        exact .replied hfront ht (by omega) hop hbound hlisten rfl

/-! ## What it advertises -/

/-- Nothing is replied in the run. -/
def Unreplied (tr : ClientTrace) : Prop := ∀ e ∈ tr, ∀ buffer, e.op ≠ .reply buffer

theorem Unreplied.append {tr tr' : ClientTrace} (h : Unreplied tr) (h' : Unreplied tr') :
    Unreplied (tr ++ tr') :=
  fun e he => (List.mem_append.1 he).elim (h e) (h' e)

theorem unreplied_bind {e : ClientEntry} {port : ℤ} (hop : e.op = .sys .pasv (.bind port)) :
    Unreplied [e] := by
  intro e' he' buffer
  rw [List.mem_singleton.1 he', hop]
  exact nofun

theorem Apart.unreplied {tr : ClientTrace} (h : Apart tr) : Unreplied tr := by
  intro e he buffer hop
  have hapart := h e he
  rw [hop] at hapart
  exact hapart

theorem Apart.not_bind {tr : ClientTrace} (h : Apart tr) {e : ClientEntry} (he : e ∈ tr)
    (port : ℤ) : e.op ≠ .sys .pasv (.bind port) := by
  intro hop
  have hapart := h e he
  rw [hop] at hapart
  exact hapart

theorem Tried.unreplied {tr : ClientTrace} {lo hi : ℤ} (h : Tried tr lo hi) : Unreplied tr := by
  intro e he buffer hop
  obtain ⟨port, hbind, -⟩ := h.failed e he
  rw [hop] at hbind
  cases hbind

/-- A run that gets to a port, but not to the reply. -/
theorem unreplied_scan {front tried behind : ClientTrace} {lo hi port : ℤ} {e : ClientEntry}
    (hfront : Apart front) (htried : Tried tried lo hi) (hop : e.op = .sys .pasv (.bind port))
    (hbehind : Apart behind) : Unreplied (front ++ (tried ++ [e]) ++ behind) :=
  (hfront.unreplied.append (htried.unreplied.append (unreplied_bind hop))).append
    hbehind.unreplied

theorem Follows.mono {binds : ℤ → Bool} {tr tr' : ClientTrace} (h : Follows binds tr)
    (hsub : tr' ⊆ tr) : Follows binds tr' :=
  fun e he => h e (hsub he)

theorem Defined.append {tr tr' : ClientTrace} (h : Defined tr) (h' : Defined tr') :
    Defined (tr ++ tr') :=
  fun e he => (List.mem_append.1 he).elim (h e) (h' e)

theorem defined_singleton {e : ClientEntry} (h : e.op ≠ .host .undefined) : Defined [e] :=
  fun _ he => List.mem_singleton.1 he ▸ h

theorem Apart.defined {tr : ClientTrace} (h : Apart tr) : Defined tr := by
  intro e he hop
  have hapart := h e he
  rw [hop] at hapart
  exact hapart

theorem Tried.defined {tr : ClientTrace} {lo hi : ℤ} (h : Tried tr lo hi) : Defined tr := by
  intro e he hop
  obtain ⟨port, hbind, -⟩ := h.failed e he
  rw [hop] at hbind
  cases hbind

/-- The calls of a scan that ends with a port. -/
theorem Tried.defined_concat {tr : ClientTrace} {lo hi port : ℤ} (h : Tried tr lo hi)
    {e : ClientEntry} (hop : e.op = .sys .pasv (.bind port)) : Defined (tr ++ [e]) :=
  h.defined.append (defined_singleton (by rw [hop]; exact nofun))

/-- A port that was tried cannot be bound. -/
theorem Tried.not_binds {tr : ClientTrace} {lo hi : ℤ} (h : Tried tr lo hi) {binds : ℤ → Bool}
    (hfollows : Follows binds tr) {port : ℤ} (hlo : lo ≤ port) (hhi : port < hi) :
    ¬ binds port = true := by
  obtain ⟨e, he, hop⟩ := h.every port hlo hhi
  obtain ⟨port', hop', hret⟩ := h.failed e he
  exact fun hfree => hret ((hfollows e he port hop).2 hfree)

/-- A run without a reply advertises nothing. -/
theorem Unreplied.advertises {chosen : ℕ} {tr : ClientTrace} (h : Unreplied tr) :
    AdvertisesBound chosen tr :=
  fun e he buffer hop => absurd hop (h e he buffer)

/-- **A run with a reply** advertises the port of the socket exactly if it is not cut. -/
theorem advertises_replied_iff {cfg : LuftpdConfig} {front tried behind : ClientTrace} {port : ℤ}
    {e r : ClientEntry} {chosen : ℕ} (hchosen : 1 ≤ chosen ∧ chosen ≤ 65535)
    (hfront : Apart front) (htried : Tried tried cfg.dataPortMin port)
    (hop : e.op = .sys .pasv (.bind port)) (hbound : e.env.ret = 0) (hbehind : Apart behind)
    (hreply : r.op = .reply (luftpdSendResponse (textBytes (pasvReply cfg port))))
    (hlo : -2 ^ 31 ≤ port) (hhi : port < 2 ^ 31) :
    AdvertisesBound chosen (front ++ (tried ++ [e]) ++ (behind ++ [r])) ↔
      1 ≤ port ∧ port ≤ 65535 := by
  have hnumbers := lastTwoNumbers_pasvReply cfg hlo hhi
  rw [← port_numbers_iff hchosen]
  constructor
  · intro h
    obtain ⟨p1, p2, port', htwo, hp1, hp2, ⟨e', he', hop', hbound'⟩, hsum⟩ :=
      h r (by simp) _ hreply
    obtain ⟨rfl, rfl⟩ : port / 256 = p1 ∧ port % 256 = p2 := by
      simpa using hnumbers.symm.trans htwo
    -- the port of the socket is the one the scan ended with
    have hport : port' = port := by
      rcases List.mem_append.1 he' with he' | he'
      · rcases List.mem_append.1 he' with he' | he'
        · exact absurd hop' (hfront.not_bind he' port')
        · rcases List.mem_append.1 he' with he' | he'
          · obtain ⟨q, -, hfailed⟩ := htried.failed e' he'
            exact absurd hbound' hfailed
          · rw [List.mem_singleton.1 he', hop] at hop'
            simpa using hop'.symm
      · rcases List.mem_append.1 he' with he' | he'
        · exact absurd hop' (hbehind.not_bind he' port')
        · rw [List.mem_singleton.1 he', hreply] at hop'
          cases hop'
    exact ⟨hp1, hp2, hport ▸ hsum⟩
  · rintro ⟨hp1, hp2, hsum⟩ e' he' buffer hbuffer
    have hunreplied : Unreplied (front ++ (tried ++ [e]) ++ behind) :=
      unreplied_scan hfront htried hop hbehind
    have hlast : e' = r := by
      rw [← List.append_assoc] at he'
      rcases List.mem_append.1 he' with he' | he'
      · exact absurd hbuffer (hunreplied e' he' buffer)
      · exact List.mem_singleton.1 he'
    rw [hlast, hreply] at hbuffer
    rw [← ClientOp.reply.inj hbuffer]
    exact ⟨_, _, port, hnumbers, hp1, hp2, ⟨e, by simp, hop, hbound⟩, hsum⟩

/-- A record without sockets. -/
def idleClient : LuftpdClient := newClient (-1) 0

/-- An environment in which everything succeeds, but for the calls of `bind()`. -/
def bindAnswer (binds : ℤ → Bool) : ClientOp → OsAnswer
  | .sys .pasv (.bind port) => { ret := if binds port then 0 else -1, fs := ⟨fun _ => none⟩ }
  | _ => { ret := 3, fs := ⟨fun _ => none⟩ }

/-- Every run of the handler has a meaning, and advertises the port of its socket. -/
def AlwaysAdvertises (cfg : LuftpdConfig) (binds : ℤ → Bool) (chosen : ℕ) : Prop :=
  ∀ c tr u c', (luftpdEnterPasvMode cfg).Runs ClientOp.exec c tr u c' → Follows binds tr →
    Defined tr ∧ AdvertisesBound chosen tr

/-- There is a run in which nothing fails but calls of `bind()`. -/
theorem exists_bind_run (cfg : LuftpdConfig) (binds : ℤ → Bool) :
    ∃ tr u c', (luftpdEnterPasvMode cfg).Runs ClientOp.exec idleClient tr u c' ∧
      Follows binds tr ∧ ∀ e ∈ tr, (e.op = .host .socket ∨ e.op = .sys .pasv .listen) →
        0 ≤ e.env.ret := by
  obtain ⟨tr, u, c', hrun, henv⟩ := exists_runs_answered ClientOp.exec (bindAnswer binds)
    (luftpdEnterPasvMode cfg) idleClient
  refine ⟨tr, u, c', hrun, fun e he q hop => ?_, fun e he hop => ?_⟩
  · rw [henv e he, hop]
    simp [bindAnswer]
  · rw [henv e he]
    rcases hop with hop | hop
    · rw [hop]
      exact (by decide : (0 : ℤ) ≤ 3)
    · rw [hop]
      exact (by decide : (0 : ℤ) ≤ 3)

/-- The handler over a range of 32-bit numbers. -/
theorem alwaysAdvertises_iff {cfg : LuftpdConfig} {binds : ℤ → Bool} {chosen : ℕ}
    (hchosen : 1 ≤ chosen ∧ chosen ≤ 65535)
    (hmin : -2 ^ 31 ≤ cfg.dataPortMin ∧ cfg.dataPortMin < 2 ^ 31)
    (hmax : cfg.dataPortMax < 2 ^ 31) :
    AlwaysAdvertises cfg binds chosen ↔
      (∀ port, FirstFree binds cfg.dataPortMin cfg.dataPortMax port → 1 ≤ port ∧ port ≤ 65535) ∧
        (cfg.dataPortMax = 2 ^ 31 - 1 →
          ∃ port, FirstFree binds cfg.dataPortMin cfg.dataPortMax port) := by
  constructor
  · intro h
    obtain ⟨tr, u, c', hrun, hfollows, hworks⟩ := exists_bind_run cfg binds
    obtain ⟨hdefined, hadvertises⟩ := h _ _ _ _ hrun hfollows
    rcases enterPasvMode_runs hrun with ⟨-, e, he, hop, hret⟩ | ⟨-, hscan, hroom, -⟩ |
      ⟨-, -, hop⟩ | ⟨-, -, -, -, e, he, hop, hret⟩ |
      ⟨hfront, htried, hrange, hop, hbound, hbehind, hreply⟩
    · exact absurd (hworks e he (.inl hop)) (Int.not_le.2 hret)
    · refine ⟨fun port hfree => ?_, fun hlast => by omega⟩
      exact absurd hfree.2.1
        (hscan.not_binds (hfollows.mono (by simp)) hfree.1.1 (by have := hfree.1.2; omega))
    · exact absurd hop (hdefined _ (by simp))
    · exact absurd (hworks e (by simp [he]) (.inr hop)) (Int.not_le.2 hret)
    · rename_i port e r
      have hfirst : FirstFree binds cfg.dataPortMin cfg.dataPortMax port :=
        ⟨hrange, (hfollows e (by simp) port hop).1 hbound,
          fun q hlo hlt => htried.not_binds (hfollows.mono (by simp)) hlo hlt⟩
      have hport : 1 ≤ port ∧ port ≤ 65535 := (advertises_replied_iff hchosen hfront htried hop
        hbound hbehind hreply (by omega) (by omega)).1 hadvertises
      refine ⟨fun q hfree => ?_, fun _ => ⟨port, hfirst⟩⟩
      have hsame : q = port := by
        rcases lt_trichotomy q port with hlt | heq | hgt
        · exact absurd hfree.2.1 (hfirst.2.2 q hfree.1.1 hlt)
        · exact heq
        · exact absurd hfirst.2.1 (hfree.2.2 port hrange.1 hgt)
      exact hsame ▸ hport
  · rintro ⟨h, hlast⟩ c tr u c' hrun hfollows
    rcases enterPasvMode_runs hrun with ⟨hquiet, -⟩ | ⟨hfront, hscan, -, hbehind⟩ |
      ⟨hscan, hover, -⟩ | ⟨hfront, htried, hop, hbehind, -⟩ |
      ⟨hfront, htried, hrange, hop, hbound, hbehind, hreply⟩
    · exact ⟨hquiet.defined, hquiet.unreplied.advertises⟩
    · exact ⟨(hfront.defined.append hscan.defined).append hbehind.defined,
        ((hfront.unreplied.append hscan.unreplied).append hbehind.unreplied).advertises⟩
    · obtain ⟨port, hfree⟩ := hlast (by omega)
      have hle := hfree.1.2
      exact absurd hfree.2.1 (hscan.not_binds (hfollows.mono (by simp)) hfree.1.1 (by omega))
    · exact ⟨(hfront.defined.append (htried.defined_concat hop)).append hbehind.defined,
        (unreplied_scan hfront htried hop hbehind).advertises⟩
    · rename_i port e r
      have hfirst : FirstFree binds cfg.dataPortMin cfg.dataPortMax port :=
        ⟨hrange, (hfollows e (by simp) port hop).1 hbound,
          fun q hlo hlt => htried.not_binds (hfollows.mono (by simp)) hlo hlt⟩
      have hreplied : Defined [r] := defined_singleton (by rw [hreply]; exact nofun)
      exact ⟨(hfront.defined.append (htried.defined_concat hop)).append
          (hbehind.defined.append hreplied),
        (advertises_replied_iff hchosen hfront htried hop hbound hbehind hreply (by omega)
          (by omega)).2 (h port hfirst)⟩

/-- **The reply names the port of the socket exactly if the first port of the range that can be
bound is between 1 and 65535**, and there is one if the range goes up to `INT_MAX`, whatever the
configuration, and whatever can be bound. -/
theorem pasv_advertises_iff (lucfgOpen : LucfgOpen) (file : CString)
    (inetAddr : Bytes → Option (UInt8 × UInt8 × UInt8 × UInt8)) (binds : ℤ → Bool) {chosen : ℕ}
    (hchosen : 1 ≤ chosen ∧ chosen ≤ 65535) :
    let cfg := (luftpdCfgLoadWithFile lucfgOpen file).2.seen inetAddr
    AlwaysAdvertises cfg binds chosen ↔
      (∀ port, FirstFree binds cfg.dataPortMin cfg.dataPortMax port → 1 ≤ port ∧ port ≤ 65535) ∧
        (cfg.dataPortMax = 2 ^ 31 - 1 →
          ∃ port, FirstFree binds cfg.dataPortMin cfg.dataPortMax port) :=
  alwaysAdvertises_iff hchosen ⟨Int32.le_toInt _, Int32.toInt_lt _⟩ (Int32.toInt_lt _)

/-- The ports of the defaults, of which every other one is taken. -/
theorem pasv_advertises_iff_defaults :
    AlwaysAdvertises ((luftpdCfgLoadWithFile (fun _ => none) ftpConf).2.seen fun _ => none)
      (fun port => port % 2 = 1) 40000 := by
  refine (pasv_advertises_iff (fun _ => none) ftpConf (fun _ => none) _ (by decide)).2
    ⟨?_, fun hlast => absurd hlast (by decide)⟩
  rintro port ⟨⟨hlo, hhi⟩, -⟩
  have hmin : 30000 ≤ port := hlo
  have hmax : port ≤ 30100 := hhi
  omega

/-- The getters of a file that gives one port for data connections, 70000. -/
def highPortFile : Lucfg where
  getString _ _ := none
  getUint16 _ _ := none
  getInt32 _ key := if key = "data_port_min" ∨ key = "data_port_max" then some 70000 else none
  getBool _ _ := none

/-- **A port above 65535 is cut for the socket and not for the reply**: with the port 70000 the
socket is bound to 4464, and the client is told `273,112`. -/
theorem pasv_port_cut :
    let cfg := (luftpdCfgLoadWithFile (onlyFile ftpConf highPortFile) ftpConf).2.seen fun _ => none
    (luftpdCfgLoadWithFile (onlyFile ftpConf highPortFile) ftpConf).1 = 0 ∧
      boundPort 40000 70000 = 4464 ∧
      lastTwoNumbers (luftpdSendResponse (textBytes (pasvReply cfg 70000))) = some (273, 112) ∧
      ¬ AlwaysAdvertises cfg (fun _ => true) 40000 := by
  intro cfg
  have hmin : cfg.dataPortMin = 70000 := by decide
  have hmax : cfg.dataPortMax = 70000 := by decide
  refine ⟨by decide, by decide, lastTwoNumbers_pasvReply cfg (by decide) (by decide), fun h => ?_⟩
  have hall := ((alwaysAdvertises_iff (by decide) (by omega) (by omega)).1 h).1 70000
    ⟨⟨by omega, by omega⟩, rfl, fun q hlo hlt => by omega⟩
  exact absurd hall.2 (by decide)

end Lucp.Luftpd
