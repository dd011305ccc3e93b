import Lucp.General.System
import Lucp.Luftpd.Handlers
import Mathlib.Logic.Function.Basic

/-!
# The FTP server: the array of clients and the threads

The main loop of `luftpd_start_server` fills the slot `g_client_count` of the array `g_clients` for
each connection it accepts and hands a pointer to that slot to a new thread.  A thread that is
finished looks for its own record, moves the records behind it one slot down and decrements
`g_client_count`; no pointer is changed.  Both happen under `g_clients_mutex` and are one step here.
Everything else a thread does goes through its pointer, one `ClientOp` at a time, and the threads
and the main loop are interleaved in every possible way.

Two things are kept that the program does not have.  A `Record` says which connection it was
initialised for, and `accesses` lists what the threads have done through their pointers, with the
record they found there.
-/

set_option autoImplicit false

namespace Lucp.Luftpd

/-! ## One thread -/

/-- The operation puts -1 into `control_sock`. -/
def ClientOp.hangsUp : ClientOp → Bool
  | .clear .control => true
  | _ => false

/-- Where a client thread stands. -/
inductive FtpPc
  /-- In the loop; the script is the rest of this turn. -/
  | serving (rest : ClientScript Bool)
  /-- In the `lufptd_close_client()` behind the loop. -/
  | closing (rest : ClientScript Unit)
  /-- Before the removal of its record. -/
  | removing
  | finished

namespace FtpPc

/-- The operation the thread does next. -/
def next : FtpPc → Option ClientOp
  | .serving (.call o _) => some o
  | .closing (.call o _) => some o
  | _ => none

/-- The next thing a thread does outside the mutex, on the record it finds behind its pointer. -/
def advance (cfg : LuftpdConfig) (c : LuftpdClient) (os : OsAnswer) : FtpPc → LuftpdClient × FtpPc
  | .serving (.done true) => (c, .serving (luftpdServe cfg))
  | .serving (.done false) => (c, .closing lufptdCloseClient)
  | .serving (.call o k) => ((o.exec c os).1, .serving (k (o.exec c os).2))
  | .closing (.done ()) => (c, .removing)
  | .closing (.call o k) => ((o.exec c os).1, .closing (k (o.exec c os).2))
  | .removing => (c, .removing)
  | .finished => (c, .finished)

/-- The next thing the thread does is to give up `control_sock`. -/
def hangsUp (pc : FtpPc) : Bool := pc.next.any ClientOp.hangsUp

/-- The thread has not ended. -/
def alive : FtpPc → Bool
  | .finished => false
  | _ => true

/-- The thread is in the loop, or in the cleanup behind it. -/
def running : FtpPc → Bool
  | .serving _ => true
  | .closing _ => true
  | .removing => false
  | .finished => false

end FtpPc

/-- A client thread. -/
structure FtpThread where
  /-- The slot its pointer designates. -/
  slot : ℕ
  /-- The socket that was accepted for it. -/
  sock : Int
  pc : FtpPc
  /-- It has put -1 into `control_sock` itself. -/
  hungUp : Bool

/-! ## The array -/

/-- A record of the array. -/
structure Record where
  client : LuftpdClient
  /-- The thread it was initialised for. -/
  owner : Option ℕ

/-- Something a thread has done through its pointer. -/
structure Access where
  thread : ℕ
  op : ClientOp
  /-- The owner and the `control_sock` of the record it was done on. -/
  owner : Option ℕ
  control : Int

/-- The state of the server. -/
structure Daemon where
  clients : ℕ → Record
  clientCount : ℕ
  threads : List FtpThread
  accesses : List Access

/-- The main loop waits for its first connection; `g_clients` is what `malloc()` gave. -/
def Daemon.start (memory : ℕ → LuftpdClient) : Daemon :=
  ⟨fun j => ⟨memory j, none⟩, 0, [], []⟩

/-- The record of a new connection. -/
def newClient (sock threadId : Int) : LuftpdClient where
  controlSock := sock
  dataSock := -1
  pasvSock := -1
  threadId := threadId
  isActive := true
  currentDir := [slash]
  transferType := .binary

/-- The inner loop of the removal: `steps` records are moved down, the first of them to slot `j`. -/
def shiftLoop (clients : ℕ → Record) : ℕ → ℕ → ℕ → Record
  | 0, _ => clients
  | steps + 1, j => shiftLoop (Function.update clients j (clients (j + 1))) steps (j + 1)

namespace Daemon

variable (cfg : LuftpdConfig) (s : Daemon)

/-- The main loop after `accept()`: `created` is the identifier of the new thread, cut to `int`, or
nothing if there is none. -/
def accept (sock : Int) (created : Option Int) : Daemon :=
  if sock < 0 ∨ cfg.maxConnections ≤ s.clientCount then s
  else
    match created with
    | none =>
      { s with clients := Function.update s.clients s.clientCount ⟨newClient sock 0, none⟩ }
    | some threadId =>
      { s with
        clients := Function.update s.clients s.clientCount
          ⟨newClient sock threadId, some s.threads.length⟩
        clientCount := s.clientCount + 1
        threads := s.threads ++ [⟨s.clientCount, sock, .serving luftpdWelcome, false⟩] }

/-- The search of the removal: the first record with the given thread identifier. -/
def find (threadId : Int) : Option ℕ :=
  (List.range s.clientCount).find? fun i => (s.clients i).client.threadId = threadId

/-- The removal by thread `t`, which ends. -/
def remove (t : ℕ) (th : FtpThread) : Daemon :=
  let threads := s.threads.set t { th with pc := .finished }
  match s.find (s.clients th.slot).client.threadId with
  | none => { s with threads := threads }
  | some i =>
    { s with
      clients := shiftLoop s.clients (s.clientCount - 1 - i) i
      clientCount := s.clientCount - 1
      threads := threads }

/-- Thread `t` does the next thing outside the mutex. -/
def advance (t : ℕ) (th : FtpThread) (os : OsAnswer) : Daemon :=
  let r := s.clients th.slot
  let (client, pc) := th.pc.advance cfg r.client os
  { s with
    clients := Function.update s.clients th.slot { r with client := client }
    threads := s.threads.set t { th with pc := pc, hungUp := th.hungUp || th.pc.hangsUp }
    accesses := match th.pc.next with
      | none => s.accesses
      | some op => s.accesses ++ [⟨t, op, r.owner, r.client.controlSock⟩] }

end Daemon

/-- What happens next. -/
inductive DaemonEvent
  | accept (sock : Int) (created : Option Int)
  | advance (t : ℕ) (os : OsAnswer)
  | remove (t : ℕ)

/-- The effect of an event, where it is possible. -/
def Daemon.step (cfg : LuftpdConfig) (s : Daemon) : DaemonEvent → Option Daemon
  | .accept sock created => some (s.accept cfg sock created)
  | .advance t os =>
    match s.threads[t]? with
    | none => none
    | some th => if th.pc.running then some (s.advance cfg t th os) else none
  | .remove t =>
    match s.threads[t]? with
    | none => none
    | some th =>
      match th.pc with
      | .removing => some (s.remove t th)
      | _ => none

/-- The runs of the server. -/
def daemonSystem (cfg : LuftpdConfig) : System Daemon DaemonEvent where
  init s := ∃ memory, s = .start memory
  step s e s' := s.step cfg e = some s'

end Lucp.Luftpd
