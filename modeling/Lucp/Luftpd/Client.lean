import Lucp.General.Script
import Lucp.Luftpd.Resolve

/-!
# The FTP server's client threads

`luftpd_handle_client` and the handlers it calls.  They all work through one pointer, `client`, into
the array of client records, and other threads write to that array; so each statement that reads or
writes the record is one operation, `ClientOp`, and a handler is a `Script` of them.  The socket
descriptors are never kept in a local variable: every system call on one of them reads it from the
record, and `ClientOp.sys` is such a call.

A call of the operating system is answered by an `OsAnswer`; nothing is assumed about it.  The
server leaves `SIGPIPE` alone, so a `send()` to a client that has hung up can end it; what the
answers say about that is looked at where it matters.  What `setsockopt`, `fclose` and `closedir`
do, and log lines, are left out; so is `client_addr`, which is only printed, and `config`, which
points to the one configuration of the server.
-/

set_option autoImplicit false

namespace Lucp.Luftpd

/-! ## The record -/

inductive LuftpdTransferType
  | ascii
  | binary
  deriving DecidableEq

/-- `LuftpdClient_t`. -/
@[ext]
structure LuftpdClient where
  controlSock : Int
  dataSock : Int
  pasvSock : Int
  threadId : Int
  isActive : Bool
  currentDir : Bytes
  transferType : LuftpdTransferType

instance : DecidableEq LuftpdClient := fun _ _ => decidable_of_iff _ LuftpdClient.ext_iff.symm

/-- `LuftpdConfig_t`, as far as it is read; `address` is what `inet_addr()` makes of `ip`. -/
structure LuftpdConfig where
  address : Option (UInt8 × UInt8 × UInt8 × UInt8)
  rootDir : Bytes
  maxConnections : Int
  dataPortMin : Int
  dataPortMax : Int

/-- The sockets of a record. -/
inductive SockField
  | control
  | data
  | pasv
  deriving DecidableEq

/-- The value of a socket field. -/
def LuftpdClient.sock (c : LuftpdClient) : SockField → Int
  | .control => c.controlSock
  | .data => c.dataSock
  | .pasv => c.pasvSock

/-- The record with -1 in a socket field. -/
def LuftpdClient.clear (c : LuftpdClient) : SockField → LuftpdClient
  | .control => { c with controlSock := -1 }
  | .data => { c with dataSock := -1 }
  | .pasv => { c with pasvSock := -1 }

/-! ## What the operating system answers -/

/-- `st_mode`, as far as it is looked at. -/
inductive FileKind
  | directory
  | regular
  | other
  deriving DecidableEq

/-- The answer to a call. -/
structure OsAnswer where
  /-- The result; negative when the call failed. -/
  ret : Int
  /-- What `realpath()` knows at this moment. -/
  fs : FileSystem
  /-- The bytes `recv()` delivers, the time of a file as text, or what lies behind a string. -/
  bytes : Bytes := []
  /-- What `stat()` says of a file. -/
  kind : FileKind := .other
  size : Int := 0
  /-- The names in a directory, or the pieces `fread()` delivers of a file. -/
  items : List Bytes := []
  /-- Whether a `send()` raises `SIGPIPE`, so that the process ends with it. -/
  sigpipe : Bool := false

/-- A system call on a socket of the record. -/
inductive SockCall
  | recv
  | send (buf : Bytes)
  | close
  | bind (port : Int)
  | listen
  | select
  | accept
  deriving DecidableEq

/-- A system call that has nothing to do with the record. -/
inductive HostCall
  /-- The calls of `realpath()` inside `luftpd_resolve_path()`. -/
  | realpath
  | stat (path : Bytes)
  | socket
  | opendir (path : Bytes)
  | fopen (path : Bytes)
  /-- A read behind the end of a string on the stack. -/
  | stack
  /-- No call, but something that has no meaning in C; what follows is no part of the program. -/
  | undefined
  deriving DecidableEq

/-- What a client thread does at once. -/
inductive ClientOp
  | isActive
  | currentDir
  | sock (f : SockField)
  | setCurrentDir (dir : Bytes)
  | setTransferType (t : LuftpdTransferType)
  | setDataSock (fd : Int)
  | setPasvSock (fd : Int)
  | clear (f : SockField)
  | deactivate
  /-- The `send()` of `luftpd_send_response(client->control_sock, ...)`. -/
  | reply (buffer : Bytes)
  | sys (f : SockField) (call : SockCall)
  | host (call : HostCall)
  deriving DecidableEq

/-- What an operation gives back. -/
abbrev ClientOp.Ans : ClientOp → Type
  | .isActive => Bool
  | .currentDir => Bytes
  | .sock _ => Int
  | .sys _ _ => OsAnswer
  | .host _ => OsAnswer
  | _ => Unit

/-- An operation on the record, given what the operating system answers. -/
def ClientOp.exec (c : LuftpdClient) (os : OsAnswer) : (o : ClientOp) → LuftpdClient × o.Ans
  | .isActive => (c, c.isActive)
  | .currentDir => (c, c.currentDir)
  | .sock f => (c, c.sock f)
  | .setCurrentDir dir => ({ c with currentDir := dir }, ())
  | .setTransferType t => ({ c with transferType := t }, ())
  | .setDataSock fd => ({ c with dataSock := fd }, ())
  | .setPasvSock fd => ({ c with pasvSock := fd }, ())
  | .clear f => (c.clear f, ())
  | .deactivate => ({ c with isActive := false }, ())
  | .reply _ => (c, ())
  | .sys _ _ => (c, os)
  | .host _ => (c, os)

/-- A part of a client thread. -/
abbrev ClientScript := Script ClientOp ClientOp.Ans

/-- An operation as a script. -/
abbrev doOp (o : ClientOp) : ClientScript o.Ans := Script.op o

/-! ## The texts on the control connection -/

/-- What `luftpd_send_response()` sends: at most 1021 characters of the text, and the end of
line. -/
def luftpdSendResponse (text : Bytes) : Bytes :=
  let buffer := text.take 1021
  if [0x0D, 0x0A] <:+ buffer then buffer else buffer ++ [0x0D, 0x0A]

/-- `luftpd_send_response(client->control_sock, ...)`, with the formatted text. -/
def luftpdRespond (text : Bytes) : ClientScript Unit := doOp (.reply (luftpdSendResponse text))

/-- The string in front of the terminating zero. -/
def cString (s : Bytes) : Bytes := s.takeWhile (· ≠ 0)

/-- `toupper()`. -/
def toupper (c : UInt8) : UInt8 := if 0x61 ≤ c ∧ c ≤ 0x7A then c - 0x20 else c

/-- `luftpd_parse_command()`: the command and its argument.  It always returns 0. -/
def luftpdParseCommand (cmd : Bytes) : Bytes × Bytes :=
  let buffer := cmd.take 511
  let buffer := buffer.takeWhile (· ≠ 0x0D)
  let buffer := buffer.takeWhile (· ≠ 0x0A)
  let outCmd := (buffer.takeWhile (· ≠ 0x20)).take 15
  let outArg := ((buffer.dropWhile (· ≠ 0x20)).drop 1).take 255
  (outCmd.map toupper, outArg)

end Lucp.Luftpd
