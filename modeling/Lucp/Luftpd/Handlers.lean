import Lucp.Luftpd.Client

/-!
# The commands of the FTP server

The handlers of `luftpd.c` in the order of the source, `luftpd_enter_pasv_mode`,
`lufptd_create_data_connection` and `lufptd_close_client`, and one turn of the loop in
`luftpd_handle_client`.  The results of `luftpd_send_response` are not looked at there, so the
handlers return nothing.
-/

set_option autoImplicit false

namespace Lucp.Luftpd

variable (cfg : LuftpdConfig)

/-- A reply without values. -/
def reply (text : String) : ClientScript Unit := luftpdRespond (textBytes text)

/-- The call `luftpd_resolve_path(client->config->root_dir, client->current_dir, arg, ...)`. -/
def resolve (arg : Bytes) : ClientScript (Except Errno Bytes) := do
  let currentDir ← doOp .currentDir
  let os ← doOp (.host .realpath)
  return luftpdResolvePath os.fs cfg.rootDir currentDir arg pathMax

/-- What `resolved_path + strlen(root_dir)` points to; `behind` is what the stack holds behind the
string. -/
def relativePath (rootDir resolvedPath behind : Bytes) : Bytes :=
  cString ((resolvedPath ++ 0 :: behind).drop rootDir.length)

/-- What `CWD`, `LIST`, `RETR` and `SIZE` do with their argument before they do their work on the
file it names, which has to be of the given kind. -/
def withFile (arg : Bytes) (kind : FileKind) (notFound : String)
    (work : Bytes → OsAnswer → ClientScript Unit) : ClientScript Unit := do
  match ← resolve cfg arg with
  | .error _ => reply "550 Failed to resolve path"
  | .ok resolvedPath =>
    let st ← doOp (.host (.stat resolvedPath))
    if st.ret ≠ 0 ∨ st.kind ≠ kind then reply notFound else work resolvedPath st

/-- `luftpd_handle_cwd()`. -/
def luftpdHandleCwd (arg : Bytes) : ClientScript Unit :=
  withFile cfg arg .directory "550 Directory not found" fun resolvedPath _ => do
    let stack ← doOp (.host .stack)
    let relative := relativePath cfg.rootDir resolvedPath stack.bytes
    if relative = [] then doOp (.setCurrentDir [slash])
    else doOp (.setCurrentDir (relative.take (pathMax - 1)))
    reply "250 Directory successfully changed"

/-- `lufptd_create_data_connection()`: whether there is a data connection. -/
def lufptdCreateDataConnection : ClientScript Bool := do
  if (← doOp (.sock .pasv)) = -1 then return false
  let result ← doOp (.sys .pasv .select)
  if result.ret ≤ 0 then return false
  let sock ← doOp (.sys .pasv .accept)
  doOp (.setDataSock sock.ret)
  let _ ← doOp (.sys .pasv .close)
  doOp (.clear .pasv)
  return 0 ≤ (← doOp (.sock .data))

/-- A socket that is not -1 is closed. -/
def closeSock (f : SockField) : ClientScript Unit := do
  if (← doOp (.sock f)) ≠ -1 then
    let _ ← doOp (.sys f .close)
    doOp (.clear f)

/-- `lufptd_close_client()`. -/
def lufptdCloseClient : ClientScript Unit := do
  closeSock .control
  closeSock .data
  closeSock .pasv
  doOp .deactivate

/-- `%8ld`. -/
def padded (n : Int) : String :=
  let digits := toString n
  String.ofList (List.replicate (8 - digits.length) ' ') ++ digits

/-- The line of `LIST` for one entry, as `snprintf()` cuts it. -/
def listing (kind : FileKind) (size : Int) (time name : Bytes) : Bytes :=
  let head := if kind = .directory then "drwxr-xr-x" else "-rw-r--r--"
  (textBytes (head ++ " 1 ftp ftp " ++ padded size ++ " ") ++ time ++ [0x20] ++ name
    ++ [0x0D, 0x0A]).take 511

/-- One entry of the directory. -/
def listEntry (resolvedPath name : Bytes) : ClientScript Bool := do
  if name = dot ∨ name = dotDot then return true
  let st ← doOp (.host (.stat ((resolvedPath ++ [slash] ++ name).take (pathMax - 1))))
  if st.ret ≠ 0 then return true
  let _ ← doOp (.sys .data (.send (listing st.kind st.size st.bytes name)))
  return true

/-- What `LIST` and `RETR` do once they have their file: `call` opens it, and what is in it is sent
on a data connection. -/
def transfer (opening : String) (call : HostCall) (failed : String)
    (sendAll : OsAnswer → ClientScript Unit) : ClientScript Unit := do
  if ← lufptdCreateDataConnection then
    reply opening
    let file ← doOp (.host call)
    if file.ret < 0 then
      lufptdCloseClient
      reply failed
    else
      sendAll file
      let _ ← doOp (.sys .data .close)
      doOp (.clear .data)
      reply "226 Transfer complete"
  else reply "425 Can't open data connection"

/-- `luftpd_handle_list()`. -/
def luftpdHandleList (arg : Bytes) : ClientScript Unit :=
  withFile cfg arg .directory "550 Directory not found" fun resolvedPath _ =>
    transfer "150 Opening ASCII mode data connection for file list" (.opendir resolvedPath)
      "550 Failed to open directory" fun dir => Script.forEach dir.items (listEntry resolvedPath)

/-- One piece of the file. -/
def retrPiece (piece : Bytes) : ClientScript Bool := do
  let sent ← doOp (.sys .data (.send piece))
  return 0 ≤ sent.ret

/-- `luftpd_handle_retr()`. -/
def luftpdHandleRetr (arg : Bytes) : ClientScript Unit :=
  withFile cfg arg .regular "550 File not found" fun resolvedPath _ =>
    transfer "150 Opening data connection for file transfer" (.fopen resolvedPath)
      "550 Failed to open file" fun file => Script.forEach file.items retrPiece

/-- `luftpd_handle_syst()`. -/
def luftpdHandleSyst : ClientScript Unit := reply "215 UNIX Type: L8"

/-- `luftpd_handle_type()`; `strcasecmp()` compares what `toupper()` makes of the strings. -/
def luftpdHandleType (arg : Bytes) : ClientScript Unit := do
  let arg := arg.map toupper
  if arg = textBytes "A" ∨ arg = textBytes "ASCII" then
    doOp (.setTransferType .ascii)
    reply "200 Switching to ASCII mode"
  else if arg = textBytes "I" ∨ arg = textBytes "BINARY" then
    doOp (.setTransferType .binary)
    reply "200 Switching to Binary mode"
  else reply "500 Unrecognized TYPE command"

/-- `luftpd_handle_feat()`. -/
def luftpdHandleFeat : ClientScript Unit := do
  reply "211-Features:"
  reply " PASV"
  reply " SIZE"
  reply "211 End"

/-- `luftpd_handle_size()`. -/
def luftpdHandleSize (arg : Bytes) : ClientScript Unit :=
  withFile cfg arg .regular "550 File not found" fun _ st =>
    luftpdRespond (textBytes ("213 " ++ toString st.size))

/-- The loop over the ports, from `port` on, with `left` of them left: the port that could be bound.
`port` is an `int`, which `port++` overflows when `INT_MAX` could not be bound either. -/
def bindLoop : ℕ → Int → ClientScript (Option Int)
  | 0, port =>
    if port < 2 ^ 31 then return none
    else do
      let _ ← doOp (.host .undefined)
      return none
  | left + 1, port => do
    let bound ← doOp (.sys .pasv (.bind port))
    if bound.ret = 0 then return some port else bindLoop left (port + 1)

/-- The reply to `PASV`. -/
def pasvReply (port : Int) : String :=
  let (a, b, c, d) := cfg.address.getD (0, 0, 0, 0)
  "227 Entering Passive Mode (" ++ toString a ++ "," ++ toString b ++ "," ++ toString c ++ ","
    ++ toString d ++ "," ++ toString (port / 256) ++ "," ++ toString (port % 256) ++ ")"

/-- `luftpd_enter_pasv_mode()`. -/
def luftpdEnterPasvMode : ClientScript Unit := do
  closeSock .pasv
  let sock ← doOp (.host .socket)
  doOp (.setPasvSock sock.ret)
  if (← doOp (.sock .pasv)) < 0 then return ()
  match ← bindLoop (cfg.dataPortMax - cfg.dataPortMin + 1).toNat cfg.dataPortMin with
  | none =>
    let _ ← doOp (.sys .pasv .close)
    doOp (.clear .pasv)
  | some port =>
    let listening ← doOp (.sys .pasv .listen)
    if listening.ret < 0 then
      let _ ← doOp (.sys .pasv .close)
      doOp (.clear .pasv)
    else luftpdRespond (textBytes (pasvReply cfg port))

/-- The command of one line; the answer is whether the loop goes on. -/
def luftpdHandleCommand (command argument : Bytes) : ClientScript Bool := do
  if command = textBytes "USER" then reply "331 User name okay, need password"
  else if command = textBytes "PASS" then reply "230 User logged in, proceed"
  else if command = textBytes "SYST" then luftpdHandleSyst
  else if command = textBytes "FEAT" then luftpdHandleFeat
  else if command = textBytes "PWD" ∨ command = textBytes "XPWD" then
    let currentDir ← doOp .currentDir
    luftpdRespond (textBytes "257 \"" ++ currentDir ++ textBytes "\"")
  else if command = textBytes "CWD" then luftpdHandleCwd cfg argument
  else if command = textBytes "TYPE" then luftpdHandleType argument
  else if command = textBytes "PASV" then luftpdEnterPasvMode cfg
  else if command = textBytes "LIST" ∨ command = textBytes "NLST" then
    luftpdHandleList cfg argument
  else if command = textBytes "RETR" then luftpdHandleRetr cfg argument
  else if command = textBytes "SIZE" then luftpdHandleSize cfg argument
  else if command = textBytes "QUIT" then
    reply "221 Goodbye"
    return false
  else reply "502 Command not implemented"
  return true

/-- One turn of the loop of `luftpd_handle_client()`; the answer is whether there is another. -/
def luftpdServe : ClientScript Bool := do
  if !(← doOp .isActive) then return false
  let received ← doOp (.sys .control .recv)
  if received.ret ≤ 0 then return false
  let (command, argument) := luftpdParseCommand (cString (received.bytes.take 1023))
  luftpdHandleCommand cfg command argument

/-- The way into the loop. -/
def luftpdWelcome : ClientScript Bool := do
  reply "220 Welcome to Luftpd FTP Server"
  return true

end Lucp.Luftpd
