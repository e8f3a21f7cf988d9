import MyFtp.Client.DataSocket

/-!
# The client

`login.c`, `command_executor.c`, `client.c` and the commands of
`bonus/src/commands`, as far as the control connection goes. The replies come
from outside, one by one, each of them a line or the end of the stream. How
`read_response` gets a line out of the bytes on the socket is left to
`Client.Responses`.

A reply is a null pointer or a string. What the C code must not do with it stops
the program with the misuse that it is. The lines the client sends and the
replies it reads are on one log, in the order in which it does so. With every
reply stands what the client was waiting for, and with every `connect` the reply
that was read last.

The parser is the one of the server, word for word.
-/

namespace MyFtp.Client

open MyFtp.Posix
open MyFtp.Server (Fd SockAddr Command CommandStatus touppercase parseBuffer)

/-- The reply the client waits for. For `PASV` it is noted whether `socket` will
return a descriptor then. -/
inductive Awaits
  | greeting
  | user
  | pass
  | pwd
  | cwd
  | newDirectory
  | pasv (socket : Bool)
  | opening
  | complete
  | quit
  deriving DecidableEq

/-- What C leaves undefined. The last one is the parser's own. -/
inductive Misuse
  /-- A null pointer is used as a reply. -/
  | null
  /-- A reply is used after it was freed. -/
  | freed
  /-- A reply is read from behind its terminating NUL on. -/
  | beyond
  /-- A number that `sscanf` did not store is used. -/
  | unset
  /-- The line that was typed has no defined parse. -/
  | parser
  deriving DecidableEq

/-- What the client does on the control connection: it sends a line, or reads a
reply. -/
inductive Said
  | sent (line : CStr)
  | heard (awaits : Awaits) (response : Option CStr)
  deriving DecidableEq

/-- The line, if it is one. -/
def Said.line : Said → Option CStr
  | .sent line => some line
  | .heard .. => none

/-- The reply, if it is one. -/
def Said.reply : Said → Option (Awaits × Option CStr)
  | .sent _ => none
  | .heard awaits response => some (awaits, response)

/-- The client's side of a session: the replies still to come, the log of the control
connection, the directories it has printed, and the addresses it has connected
to. -/
structure Ctx where
  replies : List (Option (List Byte))
  log : List Said
  shown : List CStr
  connects : List (Option (Awaits × Option CStr) × SockAddr)
  deriving DecidableEq

/-- A client that is connected, and what its server will reply. -/
def Ctx.start (replies : List (Option (List Byte))) : Ctx := ⟨replies, [], [], []⟩

/-- The lines the client has sent. -/
def Ctx.sent (s : Ctx) : List CStr := s.log.filterMap Said.line

/-- The replies it has read. -/
def Ctx.heard (s : Ctx) : List (Awaits × Option CStr) := s.log.filterMap Said.reply

/-- One more entry on the log. -/
def Ctx.note (s : Ctx) (said : Said) : Ctx := { s with log := s.log ++ [said] }

@[simp] theorem Ctx.replies_note (s : Ctx) (said : Said) : (s.note said).replies = s.replies := rfl

@[simp] theorem Ctx.sent_note_sent (s : Ctx) (line : CStr) :
    (s.note (.sent line)).sent = s.sent ++ [line] := List.filterMap_append

@[simp] theorem Ctx.sent_note_heard (s : Ctx) (awaits : Awaits) (response : Option CStr) :
    (s.note (.heard awaits response)).sent = s.sent :=
  List.filterMap_append.trans (List.append_nil _)

/-- The language of the client's functions. -/
abbrev C := Prog Ctx Misuse

/-- The outcomes of the system calls of one command. -/
structure Calls where
  socket : Option Fd
  connect : Bool
  access : Bool

/-- Nothing fails. -/
def Calls.fine (fd : Fd) : Calls := { socket := some fd, connect := true, access := true }

/-- The state after a reply was read. -/
def Ctx.heardNext (s : Ctx) (awaits : Awaits) : Ctx :=
  { s with replies := s.replies.tail }.note (.heard awaits ((s.replies.headD none).map cstr))

/-- `read_response`, as its callers see it. Behind the last reply the stream is at its
end. -/
def nextResponse (awaits : Awaits) : C (Option CStr) := fun s =>
  (.ok ((s.replies.headD none).map cstr), s.heardNext awaits)

theorem nextResponse_bind_apply {α : Type} (awaits : Awaits) (k : Option CStr → C α) (s : Ctx) :
    (nextResponse awaits >>= k) s =
      k ((s.replies.headD none).map cstr) (s.heardNext awaits) := rfl

/-- `dprintf` on the control socket. -/
def send (line : CStr) : C Unit := Prog.modify fun s => s.note (.sent line)

/-- A command with an argument, as it is printed on the control socket. -/
def commandLine (word path : CStr) : CStr := word ++ lit " " ++ path ++ lit "\r\n"

/-- Print what follows the code, from `response + 4`. -/
def complain (response : CStr) : C Unit :=
  if response.length < 4 then Prog.fail .beyond else return ()

/-- `strncmp(response, code, 3) == 0`. -/
def hasCode (response : CStr) (code : String) : Bool := strncmp response (lit code) 3 == 0

/-! ## `utils.c` -/

/-- `get_filename_from_filepath`: what is behind the last slash, or everything. -/
def getFilenameFromFilepath (filepath : CStr) : CStr := filepath.rtakeWhile (· ≠ slash)

/-! ## `pwd.c`, `cd.c` -/

/-- What is between the first quotation mark and the next one, or behind the first
one when there is no other. -/
def quotedPath (response : CStr) : Option CStr :=
  match response.dropWhile (· ≠ 34) with
  | [] => none
  | _ :: path => some (path.takeWhile (· ≠ 34))

/-- `display_current_path`, of which either file has its own. -/
def displayCurrentPath (response : CStr) : C Unit :=
  match quotedPath response with
  | none => return ()
  | some path => Prog.modify fun s => { s with shown := s.shown ++ [path] }

/-- `pwd_command`. -/
def pwdCommand (command : Command) : C CommandStatus := do
  if command.argc ≠ 0 then return .failure
  else do
    send (lit "PWD\r\n")
    match ← nextResponse .pwd with
    | none => return .failure
    | some response =>
      if hasCode response "257" = false then do
        complain response
        return .failure
      else do
        displayCurrentPath response
        return .success

/-- `display_new_path`. It goes on after both of its errors: with a null pointer,
and with a reply it has freed. -/
def displayNewPath : C Unit := do
  send (lit "PWD\r\n")
  match ← nextResponse .newDirectory with
  | none => Prog.fail .null
  | some response =>
    if hasCode response "257" = false then do
      complain response
      Prog.fail .freed
    else displayCurrentPath response

/-- `cd_command`. -/
def cdCommand (command : Command) : C CommandStatus := do
  if command.argc ≠ 1 then return .failure
  else do
    send (commandLine (lit "CWD") (command.argv.headD []))
    match ← nextResponse .cwd with
    | none => return .failure
    | some response =>
      if hasCode response "250" = false then do
        complain response
        return .failure
      else do
        displayNewPath
        return .success

/-! ## `data_socket.c` -/

/-- `send_pasv_command`. -/
def sendPasvCommand (calls : Calls) : C (Option CStr) := do
  send (lit "PASV\r\n")
  match ← nextResponse (.pasv calls.socket.isSome) with
  | none => return none
  | some response => if hasCode response "227" = false then return none else return some response

/-- `create_data_socket`. -/
def createDataSocket (calls : Calls) : C (Option DataSocket) := do
  match ← sendPasvCommand calls with
  | none => return none
  | some response =>
    match setupDataSocket calls.socket (parsePasvResponse response) with
    | .error _ => Prog.fail .unset
    | .ok dataSocket => return dataSocket

/-- `connect_data_socket`. -/
def connectDataSocket (calls : Calls) (dataSocket : DataSocket) : C CommandStatus := do
  Prog.modify fun s => { s with connects := s.connects ++ [(s.heard.getLast?, dataSocket.addr)] }
  return if calls.connect then .success else .failure

/-- `initialize_client_data_socket`. -/
def initializeClientDataSocket (calls : Calls) : C CommandStatus := do
  match ← createDataSocket calls with
  | none => return .failure
  | some dataSocket => connectDataSocket calls dataSocket

/-! ## `get.c`, `put.c`, `ls.c` -/

/-- `check_get_response`, word for word `check_list_response`; `check_put_response`
sends the file between the two replies. -/
def checkResponses : C CommandStatus := do
  match ← nextResponse .opening with
  | none => return .failure
  | some response =>
    if hasCode response "150" = false then return .failure
    else
      match ← nextResponse .complete with
      | none => return .failure
      | some response => return if hasCode response "226" then .success else .failure

/-- `execute_get_command`. -/
def executeGetCommand (filepath : CStr) : C CommandStatus := do
  send (commandLine (lit "RETR") filepath)
  checkResponses

/-- `execute_put_command`. -/
def executePutCommand (calls : Calls) (filepath : CStr) : C CommandStatus := do
  let filename := getFilenameFromFilepath filepath
  if calls.access = false then return .failure
  else do
    send (commandLine (lit "STOR") filename)
    checkResponses

/-- `execute_ls_command`. -/
def executeLsCommand (command : Command) : C CommandStatus := do
  send (commandLine (lit "LIST") (command.argv.head?.getD (lit ".")))
  checkResponses

/-- `get_command`. -/
def getCommand (calls : Calls) (command : Command) : C CommandStatus := do
  if command.argc ≠ 1 then return .failure
  else if (← initializeClientDataSocket calls) = .failure then return .failure
  else executeGetCommand (command.argv.headD [])

/-- `put_command`. -/
def putCommand (calls : Calls) (command : Command) : C CommandStatus := do
  if command.argc ≠ 1 then return .failure
  else if (← initializeClientDataSocket calls) = .failure then return .failure
  else executePutCommand calls (command.argv.headD [])

/-- `ls_command`. -/
def lsCommand (calls : Calls) (command : Command) : C CommandStatus := do
  if (← initializeClientDataSocket calls) = .failure then return .failure
  else executeLsCommand command

/-! ## `quit.c`, `exit.c`, `help.c` -/

/-- `quit_command`. -/
def quitCommand : C CommandStatus := do
  send (lit "QUIT\r\n")
  match ← nextResponse .quit with
  | none => return .failure
  | some response => return if hasCode response "221" then .quit else .failure

/-- `exit_command`. -/
def exitCommand : C CommandStatus := return .quit

/-- `help_command`, which only prints. -/
def helpCommand : C CommandStatus := return .success

/-! ## `command_executor.c` -/

/-- `command_handlers`. -/
def commandHandlers : List (CStr × (Calls → Command → C CommandStatus)) :=
  [(lit "QUIT", fun _ _ => quitCommand),
    (lit "EXIT", fun _ _ => exitCommand),
    (lit "HELP", fun _ _ => helpCommand),
    (lit "LS", lsCommand),
    (lit "CD", fun _ command => cdCommand command),
    (lit "PWD", fun _ command => pwdCommand command),
    (lit "GET", getCommand),
    (lit "PUT", putCommand)]

/-- `execute_command`. -/
def executeCommand (calls : Calls) (command : Command) : C CommandStatus :=
  match commandHandlers.find? fun h => h.1 == touppercase command.name with
  | none => return .notFound
  | some handler => handler.2 calls command

/-! ## `login.c` -/

/-- `send_user_command`. The line that was typed still has its newline. -/
def sendUserCommand (username : CStr) : C Bool := do
  send (lit "USER " ++ username)
  match ← nextResponse .user with
  | none => return false
  | some response => return hasCode response "331"

/-- `send_pass_command`. -/
def sendPassCommand (password : CStr) : C Bool := do
  send (lit "PASS " ++ password)
  match ← nextResponse .pass with
  | none => return false
  | some response =>
    if hasCode response "230" then return true
    else do
      complain response
      return false

/-- `attempt_login` until one succeeds or fails with 84: whether it succeeded, and
the lines that are still to be typed. -/
def loginLoop : List (CStr × Calls) → C (Bool × List (CStr × Calls))
  | [] => return (false, [])
  | (username, _) :: inputs => do
    if (← sendUserCommand username) = false then return (false, inputs)
    else
      match inputs with
      | [] => return (false, [])
      | (password, _) :: inputs => do
        if ← sendPassCommand password then return (true, inputs) else loginLoop inputs

/-- `login`. -/
def login (inputs : List (CStr × Calls)) : C (Bool × List (CStr × Calls)) := do
  let _ ← nextResponse .greeting
  loginLoop inputs

/-! ## `client.c` -/

/-- `loop_execution`, given the line `read_input` returned. -/
def loopExecution (buffer : CStr) (calls : Calls) : C CommandStatus :=
  match parseBuffer buffer with
  | .error _ => Prog.fail .parser
  | .ok none => return .quit
  | .ok (some command) => executeCommand calls command

/-- The loop of `client`. At the end of the input `read_input` returns a null
pointer. -/
def clientLoop : List (CStr × Calls) → C Unit
  | [] => return ()
  | (buffer, calls) :: inputs => do
    if (← loopExecution buffer calls) = .quit then return () else clientLoop inputs

/-- `client`, once it is connected, given the lines that are typed. -/
def client (inputs : List (CStr × Calls)) : C Unit := do
  let (loggedIn, inputs) ← login inputs
  if loggedIn then clientLoop inputs
  send (lit "QUIT\r\n")

end MyFtp.Client
