import MyFtp.Server.DataSocket

/-!
# The command handlers

The fifteen functions of `src/commands`, as they run in the server process. A
check function of the source that returns 1 or -1 after printing an error is
`true` here; `cdup.c` repeats the static functions of `cwd.c` word for word, so
they are defined once.
-/

namespace MyFtp.Server

open MyFtp.Posix

/-! ## `user.c`, `pass.c` -/

/-- `user_command`. -/
def userCommand (command : Command) : M CommandStatus := do
  let c ← conn
  if c.loggedIn then refuse .cantChangeUser
  else do
    modifyConn fun c => { c with user := if command.argc = 0 then none else command.argv.head? }
    reply .specifyPassword
    return .success

/-- `get_password`. -/
def getPassword (command : Command) : CStr :=
  if command.argc = 0 then [] else command.argv.head?.getD []

/-- `check_preconditions`. -/
def checkPreconditions : M CommandStatus := do
  let c ← conn
  if c.loggedIn then refuse .alreadyLoggedIn
  else if c.user = none then refuse .loginWithUserFirst
  else return .success

/-- `process_login`. -/
def processLogin (password : CStr) : M CommandStatus := do
  let c ← conn
  let user ← deref c.user
  if (user = lit "Anonymous" ∨ user = lit "anonymous") ∧ password = [] then do
    reply .loginSuccessful
    modifyConn fun c => { c with loggedIn := true }
    return .success
  else do
    modifyConn fun c => { c with user := none }
    refuse .loginIncorrect

/-- `pass_command`. -/
def passCommand (command : Command) : M CommandStatus := do
  if (← checkPreconditions) = .failure then return .failure
  else processLogin (getPassword command)

/-! ## `cwd.c`, `cdup.c` -/

/-- `check_exists`, with the text the file prints. -/
def checkExists (failed : Reply) (path : CStr) : M Bool := do
  if (← access path) = false then do
    reply failed
    return true
  else return false

/-- `check_directory`. -/
def checkDirectory (directory : Bool) : M Bool := do
  if directory then return false
  else do
    reply .failedToChangeDirectory
    return true

/-- `check_new_path`. -/
def checkNewPath (server : ServerT) : M Unit := do
  let c ← conn
  let workingDirectory ← deref c.workingDirectory
  if strncmp (pathStr workingDirectory) (pathStr server.path)
    (pathStr server.path).length ≠ 0 then do
    let current ← getcwd
    modifyConn fun c => { c with workingDirectory := current }

/-- `change_dir`. -/
def changeDir (server : ServerT) (path : CStr) : M CommandStatus := do
  if (← checkExists .failedToChangeDirectory path) then return .failure
  else do
    let directory ← opendir path
    if (← checkDirectory directory) then return .failure
    else do
      let c ← conn
      let workingDirectory ← deref c.workingDirectory
      let _ ← chdir (pathStr workingDirectory)
      let _ ← chdir path
      let current ← getcwd
      modifyConn fun c => { c with workingDirectory := current }
      let _ ← chdir (pathStr server.path)
      checkNewPath server
      reply .directoryChanged
      return .success

/-- `cwd_command`. -/
def cwdCommand (server : ServerT) (command : Command) : M CommandStatus := do
  let c ← conn
  if c.loggedIn = false then refuse .pleaseLogin
  else if command.argc ≠ 1 then refuse .failedToChangeDirectory
  else do
    let path ← deref command.argv.head?
    changeDir server path

/-- `cdup_command`. -/
def cdupCommand (server : ServerT) : M CommandStatus := do
  let c ← conn
  if c.loggedIn = false then refuse .pleaseLogin
  else changeDir server (lit "..")

/-! ## `quit.c`, `dele.c`, `pwd.c` -/

/-- `quit_command`. -/
def quitCommand : M CommandStatus := return .quit

/-- `delete_file`. -/
def deleteFile (filepath : CStr) : M CommandStatus := do
  let c ← conn
  let workingDirectory ← deref c.workingDirectory
  let _ ← chdir (pathStr workingDirectory)
  if (← remove filepath) = false then refuse .deleteFailed
  else do
    reply .fileActionOkay
    return .success

/-- `dele_command`. -/
def deleCommand (command : Command) : M CommandStatus := do
  let c ← conn
  if c.loggedIn = false then refuse .pleaseLogin
  else if command.argc ≠ 1 then refuse .deleteFailed
  else do
    let filepath ← deref command.argv.head?
    deleteFile filepath

/-- `pwd_command`. -/
def pwdCommand : M CommandStatus := do
  let c ← conn
  if c.loggedIn = false then refuse .pleaseLogin
  else do
    let workingDirectory ← deref c.workingDirectory
    reply (.pathname workingDirectory)
    return .success

/-! ## `pasv.c`, `port.c` -/

/-- `create_passive_data_socket`. -/
def createPassiveDataSocket (ans : Answers) : M CommandStatus := do
  let created ← setupPassiveDataSocket ans
  setDataSocket created
  match created with
  | none => refuse .localError
  | some dataSocket => do
    let ports ← deref (splitPort dataSocket.port)
    reply (.enteringPassive dataSocket.addr.sinAddr ports.1 ports.2)
    return .success

/-- `pasv_command`. -/
def pasvCommand (ans : Answers) : M CommandStatus := do
  let c ← conn
  if c.loggedIn = false then refuse .pleaseLogin
  else createPassiveDataSocket ans

/-- The delimiter of a PORT argument. -/
def comma (c : Byte) : Bool := c == 44

/-- The next `n` fields of a PORT argument, or nothing when there are fewer. -/
def hostPortFields : Nat → CStr → Option (List Int)
  | 0, _ => some []
  | n + 1, arg =>
    match strtok comma arg with
    | none => none
    | some (token, rest) => (hostPortFields n rest).map (atoi token :: ·)

/-- `parse_host_port_values`. -/
def parseHostPortValues (arg : CStr) : Option (List Int) := hostPortFields 6 arg

/-- `create_active_data_socket`. -/
def createActiveDataSocket (ans : Answers) (arg : CStr) : M CommandStatus := do
  match parseHostPortValues arg with
  | none => refuse .illegalPort
  | some hostPort => do
    let created ← setupActiveDataSocket ans hostPort
    setDataSocket created
    match created with
    | none => refuse .localError
    | some _ => do
      reply .portSuccessful
      return .success

/-- `port_command`. -/
def portCommand (ans : Answers) (command : Command) : M CommandStatus := do
  let c ← conn
  if c.loggedIn = false then refuse .pleaseLogin
  else if command.argc ≠ 1 then refuse .illegalPort
  else do
    let arg ← deref command.argv.head?
    createActiveDataSocket ans arg

/-! ## `help.c`, `noop.c`, `type.c` -/

/-- `help_command`. -/
def helpCommand : M CommandStatus := do
  let c ← conn
  if c.loggedIn = false then refuse .pleaseLogin
  else do
    reply .helpFirst
    reply .helpCommands
    reply .helpOk
    return .success

/-- `noop_command`. -/
def noopCommand : M CommandStatus := do
  let c ← conn
  if c.loggedIn = false then refuse .pleaseLogin
  else do
    reply .noopOk
    return .success

/-- `change_type`. -/
def changeType (type : CStr) : M CommandStatus := do
  if touppercase type = lit "A" then do
    modifyConn fun c => { c with transferMode := .ascii }
    reply .switchingAscii
    return .success
  else if touppercase type = lit "I" then do
    modifyConn fun c => { c with transferMode := .binary }
    reply .switchingBinary
    return .success
  else refuse .unrecognisedType

/-- `type_command`. -/
def typeCommand (command : Command) : M CommandStatus := do
  let c ← conn
  if c.loggedIn = false then refuse .pleaseLogin
  else if command.argc ≠ 1 then refuse .unrecognisedType
  else do
    let type ← deref command.argv.head?
    changeType type

/-! ## `retr.c`, `stor.c`, `list.c` -/

/-- `check_file_exists`; `true` for -1. -/
def checkFileExists (server : ServerT) (path : CStr) : M Bool := do
  let c ← conn
  let workingDirectory ← deref c.workingDirectory
  let _ ← chdir (pathStr workingDirectory)
  let fp ← fopenRead path
  let _ ← chdir (pathStr server.path)
  if fp = none then do
    if (← accessRead path) = false then do
      reply .permissionDenied
      return true
    else do
      reply .localError
      return true
  else return false

/-- `retr_command`. -/
def retrCommand (server : ServerT) (ans : Answers) (command : Command) : M CommandStatus := do
  let c ← conn
  if c.loggedIn = false then refuse .pleaseLogin
  else if c.dataSocket = none then refuse .usePasvOrPort
  else if command.argc ≠ 1 then refuse .failedToOpenFile
  else do
    let path ← deref command.argv.head?
    if (← checkFileExists server path) then return .failure
    else executeDataSocketCommand ans .executeRetrCommand command

/-- `stor_command`. -/
def storCommand (ans : Answers) (command : Command) : M CommandStatus := do
  let c ← conn
  if c.loggedIn = false then refuse .pleaseLogin
  else if c.dataSocket = none then refuse .usePasvOrPort
  else if command.argc ≠ 1 then refuse .failedToOpenFile
  else executeDataSocketCommand ans .executeStorCommand command

/-- `check_directory_access`; `true` for `COMMAND_FAILURE`. -/
def checkDirectoryAccess (server : ServerT) (path : CStr) : M Bool := do
  let c ← conn
  let workingDirectory ← deref c.workingDirectory
  let _ ← chdir (pathStr workingDirectory)
  if (← chdir path) = false then do
    reply .failedToListDirectory
    return true
  else do
    let currentDirectory ← deref (← getcwd)
    let _ ← chdir (pathStr server.path)
    if strncmp (pathStr currentDirectory) (pathStr server.path) (pathStr server.path).length ≠ 0
    then do
      reply .failedToListDirectory
      return true
    else return false

/-- The two checks `list_command` makes on an argument. -/
def checkListArgument (server : ServerT) (path : CStr) : M Bool := do
  if (← checkExists .failedToListDirectory path) then return true
  else checkDirectoryAccess server path

/-- `list_command`. -/
def listCommand (server : ServerT) (ans : Answers) (command : Command) : M CommandStatus := do
  let c ← conn
  if c.loggedIn = false then refuse .pleaseLogin
  else if c.dataSocket = none then refuse .usePasvOrPort
  else
    match command.argv.head? with
    | none => executeDataSocketCommand ans .executeLsCommand command
    | some path => do
      if (← checkListArgument server path) then return .failure
      else executeDataSocketCommand ans .executeLsCommand command

end MyFtp.Server
