import MyFtp.Posix.Stdio
import MyFtp.Server.DataSocket

/-!
# What runs in a forked child

The functions of `list.c`, `retr.c` and `stor.c` that
`execute_data_socket_command` runs in a child process, on the child's copies of
the connection, the current directory and the descriptors. The child works on
the shared file tree and the shared sockets.

`BUFFER` in `list.c` and `retr.c` is a local array of 1024 bytes, so one `fgets`
takes at most 1023 bytes; what it took is printed with `%s`, up to the first
NUL.
-/

namespace MyFtp.Server

open MyFtp.Posix

/-- The outcomes of the system calls made in a child. `received` is what
arrives on the data connection before it ends, `fwrite i n` how many of the `n`
bytes of the `i`-th write reach the file, `flushed` how much of the file is on
disk before it is closed, `fclose` whether closing it writes the rest, and
`dataWrites` after how many writes the peer of the data connection is gone. -/
structure ChildAnswers where
  popen : Bool
  fdopen : Bool
  received : List Byte
  fwrite : Nat → Nat → Nat
  flushed : Nat
  fclose : Bool
  dataWrites : Option Nat

/-- Nothing fails, and `received` arrives. -/
def ChildAnswers.fine (received : List Byte) : ChildAnswers :=
  { popen := true, fdopen := true, received, fwrite := fun _ n => n, flushed := 0, fclose := true
    dataWrites := none }

/-- `dprintf` on the data connection. -/
def dataDprintf (cans : ChildAnswers) (item : DataItem) : M Unit := do
  let c ← conn
  let dataSocket ← deref c.dataSocket
  match dataSocket.clientSockfd with
  | none => return ()
  | some _ => fun s =>
    if cans.dataWrites.elim false (· ≤ s.data.length) then (.error .sigpipe, s)
    else (.ok (), { s with data := s.data ++ [item] })

/-! ## `list.c` -/

/-- `goto_path`. -/
def gotoPath (command : Command) : M CommandStatus := do
  let path := command.argv.head?.getD (lit ".")
  let c ← conn
  let workingDirectory ← deref c.workingDirectory
  let _ ← chdir (pathStr workingDirectory)
  if (← chdir path) = false then refuse .failedToListDirectory
  else return .success

/-- `list_directory`: `ls -l` runs in the current directory. -/
def listDirectory (cans : ChildAnswers) : M CommandStatus := do
  if cans.popen = false then refuse .localError
  else do
    reply .hereComesListing
    let os ← Prog.gets Ctx.os
    dataDprintf cans (.listing os.cwd os.tree)
    return .success

/-- `execute_ls_command`. -/
def executeLsCommand (server : ServerT) (cans : ChildAnswers) (command : Command) :
    M CommandStatus := do
  if (← gotoPath command) = .failure then return .failure
  else if (← listDirectory cans) = .failure then return .failure
  else do
    let _ ← chdir (pathStr server.path)
    reply .directorySendOk
    return .success

/-! ## `retr.c` -/

/-- The printing loop of `execute_retr_command`, over the pieces `fgets`
yields. -/
def sendChunks (cans : ChildAnswers) : List (List Byte) → M Unit
  | [] => return ()
  | chunk :: rest => do
    dataDprintf cans (.bytes (cstr chunk))
    sendChunks cans rest

/-- `execute_retr_command`. A directory can be opened, but not read. -/
def executeRetrCommand (server : ServerT) (cans : ChildAnswers) (command : Command) :
    M CommandStatus := do
  reply .openingBinary
  let c ← conn
  let workingDirectory ← deref c.workingDirectory
  let _ ← chdir (pathStr workingDirectory)
  let path ← deref command.argv.head?
  let fp ← fopenRead path
  let _ ← chdir (pathStr server.path)
  match fp with
  | none => refuse .localError
  | some .directory => do
    reply .transferComplete
    return .success
  | some (.regular _ content) => do
    sendChunks cans (chunks 1023 content)
    reply .transferComplete
    return .success

/-! ## `stor.c` -/

/-- The copying loop of `transfer_file_data` from the `i`-th line on: what ends
up in the file. -/
def storeLines (cans : ChildAnswers) : Nat → List (List Byte) → List Byte
  | _, [] => []
  | i, line :: rest => line.take (cans.fwrite i line.length) ++ storeLines cans (i + 1) rest

/-- `transfer_file_data`: `getline` until the data connection ends. -/
def transferFileData (cans : ChildAnswers) : List Byte :=
  if cans.fdopen = false then []
  else storeLines cans 0 (chunks cans.received.length cans.received)

/-- `execute_stor_command`. The file is closed, and with that written out,
after the reply. -/
def executeStorCommand (cans : ChildAnswers) (command : Command) : M CommandStatus := do
  let path ← deref command.argv.head?
  let file ← fopenWrite path
  reply .openingBinary
  match file with
  | none => refuse .localError
  | some target => do
    let content := transferFileData cans
    fwriteAll target (content.take cans.flushed)
    reply .transferComplete
    if cans.fclose then fwriteAll target content
    return .success

/-- The function a child runs. -/
def TransferBody.run (server : ServerT) (cans : ChildAnswers) (command : Command) :
    TransferBody → M CommandStatus
  | .executeLsCommand => Server.executeLsCommand server cans command
  | .executeRetrCommand => Server.executeRetrCommand server cans command
  | .executeStorCommand => Server.executeStorCommand cans command

end MyFtp.Server
