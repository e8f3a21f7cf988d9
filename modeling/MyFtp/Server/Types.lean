import MyFtp.Posix.CStr
import MyFtp.Posix.Path

/-!
# The server's data

The types of `myftp.h`, and the replies the handlers print.

A pointer that may be `NULL` and a descriptor that may be `-1` are `Option`s.
Where the program keeps a directory as the string `getcwd` returned, the path
itself is kept here; `Posix.pathStr` is that string. Two fields of
`connection_t` are not in the record: `server` always points to the one server
structure, which the functions take as a parameter, and `stream` is the stdio
stream over the control descriptor, whose buffer the main loop keeps.
-/

namespace MyFtp.Server

open MyFtp.Posix

/-- `MAX_CLIENTS`. -/
def maxClients : Nat := 128

/-- A file descriptor. -/
abbrev Fd := Nat

/-- The number of a control connection, in the order they are accepted. -/
abbrev ConnId := Nat

/-- A `sockaddr_in`, in host byte order. -/
structure SockAddr where
  sinAddr : UInt32
  sinPort : UInt16
  deriving DecidableEq

/-- `INADDR_LOOPBACK`. -/
def inaddrLoopback : UInt32 := 0x7f000001

/-- `server_t`. -/
structure ServerT where
  sockfd : Fd
  port : UInt16
  path : Path
  deriving DecidableEq

/-- `data_socket_mode_t`. -/
inductive DataSocketMode
  | passive
  | active
  deriving DecidableEq

/-- `transfer_mode_t`. -/
inductive TransferMode
  | binary
  | ascii
  deriving DecidableEq

/-- `data_socket_t`. -/
structure DataSocket where
  dataSocketMode : DataSocketMode
  dataSockfd : Option Fd
  addr : SockAddr
  address : Option (List Int)
  port : Int
  clientSockfd : Option Fd
  deriving DecidableEq

/-- `connection_t`. -/
structure Connection where
  clientSockfd : Fd
  clientAddr : SockAddr
  loggedIn : Bool
  user : Option CStr
  workingDirectory : Option Path
  dataSocket : Option DataSocket
  transferMode : TransferMode
  deriving DecidableEq

/-- `command_t`: `argc` is the length of `argv`, and `argv[argc]` is `NULL`. -/
structure Command where
  name : CStr
  argv : List CStr
  deriving DecidableEq

/-- `command->argc`. -/
def Command.argc (command : Command) : Nat := command.argv.length

/-- `command_status_t`. -/
inductive CommandStatus
  | success
  | failure
  | notFound
  | quit
  deriving DecidableEq

/-- The enumerator with a given value, for the place that returns a bare `int`. -/
def CommandStatus.ofInt : Nat → CommandStatus
  | 0 => .success
  | 1 => .failure
  | 2 => .notFound
  | _ => .quit

/-- Every text the server prints on a control connection. -/
inductive Reply
  | hereComesListing
  | openingBinary
  | noopOk
  | portSuccessful
  | switchingAscii
  | switchingBinary
  | helpFirst
  | helpCommands
  | helpOk
  | serviceReady
  | serviceClosing
  | transferComplete
  | directorySendOk
  | enteringPassive (addr : UInt32) (p1 p2 : Int)
  | alreadyLoggedIn
  | loginSuccessful
  | directoryChanged
  | fileActionOkay
  | pathname (path : Path)
  | specifyPassword
  | usePasvOrPort
  | failedToEstablish
  | localError
  | unknownCommand
  | illegalPort
  | unrecognisedType
  | loginWithUserFirst
  | pleaseLogin
  | loginIncorrect
  | cantChangeUser
  | failedToChangeDirectory
  | deleteFailed
  | failedToListDirectory
  | permissionDenied
  | failedToOpenFile
  deriving DecidableEq

/-- The decimal digits of an `int`, as `%d` prints them. -/
def showInt (n : Int) : CStr := lit (toString n)

/-- `inet_ntoa`. -/
def inetNtoa (addr : UInt32) : CStr :=
  let n := addr.toNat
  showInt (n / 2 ^ 24 : Nat) ++ lit "." ++ showInt (n / 2 ^ 16 % 256 : Nat) ++ lit "." ++
    showInt (n / 2 ^ 8 % 256 : Nat) ++ lit "." ++ showInt (n % 256 : Nat)

/-- `replace_dots_with_commas`. -/
def replaceDotsWithCommas (string : CStr) : CStr :=
  string.map fun c => if c = 46 then 44 else c

/-- The text of a reply. -/
def Reply.text : Reply → CStr
  | .hereComesListing => lit "150 Here comes the directory listing.\r\n"
  | .openingBinary => lit "150 Opening BINARY mode data connection.\r\n"
  | .noopOk => lit "200 NOOP ok.\r\n"
  | .portSuccessful => lit "200 PORT command successful. Consider using PASV.\r\n"
  | .switchingAscii => lit "200 Switching to ASCII mode.\r\n"
  | .switchingBinary => lit "200 Switching to Binary mode.\r\n"
  | .helpFirst => lit "214-The following commands are recognized.\r\n"
  | .helpCommands =>
    lit "USER PASS CWD CDUP QUIT DELE PWD PASV PORT HELP NOOP RETR STOR LIST\r\n"
  | .helpOk => lit "214 Help OK.\r\n"
  | .serviceReady => lit "220 Service ready for new user. (myftp)\r\n"
  | .serviceClosing => lit "221 Service closing control connection.\r\n"
  | .transferComplete => lit "226 Transfer complete.\r\n"
  | .directorySendOk => lit "226 Directory send OK.\r\n"
  | .enteringPassive addr p1 p2 =>
    lit "227 Entering Passive Mode (" ++ replaceDotsWithCommas (inetNtoa addr) ++ lit "," ++
      showInt p1 ++ lit "," ++ showInt p2 ++ lit ").\r\n"
  | .alreadyLoggedIn => lit "230 Already logged in.\r\n"
  | .loginSuccessful => lit "230 Login successful.\r\n"
  | .directoryChanged => lit "250 Directory successfully changed.\r\n"
  | .fileActionOkay => lit "250 Requested file action okay.\r\n"
  | .pathname path => lit "257 \"" ++ pathStr path ++ lit "\"\r\n"
  | .specifyPassword => lit "331 Please specify the password.\r\n"
  | .usePasvOrPort => lit "425 Use PASV or PORT first.\r\n"
  | .failedToEstablish => lit "425 Failed to establish connection.\r\n"
  | .localError => lit "451 Requested action aborted: local error in processing.\r\n"
  | .unknownCommand => lit "500 Unknown command.\r\n"
  | .illegalPort => lit "500 Illegal PORT command.\r\n"
  | .unrecognisedType => lit "500 Unrecognised TYPE command.\r\n"
  | .loginWithUserFirst => lit "503 Login with USER first.\r\n"
  | .pleaseLogin => lit "530 Please login with USER and PASS.\r\n"
  | .loginIncorrect => lit "530 Login incorrect.\r\n"
  | .cantChangeUser => lit "530 Can't change to another user.\r\n"
  | .failedToChangeDirectory => lit "550 Failed to change directory.\r\n"
  | .deleteFailed => lit "550 Delete operation failed.\r\n"
  | .failedToListDirectory => lit "550 Failed to list directory.\r\n"
  | .permissionDenied => lit "550 Permission denied.\r\n"
  | .failedToOpenFile => lit "550 Failed to open file.\r\n"

/-- The three-digit code a reply begins with. The middle line of the help text
has none. -/
def Reply.code : Reply → Option Nat
  | .helpCommands => none
  | r => some (digits (r.text.take 3))

example : (Reply.enteringPassive inaddrLoopback 4 7).text =
    lit "227 Entering Passive Mode (127,0,0,1,4,7).\r\n" := by
  decide

end MyFtp.Server
