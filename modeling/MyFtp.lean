import MyFtp.Prog.Basic
import MyFtp.Prog.Machine
import MyFtp.Posix.Resolve
import MyFtp.Server.Syscall
import MyFtp.Server.Utils
import MyFtp.Server.CommandParser
import MyFtp.Server.DataSocket
import MyFtp.Posix.Stdio
import MyFtp.Posix.Store
import MyFtp.Server.Transfer
import MyFtp.Server.CommandExecutor
import MyFtp.Server.Directories
import MyFtp.Server.Children
import MyFtp.Server.World
import MyFtp.Server.Sessions
import MyFtp.Server.Frame
import MyFtp.Server.Login
import MyFtp.Server.Descriptors
import MyFtp.Server.BeforeLogin
import MyFtp.Server.Home
import MyFtp.Server.Confinement
import MyFtp.Server.Numbers
import MyFtp.Server.Interference
import MyFtp.Server.Names
import MyFtp.Server.Replies
import MyFtp.Server.Outcome
import MyFtp.Server.Pending
import MyFtp.Server.Stops
import MyFtp.Server.LostDirectory
import MyFtp.Server.FinalReply
import MyFtp.Server.Leaks
import MyFtp.Server.ReplyOrder
import MyFtp.Server.Inheritance
import MyFtp.Server.Loop
import MyFtp.Server.LoopRefinement
import MyFtp.Server.SlotTable
import MyFtp.Server.LostClient
import MyFtp.Server.ReadAhead
import MyFtp.Server.Boundary
import MyFtp.Server.Refusals
import MyFtp.Posix.Scanf
import MyFtp.Client.DataSocket
import MyFtp.Posix.Stream
import MyFtp.Wire.Upload
import MyFtp.Client.Responses
import MyFtp.Client.Commands
import MyFtp.Wire.WorkingDirectory
import MyFtp.Client.Survival
import MyFtp.Wire.Deadlock
import MyFtp.Wire.Requests
import MyFtp.Server.Retrieval
import MyFtp.Server.Changes
import MyFtp.Server.Listings
import MyFtp.Posix.SignedInt
import MyFtp.Server.Ports
import MyFtp.Wire.Addresses
import MyFtp.Server.Dispatch
import MyFtp.Server.Uploads
import MyFtp.Server.Turns
import MyFtp.Server.Stalls
import MyFtp.Server.Prompt
import MyFtp.Server.Hangups
import MyFtp.Server.Endings
import MyFtp.Server.Shutdown
import MyFtp.Wire.Delivery
import MyFtp.Prog.Queues
import MyFtp.Client.Rounds
import MyFtp.Server.Answers
import MyFtp.Wire.Session
