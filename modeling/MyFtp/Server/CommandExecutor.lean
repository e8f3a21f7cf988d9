import MyFtp.Server.CommandParser
import MyFtp.Server.Commands

/-!
# `command_executor.c` and `client_handler.c`

From a line to a handler and back: the dispatch table, the execution of a
command, and what the server does with its status.
-/

namespace MyFtp.Server

open MyFtp.Posix

/-- A handler, with the server structure and the answers of the system it may
need. -/
abbrev Handler := ServerT → Answers → Command → M CommandStatus

/-- `command_handlers`. -/
def commandHandlers : List (CStr × Handler) :=
  [(lit "USER", fun _ _ command => userCommand command),
    (lit "PASS", fun _ _ command => passCommand command),
    (lit "CWD", fun server _ command => cwdCommand server command),
    (lit "CDUP", fun server _ _ => cdupCommand server),
    (lit "QUIT", fun _ _ _ => quitCommand),
    (lit "DELE", fun _ _ command => deleCommand command),
    (lit "PWD", fun _ _ _ => pwdCommand),
    (lit "PASV", fun _ ans _ => pasvCommand ans),
    (lit "PORT", fun _ ans command => portCommand ans command),
    (lit "HELP", fun _ _ _ => helpCommand),
    (lit "NOOP", fun _ _ _ => noopCommand),
    (lit "RETR", retrCommand),
    (lit "STOR", fun _ ans command => storCommand ans command),
    (lit "LIST", listCommand),
    (lit "TYPE", fun _ _ command => typeCommand command)]

/-- `not_found_message`. -/
def notFoundMessage : M Unit := do
  let c ← conn
  reply (if c.loggedIn then .unknownCommand else .pleaseLogin)

/-- `get_command_handler`. -/
def getCommandHandler (command : Command) : Option Handler :=
  (commandHandlers.find? fun h => h.1 == touppercase command.name).map Prod.snd

/-- `execute_command`. -/
def executeCommand (server : ServerT) (ans : Answers) (command : Option Command) :
    M CommandStatus :=
  match command with
  | none => do
    notFoundMessage
    return .notFound
  | some command =>
    match getCommandHandler command with
    | none => do
      notFoundMessage
      return .notFound
    | some handler => handler server ans command

/-- `handle_client_command`, given what `read_socket` returned: a line, or a
null pointer at the end of the stream. The bare 1 returned then is the value of
an enumerator. -/
def handleClientCommand (server : ServerT) (ans : Answers) (buffer : Option CStr) :
    M CommandStatus :=
  match buffer with
  | none => return .ofInt 1
  | some buffer => do
    let command ← Prog.lift (parseBuffer buffer)
    executeCommand server ans command

/-- `handle_connection`, given what `read_socket` returned; whether the
connection is still there afterwards. The last `close` is of a descriptor that
`fclose` has closed already. -/
def handleConnection (server : ServerT) (ans : Answers) (fd : Fd) (buffer : Option CStr) :
    M Bool := do
  if (← handleClientCommand server ans buffer) = .quit then do
    dprintf fd .serviceClosing
    destroyConnection
    close fd
    return false
  else return true

/-! ## Dispatch -/

/-- The word a command is dispatched by. -/
def Command.word (command : Command) : CStr := touppercase command.name

theorem getCommandHandler_mem {command : Command} {handler : Handler}
    (h : getCommandHandler command = some handler) :
    (command.word, handler) ∈ commandHandlers := by
  obtain ⟨⟨name, handler'⟩, hfind, rfl⟩ := Option.map_eq_some_iff.mp h
  obtain rfl : name = touppercase command.name := by simpa using List.find?_some hfind
  exact List.mem_of_find?_eq_some hfind

/-- The table has one entry for each of its names. -/
theorem getCommandHandler_of_mem {command : Command} {handler : Handler}
    (h : (command.word, handler) ∈ commandHandlers) : getCommandHandler command = some handler := by
  have hw : touppercase command.name = command.word := rfl
  simp only [commandHandlers, List.mem_cons, Prod.mk.injEq, List.not_mem_nil, or_false] at h
  rcases h with h | h | h | h | h | h | h | h | h | h | h | h | h | h | h <;>
    obtain ⟨hname, rfl⟩ := h <;> rw [getCommandHandler, hw, hname] <;> rfl

theorem executeCommand_of_mem {server : ServerT} {ans : Answers} {command : Command}
    {handler : Handler} (h : (command.word, handler) ∈ commandHandlers) :
    executeCommand server ans (some command) = handler server ans command := by
  rw [executeCommand, getCommandHandler_of_mem h]

/-- A word that is in no entry of the table. -/
theorem executeCommand_of_none {server : ServerT} {ans : Answers} {command : Command}
    (h : getCommandHandler command = none) :
    executeCommand server ans (some command) = executeCommand server ans none := by
  simp only [executeCommand, h]

/-- The descriptor table once a connection is torn down. -/
def Connection.tornDown (c : Connection) (desc : DescTable) : DescTable :=
  Function.update
    (match c.dataSocket.bind DataSocket.clientSockfd with
      | some fd => Function.update desc fd none
      | none => desc) c.clientSockfd none

/-- The end of a session: the last reply, and the descriptors closed. -/
def Ctx.goodbye (s : Ctx) : Ctx :=
  { s with
    out := s.out ++ s.os.delivers s.conn.clientSockfd .serviceClosing
    os := { s.os with desc := s.conn.tornDown s.os.desc } }

theorem destroyConnection_apply (s : Ctx) :
    destroyConnection s =
      (.ok (), { s with os := { s.os with desc := s.conn.tornDown s.os.desc } }) := by
  rw [destroyConnection, conn_bind_apply, destroyDataSocket, Connection.tornDown]
  cases s.conn.dataSocket.bind DataSocket.clientSockfd with
  | none => rfl
  | some fd => rfl

/-- Handling a line is parsing it and executing what was parsed; a connection
stays unless the status is `COMMAND_QUIT`. -/
theorem handleConnection_eq_ok {server : ServerT} {ans : Answers} {fd : Fd} {line : CStr}
    {s s' : Ctx} {stays : Bool}
    (h : handleConnection server ans fd (some line) s = (.ok stays, s')) :
    ∃ parsed status s₁, parseBuffer line = .ok parsed ∧
      executeCommand server ans parsed s = (.ok status, s₁) ∧
      ((status ≠ .quit ∧ stays = true ∧ s' = s₁) ∨
        (status = .quit ∧ stays = false ∧ (s₁.conn.clientSockfd = fd → s' = s₁.goodbye))) := by
  obtain ⟨status, s₁, hc, h⟩ := Prog.bind_eq_ok h
  obtain ⟨parsed, s₂, hp, hx⟩ := Prog.bind_eq_ok hc
  cases hparse : parseBuffer line with
  | error e => simp [hparse] at hp
  | ok parsed' =>
    rw [hparse, Prog.lift_ok, Prog.pure_apply] at hp
    simp only [Prod.mk.injEq, Except.ok.injEq] at hp
    obtain ⟨rfl, rfl⟩ := hp
    refine ⟨parsed', status, s₁, rfl, hx, ?_⟩
    split at h
    next hq =>
      obtain ⟨_, s₂, hprint, h⟩ := Prog.bind_eq_ok h
      obtain ⟨-, rfl⟩ := dprintf_eq_ok hprint
      rw [Prog.bind_of_ok (destroyConnection_apply _), close, setDesc_bind_apply,
        Prog.pure_apply] at h
      simp only [Prod.mk.injEq, Except.ok.injEq] at h
      refine .inr ⟨hq, h.1.symm, ?_⟩
      rintro rfl
      rw [← h.2, Ctx.withDesc, Ctx.goodbye]
      simp [Connection.tornDown]
    next hq =>
      simp only [Prog.pure_apply, Prod.mk.injEq, Except.ok.injEq] at h
      exact .inl ⟨hq, h.1.symm, h.2.symm⟩

/-- What `QUIT` does. -/
theorem handleConnection_quit {server : ServerT} {ans : Answers} {line : CStr} {command : Command}
    (hparse : parseBuffer line = .ok (some command)) (hword : command.word = lit "QUIT") (s : Ctx) :
    handleConnection server ans s.conn.clientSockfd (some line) s =
      if s.os.kills s.conn.clientSockfd then (.error .sigpipe, s) else (.ok false, s.goodbye) := by
  have hcommand : handleClientCommand server ans (some line) s = (.ok .quit, s) := by
    rw [handleClientCommand, hparse, Prog.lift_ok, Prog.pure_bind_apply,
      executeCommand_of_mem (by rw [hword]; exact List.mem_of_getElem? (i := 4) rfl)]
    rfl
  rw [handleConnection, Prog.bind_of_ok hcommand, if_pos rfl, dprintf_bind_apply]
  by_cases hk : s.os.kills s.conn.clientSockfd = true
  · rw [if_pos hk, if_pos hk]
  · rw [if_neg hk, if_neg hk, Prog.bind_of_ok (destroyConnection_apply _), close,
      setDesc_bind_apply, Prog.pure_apply]
    simp [Ctx.withDesc, Ctx.goodbye, Connection.tornDown]

/-! ## Only `QUIT` quits -/

section

open Prog

theorem ends_refuse {P : CommandStatus → Prop} (h : P .failure) (r : Reply) : Ends P (refuse r) :=
  ends_bind fun _ => ends_pure h

theorem ends_transfer (ans : Answers) (body : TransferBody) (command : Command) :
    Ends (· ≠ .quit) (executeDataSocketCommand ans body command) := by
  refine ends_bind fun _ => Ends.ite ?_ ?_
  · exact ends_bind fun _ => ends_bind fun _ => ends_bind fun _ => ends_bind fun _ =>
      ends_pure (by simp)
  · refine ends_bind fun _ => Ends.ite ?_ ?_
    · exact ends_bind fun _ => ends_bind fun _ => ends_bind fun _ => ends_bind fun _ =>
        ends_pure (by simp)
    · exact ends_bind fun _ => ends_bind fun _ => ends_bind fun _ => ends_pure (by simp)

theorem ends_changeDir (server : ServerT) (path : CStr) :
    Ends (· ≠ .quit) (changeDir server path) := by
  refine ends_bind fun _ => Ends.ite (ends_pure (by simp)) ?_
  refine ends_bind fun _ => ends_bind fun _ => Ends.ite (ends_pure (by simp)) ?_
  exact ends_bind fun _ => ends_bind fun _ => ends_bind fun _ => ends_bind fun _ =>
    ends_bind fun _ =>
    ends_bind fun _ => ends_bind fun _ => ends_bind fun _ => ends_bind fun _ => ends_pure (by simp)

/-- The test every handler but three begins with. -/
theorem ends_loggedIn {p : Connection → M CommandStatus} (hp : ∀ c, Ends (· ≠ .quit) (p c)) :
    Ends (· ≠ .quit) (do
      let c ← conn
      if c.loggedIn = false then refuse .pleaseLogin else p c) :=
  ends_bind fun c => Ends.ite (ends_refuse (by simp) _) (hp c)

/-- The status `COMMAND_QUIT` comes from the handler of `QUIT` alone. -/
theorem ends_handler {name : CStr} {handler : Handler} (hmem : (name, handler) ∈ commandHandlers)
    (hq : name ≠ lit "QUIT") (server : ServerT) (ans : Answers) (command : Command) :
    Ends (· ≠ .quit) (handler server ans command) := by
  have hf : CommandStatus.failure ≠ .quit := by simp
  have hs : CommandStatus.success ≠ .quit := by simp
  simp only [commandHandlers, List.mem_cons, Prod.mk.injEq, List.not_mem_nil, or_false] at hmem
  rcases hmem with h | h | h | h | h | h | h | h | h | h | h | h | h | h | h <;>
    obtain ⟨rfl, rfl⟩ := h
  · exact ends_bind fun _ => Ends.ite (ends_refuse hf _)
      (ends_bind fun _ => ends_bind fun _ => ends_pure hs)
  · refine ends_bind fun _ => Ends.ite (ends_pure hf)
      (ends_bind fun _ => ends_bind fun _ => Ends.ite ?_ ?_)
    · exact ends_bind fun _ => ends_bind fun _ => ends_pure hs
    · exact ends_bind fun _ => ends_refuse hf _
  · exact ends_loggedIn fun _ => Ends.ite (ends_refuse hf _)
      (ends_bind fun _ => ends_changeDir server _)
  · exact ends_loggedIn fun _ => ends_changeDir server _
  · exact absurd rfl hq
  · exact ends_loggedIn fun _ => Ends.ite (ends_refuse hf _) (ends_bind fun _ => ends_bind fun _ =>
      ends_bind fun _ => ends_bind fun _ => ends_bind fun _ =>
        Ends.ite (ends_refuse hf _) (ends_bind fun _ => ends_pure hs))
  · exact ends_loggedIn fun _ => ends_bind fun _ => ends_bind fun _ => ends_pure hs
  · refine ends_loggedIn fun _ => ends_bind fun created => ends_bind fun _ => ?_
    cases created with
    | none => exact ends_refuse hf _
    | some d => exact ends_bind fun _ => ends_bind fun _ => ends_pure hs
  · refine ends_loggedIn fun _ => Ends.ite (ends_refuse hf _) (ends_bind fun arg => ?_)
    unfold createActiveDataSocket
    cases parseHostPortValues arg with
    | none => exact ends_refuse hf _
    | some hostPort =>
      refine ends_bind fun created => ends_bind fun _ => ?_
      cases created with
      | none => exact ends_refuse hf _
      | some d => exact ends_bind fun _ => ends_pure hs
  · exact ends_loggedIn fun _ => ends_bind fun _ => ends_bind fun _ => ends_bind fun _ =>
      ends_pure hs
  · exact ends_loggedIn fun _ => ends_bind fun _ => ends_pure hs
  · exact ends_loggedIn fun _ => Ends.ite (ends_refuse hf _) (Ends.ite (ends_refuse hf _)
      (ends_bind fun _ => ends_bind fun _ => Ends.ite (ends_pure hf) (ends_transfer _ _ _)))
  · exact ends_loggedIn fun _ => Ends.ite (ends_refuse hf _) (Ends.ite (ends_refuse hf _)
      (ends_transfer _ _ _))
  · refine ends_loggedIn fun _ => Ends.ite (ends_refuse hf _) ?_
    cases command.argv.head? with
    | none => exact ends_transfer _ _ _
    | some path => exact ends_bind fun _ => Ends.ite (ends_pure hf) (ends_transfer _ _ _)
  · refine ends_loggedIn fun _ => Ends.ite (ends_refuse hf _) (ends_bind fun _ => Ends.ite ?_
      (Ends.ite ?_ (ends_refuse hf _)))
    · exact ends_bind fun _ => ends_bind fun _ => ends_pure hs
    · exact ends_bind fun _ => ends_bind fun _ => ends_pure hs

/-- A line ends the session only when it is `QUIT`, and then nothing has happened
before the good-bye. -/
theorem executeCommand_quit {server : ServerT} {ans : Answers} {parsed : Option Command}
    {s s' : Ctx} (h : executeCommand server ans parsed s = (.ok .quit, s')) :
    s' = s ∧ ∃ command, parsed = some command ∧ command.word = lit "QUIT" := by
  have hunknown : executeCommand server ans none s ≠ (.ok .quit, s') := by
    intro h
    have hends : Ends (· ≠ .quit) (executeCommand server ans none) :=
      ends_bind fun _ => ends_pure (by simp)
    exact hends s _ _ h rfl
  cases parsed with
  | none => exact absurd h hunknown
  | some command =>
    by_cases hq : command.word = lit "QUIT"
    · rw [executeCommand_of_mem (by rw [hq]; exact List.mem_of_getElem? (i := 4) rfl)] at h
      exact ⟨(Prod.mk.inj h).2.symm, command, rfl, hq⟩
    · cases hh : getCommandHandler command with
      | none =>
        rw [executeCommand_of_none hh] at h
        exact absurd h hunknown
      | some handler =>
        have hmem := getCommandHandler_mem hh
        rw [executeCommand_of_mem hmem] at h
        exact absurd rfl (ends_handler hmem hq server ans command s _ _ h)

end

end MyFtp.Server
