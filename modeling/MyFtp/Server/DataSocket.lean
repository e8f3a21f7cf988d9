import MyFtp.Server.Syscall
import MyFtp.Server.Utils

/-!
# Data sockets

`passive_data_socket.c`, `active_data_socket.c`, `destroyers.c` and the
functions of `data_socket_executor.c` that run in the server process. The
connection and its data socket are changed through pointers in the source; here
they are the record in the context.
-/

namespace MyFtp.Server

open MyFtp.Posix

/-- Change the data socket of the connection. -/
def setDataSocket (dataSocket : Option DataSocket) : M Unit :=
  modifyConn fun c => { c with dataSocket }

/-- The state with other descriptors and another data socket. -/
def Ctx.withData (s : Ctx) (desc : DescTable) (d : Option DataSocket) : Ctx :=
  { s with os := { s.os with desc }, conn := { s.conn with dataSocket := d } }

/-- Print a reply on the control connection. -/
def reply (r : Reply) : M Unit := do
  let c ← conn
  dprintf c.clientSockfd r

/-- Print an error and fail. -/
def refuse (r : Reply) : M CommandStatus := do
  reply r
  return .failure

@[simp] theorem conn_apply (s : Ctx) : conn s = (.ok s.conn, s) := rfl

@[simp] theorem conn_bind_apply {α : Type} (k : Connection → M α) (s : Ctx) :
    (conn >>= k) s = k s.conn s := rfl

@[simp] theorem modifyConn_bind_apply {α : Type} (f : Connection → Connection) (k : Unit → M α)
    (s : Ctx) : (modifyConn f >>= k) s = k () { s with conn := f s.conn } := rfl

@[simp] theorem deref_some {α : Type} (a : α) : deref (some a) = pure a := rfl

@[simp] theorem deref_none {α : Type} : deref (none : Option α) = Prog.fail .undefined := rfl

@[simp] theorem reply_apply (r : Reply) (s : Ctx) :
    reply r s = dprintf s.conn.clientSockfd r s := rfl

@[simp] theorem reply_bind_apply {α : Type} (r : Reply) (k : Unit → M α) (s : Ctx) :
    (reply r >>= k) s = (dprintf s.conn.clientSockfd r >>= k) s := rfl

@[simp] theorem refuse_apply (r : Reply) (s : Ctx) :
    refuse r s = (dprintf s.conn.clientSockfd r >>= fun _ => pure .failure) s := rfl

/-- Getting past a reply. -/
theorem reply_bind_eq_ok {α : Type} {r : Reply} {k : Unit → M α} {s s' : Ctx} {a : α}
    (h : (reply r >>= k) s = (.ok a, s')) :
    k () { s with out := s.out ++ s.os.delivers s.conn.clientSockfd r } = (.ok a, s') := by
  rw [reply_bind_apply, dprintf_bind_apply] at h
  split at h
  next => simp at h
  next => exact h

/-- A handler that prints an error and fails. -/
theorem refuse_eq_ok {r : Reply} {s s' : Ctx} {status : CommandStatus}
    (h : refuse r s = (.ok status, s')) :
    status = .failure ∧
      s' = { s with out := s.out ++ s.os.delivers s.conn.clientSockfd r } := by
  have h := reply_bind_eq_ok h
  simp only [Prog.pure_apply, Prod.mk.injEq, Except.ok.injEq] at h
  exact ⟨h.1.symm, h.2.symm⟩

/-- Refusing a client that is there. -/
theorem refuse_of_alive {s : Ctx} (h : s.os.kills s.conn.clientSockfd = false) (r : Reply) :
    refuse r s = (.ok .failure,
      { s with out := s.out ++ s.os.delivers s.conn.clientSockfd r }) := by
  rw [refuse_apply, dprintf_bind_apply, h, if_neg (by simp)]
  rfl

/-- A test that a handler begins with: it ends there, or it goes on. -/
theorem guard_eq_ok {P : Prop} [Decidable P] {r : Reply} {p : M CommandStatus} {s s' : Ctx}
    {status : CommandStatus} (h : (if P then refuse r else p) s = (.ok status, s')) :
    s' = { s with out := s'.out } ∨ (¬ P ∧ p s = (.ok status, s')) := by
  by_cases hP : P
  · rw [if_pos hP] at h
    exact .inl (by rw [(refuse_eq_ok h).2])
  · rw [if_neg hP] at h
    exact .inr ⟨hP, h⟩

/-- A handler that prints its answer and is done. -/
theorem answer_eq_ok {α : Type} {r : Reply} {s s' : Ctx} {a b : α}
    (h : (do reply r; return a : M α) s = (.ok b, s')) :
    b = a ∧ s' = { s with out := s.out ++ s.os.delivers s.conn.clientSockfd r } := by
  have h := reply_bind_eq_ok h
  simp only [Prog.pure_apply, Prod.mk.injEq, Except.ok.injEq] at h
  exact ⟨h.1.symm, h.2.symm⟩

/-! ## Setting up -/

/-- `init_passive_data_socket`: what it leaves unset is set before the data
socket is used. -/
def initPassiveDataSocket : DataSocket :=
  { dataSocketMode := .passive, dataSockfd := none, addr := ⟨0, 0⟩, address := none, port := 0
    clientSockfd := none }

/-- `setup_passive_data_socket`. -/
def setupPassiveDataSocket (ans : Answers) : M (Option DataSocket) := do
  match ← socket ans with
  | none => return none
  | some fd =>
    if ans.bind = false then return none
    else if ans.listen = false then return none
    else do
      setDesc fd (some (.listener 0))
      return some { initPassiveDataSocket with
        port := ans.port.toNat, dataSockfd := some fd, addr := ⟨inaddrLoopback, 0⟩ }

/-- What `setup_passive_data_socket` returns. -/
def passiveSocket (ans : Answers) (fd : Fd) : DataSocket :=
  { initPassiveDataSocket with
    port := ans.port.toNat, dataSockfd := some fd, addr := ⟨inaddrLoopback, 0⟩ }

theorem setupPassiveDataSocket_apply (ans : Answers) (s : Ctx) :
    setupPassiveDataSocket ans s =
      match ans.socket with
      | none => (.ok none, s)
      | some fd =>
        if s.os.desc fd = none then
          if ans.bind = false ∨ ans.listen = false then (.ok none, s.withDesc fd (some .socket))
          else (.ok (some (passiveSocket ans fd)), s.withDesc fd (some (.listener 0)))
        else (.error .disabled, s) := by
  unfold setupPassiveDataSocket
  have hsocket := socket_apply ans s
  cases hsock : ans.socket with
  | none =>
    rw [hsock] at hsocket
    rw [Prog.bind_of_ok hsocket]
    rfl
  | some fd =>
    rw [hsock] at hsocket
    dsimp only at hsocket ⊢
    by_cases hfree : s.os.desc fd = none
    · rw [if_pos hfree] at hsocket ⊢
      rw [Prog.bind_of_ok hsocket]
      cases ans.bind with
      | false => rfl
      | true =>
        cases ans.listen with
        | false => rfl
        | true =>
          dsimp only
          rw [if_neg (by simp), if_neg (by simp), if_neg (by simp), setDesc_bind_apply,
            Ctx.withDesc_withDesc]
          rfl
    · rw [if_neg hfree] at hsocket ⊢
      rw [Prog.bind_of_error hsocket]

/-- `init_sockin` of `active_data_socket.c`, on the 32-bit integers of the C
code. -/
def initSockin (address : List Int) (port : Int) : SockAddr :=
  { sinAddr := UInt32.ofInt (address.getD 0 0 * 2 ^ 24 + address.getD 1 0 * 2 ^ 16 +
      address.getD 2 0 * 2 ^ 8 + address.getD 3 0)
    sinPort := UInt16.ofInt port }

/-- `setup_active_data_socket`. -/
def setupActiveDataSocket (ans : Answers) (hostPort : List Int) : M (Option DataSocket) := do
  match ← socket ans with
  | none => return none
  | some fd =>
    let address := hostPort.take 4
    let port := mergePort (hostPort.getD 4 0) (hostPort.getD 5 0)
    return some {
      dataSocketMode := .active, dataSockfd := none, addr := initSockin address port
      address := some address, port, clientSockfd := some fd }

/-- What `setup_active_data_socket` returns. -/
def activeSocket (hostPort : List Int) (fd : Fd) : DataSocket :=
  { dataSocketMode := .active, dataSockfd := none
    addr := initSockin (hostPort.take 4) (mergePort (hostPort.getD 4 0) (hostPort.getD 5 0))
    address := some (hostPort.take 4)
    port := mergePort (hostPort.getD 4 0) (hostPort.getD 5 0), clientSockfd := some fd }

theorem setupActiveDataSocket_apply (ans : Answers) (hostPort : List Int) (s : Ctx) :
    setupActiveDataSocket ans hostPort s =
      match ans.socket with
      | none => (.ok none, s)
      | some fd =>
        if s.os.desc fd = none then
          (.ok (some (activeSocket hostPort fd)), s.withDesc fd (some .socket))
        else (.error .disabled, s) := by
  unfold setupActiveDataSocket
  have hsocket := socket_apply ans s
  cases hsock : ans.socket with
  | none =>
    rw [hsock] at hsocket
    rw [Prog.bind_of_ok hsocket]
    rfl
  | some fd =>
    rw [hsock] at hsocket
    dsimp only at hsocket ⊢
    by_cases hfree : s.os.desc fd = none
    · rw [if_pos hfree] at hsocket ⊢
      rw [Prog.bind_of_ok hsocket]
      rfl
    · rw [if_neg hfree] at hsocket ⊢
      rw [Prog.bind_of_error hsocket]

/-! ## Destroying -/

/-- `destroy_data_socket`. -/
def destroyDataSocket (dataSocket : Option DataSocket) : M Unit :=
  match dataSocket.bind DataSocket.clientSockfd with
  | some fd => close fd
  | none => pure ()

/-- `destroy_connection`: `fclose` closes the control descriptor. -/
def destroyConnection : M Unit := do
  let c ← conn
  destroyDataSocket c.dataSocket
  close c.clientSockfd

/-! ## Connecting and forking -/

/-- `accept_connection`; whether it succeeded. -/
def acceptConnection (ans : Answers) (dataSocket : DataSocket) : M Bool := do
  match ← acceptData ans dataSocket.dataSockfd with
  | none =>
    setDataSocket (some { dataSocket with clientSockfd := none })
    return false
  | some (fd, peer) =>
    setDataSocket (some { dataSocket with clientSockfd := some fd, addr := peer })
    return true

/-- `accept_connection`, from what `accept` returned. -/
theorem acceptConnection_of_none {ans : Answers} {s : Ctx} {d : DataSocket}
    (h : acceptData ans d.dataSockfd s = (.ok none, s)) :
    acceptConnection ans d s = (.ok false, { s with conn := { s.conn with
      dataSocket := some { d with clientSockfd := none } } }) := by
  rw [acceptConnection, Prog.bind_of_ok h]
  rfl

theorem acceptConnection_of_some {ans : Answers} {s s₁ : Ctx} {d : DataSocket} {fd : Fd}
    {peer : SockAddr}
    (h : acceptData ans d.dataSockfd s = (.ok (some (fd, peer)), s₁)) :
    acceptConnection ans d s = (.ok true, { s₁ with conn := { s₁.conn with
      dataSocket := some { d with clientSockfd := some fd, addr := peer } } }) := by
  rw [acceptConnection, Prog.bind_of_ok h]
  rfl

/-- `establish_data_socket_connection`; whether it succeeded. -/
def establishDataSocketConnection (ans : Answers) : M Bool := do
  let c ← conn
  let dataSocket ← deref c.dataSocket
  match dataSocket.dataSocketMode with
  | .passive => acceptConnection ans dataSocket
  | .active => return ans.connect

/-- `fork_execution`: the child gets copies of everything and goes its own way. -/
def forkExecution (ans : Answers) (body : TransferBody) (command : Command) :
    M CommandStatus := do
  if ans.fork then do
    Prog.modify fun s => { s with
      forked := s.forked ++ [⟨body, command, s.conn, s.os.cwd, s.os.desc⟩] }
    return .success
  else return .failure

theorem forkExecution_apply (ans : Answers) (body : TransferBody) (command : Command) (s : Ctx) :
    forkExecution ans body command s =
      if ans.fork then (.ok .success,
        { s with forked := s.forked ++ [⟨body, command, s.conn, s.os.cwd, s.os.desc⟩] })
      else (.ok .failure, s) := by
  unfold forkExecution
  split
  next => rfl
  next => rfl

/-- `execute_data_socket_command`. -/
def executeDataSocketCommand (ans : Answers) (body : TransferBody) (command : Command) :
    M CommandStatus := do
  if (← establishDataSocketConnection ans) = false then do
    reply .failedToEstablish
    let c ← conn
    destroyDataSocket c.dataSocket
    setDataSocket none
    return .failure
  else do
    if (← forkExecution ans body command) = .failure then
      reply .localError
    let c ← conn
    destroyDataSocket c.dataSocket
    setDataSocket none
    return .success

end MyFtp.Server
