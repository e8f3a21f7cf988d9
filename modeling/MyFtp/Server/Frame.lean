import MyFtp.Server.CommandExecutor

/-!
# What handling a line can change

One pass over the fifteen handlers, for any property `P` of programs that
putting programs together keeps. `Frame` lists the parts the handlers are made
of and asks that each of them has the property; `Frame.executeCommand`
concludes it of the handlers, whatever the line, the outcome and the answers of
the system. Most often `P` says that the state is moved along a relation.

The handlers that change a record by more than its data socket or its transfer
mode — logging in, changing directory — are left to the caller, because it is
just these that most properties tell apart (`Follows.logs`, `Follows.changes`).
A frame may leave out further names for the same reason.
-/

namespace MyFtp.Server

open MyFtp.Posix
open Prog

/-- The names whose handlers no frame covers. -/
def ownNames : List CStr := [lit "USER", lit "PASS", lit "CWD", lit "CDUP"]

/-- The command a child's function belongs to. -/
def TransferBody.word : TransferBody → CStr
  | .executeLsCommand => lit "LIST"
  | .executeRetrCommand => lit "RETR"
  | .executeStorCommand => lit "STOR"

/-- A reply with one of the two codes of a command that was refused. -/
def Reply.refuses (r : Reply) : Bool := r.code == some 500 || r.code == some 550

/-- A property that follows the text of the handlers. Using a null pointer has
it too. -/
structure Follows (P : ∀ {α : Type}, M α → Prop) : Prop extends Modular P where
  undefined : ∀ {α : Type}, P (fail .undefined : M α)

/-- What the handlers are made of, apart from those of `ownNames` and of `own`,
has the property `P`. -/
structure Frame (server : ServerT) (ans : Answers) (own : List CStr)
    (P : ∀ {α : Type}, M α → Prop) : Prop extends Follows P where
  reply : ∀ r, P (reply r)
  setType : ∀ mode, P (modifyConn fun c => { c with transferMode := mode })
  passive : P (createPassiveDataSocket ans)
  active : ∀ arg, P (createActiveDataSocket ans arg)
  transfer : ∀ body command, TransferBody.word body ∉ own →
    P (executeDataSocketCommand ans body command)
  delete : lit "DELE" ∉ own → ∀ path, P (deleteFile path)
  retrieve : lit "RETR" ∉ own → ∀ path, P (checkFileExists server path)
  list : lit "LIST" ∉ own → ∀ path, P (checkListArgument server path)

section

variable {P : ∀ {α : Type}, M α → Prop} {server : ServerT} {ans : Answers} {own : List CStr}

theorem Follows.conn (hP : Follows P) : P conn := hP.gets _

theorem Follows.deref (hP : Follows P) {α : Type} (a : Option α) : P (deref a) := by
  cases a with
  | none => exact hP.undefined
  | some a => exact hP.pure a

/-- Say one thing and end with a status. -/
theorem Follows.answer (hP : Follows P) (hreply : ∀ r, P (reply r)) {α : Type} (r : Reply) (a : α) :
    P (do reply r; return a) :=
  hP.bind (hreply r) fun _ => hP.pure a

theorem Follows.refuse (hP : Follows P) (hreply : ∀ r, P (reply r)) (r : Reply) : P (refuse r) :=
  hP.answer hreply r _

/-! ### The handlers of a frame -/

theorem Frame.refuse (hF : Frame server ans own P) (r : Reply) : P (refuse r) :=
  hF.toFollows.refuse hF.reply r

theorem Frame.answer (hF : Frame server ans own P) (r : Reply) (status : CommandStatus) :
    P (do Server.reply r; return status) :=
  hF.toFollows.answer hF.reply r status

/-- The test every handler but three begins with. -/
theorem Frame.loggedIn (hF : Frame server ans own P) {p : Connection → M CommandStatus}
    (hp : ∀ c, P (p c)) :
    P (do
      let c ← conn
      if c.loggedIn = false then Server.refuse .pleaseLogin else p c) :=
  hF.bind hF.conn fun c => prop_ite (fun _ => hF.refuse _) fun _ => hp c

theorem Frame.typeCommand (hF : Frame server ans own P) (command : Command) :
    P (typeCommand command) :=
  hF.loggedIn fun _ => prop_ite (fun _ => hF.refuse _) fun _ =>
    hF.bind (hF.deref _) fun _ =>
      prop_ite (fun _ => hF.bind (hF.setType _) fun _ => hF.answer _ _) fun _ =>
        prop_ite (fun _ => hF.bind (hF.setType _) fun _ => hF.answer _ _) fun _ => hF.refuse _

theorem Frame.retrCommand (hF : Frame server ans own P) (hown : lit "RETR" ∉ own)
    (command : Command) : P (retrCommand server ans command) :=
  hF.loggedIn fun _ => prop_ite (fun _ => hF.refuse _) fun _ =>
    prop_ite (fun _ => hF.refuse _) fun _ => hF.bind (hF.deref _) fun _ =>
      hF.bind (hF.retrieve hown _) fun _ => prop_ite (fun _ => hF.pure _) fun _ =>
        hF.transfer _ _ hown

theorem Frame.listCommand (hF : Frame server ans own P) (hown : lit "LIST" ∉ own)
    (command : Command) : P (listCommand server ans command) := by
  refine hF.loggedIn fun _ => prop_ite (fun _ => hF.refuse _) fun _ => ?_
  split
  next => exact hF.transfer _ _ hown
  next path _ =>
    exact hF.bind (hF.list hown _) fun _ => prop_ite (fun _ => hF.pure _) fun _ =>
      hF.transfer _ _ hown

/-- Every handler has the property, but for the exempted names. -/
theorem Frame.handler (hF : Frame server ans own P) {name : CStr} {handler : Handler}
    (hmem : (name, handler) ∈ commandHandlers) (command : Command) (hn : name ∉ ownNames)
    (hown : name ∉ own) : P (handler server ans command) := by
  simp only [commandHandlers, List.mem_cons, Prod.mk.injEq, List.not_mem_nil, or_false] at hmem
  rcases hmem with h | h | h | h | h | h | h | h | h | h | h | h | h | h | h <;>
    obtain ⟨rfl, rfl⟩ := h
  case inl => exact absurd (by decide) hn
  case inr.inl => exact absurd (by decide) hn
  case inr.inr.inl => exact absurd (by decide) hn
  case inr.inr.inr.inl => exact absurd (by decide) hn
  · exact hF.pure _
  · exact hF.loggedIn fun _ => prop_ite (fun _ => hF.refuse _) fun _ =>
      hF.bind (hF.deref _) fun _ => hF.delete hown _
  · exact hF.loggedIn fun _ => hF.bind (hF.deref _) fun _ => hF.answer _ _
  · exact hF.loggedIn fun _ => hF.passive
  · exact hF.loggedIn fun _ => prop_ite (fun _ => hF.refuse _) fun _ =>
      hF.bind (hF.deref _) fun _ => hF.active _
  · exact hF.loggedIn fun _ => hF.bind (hF.reply _) fun _ => hF.bind (hF.reply _) fun _ =>
      hF.answer _ _
  · exact hF.loggedIn fun _ => hF.answer _ _
  · exact hF.retrCommand hown command
  · exact hF.loggedIn fun _ => prop_ite (fun _ => hF.refuse _) fun _ =>
      prop_ite (fun _ => hF.refuse _) fun _ => hF.transfer _ _ hown
  · exact hF.listCommand hown command
  · exact hF.typeCommand command

/-- A line without one of the exempted names has the property. -/
theorem Frame.executeCommand (hF : Frame server ans own P) {parsed : Option Command}
    (hown : ∀ command, parsed = some command → command.word ∉ ownNames ∧ command.word ∉ own) :
    P (executeCommand server ans parsed) := by
  have hunknown : P (Server.executeCommand server ans none) :=
    hF.bind (hF.bind hF.conn fun _ => hF.reply _) fun _ => hF.pure _
  cases parsed with
  | none => exact hunknown
  | some command =>
    cases hh : getCommandHandler command with
    | none =>
      rw [executeCommand_of_none hh]
      exact hunknown
    | some handler =>
      have hmem := getCommandHandler_mem hh
      rw [executeCommand_of_mem hmem]
      exact hF.handler hmem command (hown command rfl).1 (hown command rfl).2

/-! ### The parts of the handlers -/

theorem Follows.deleteFile (hP : Follows P) (hreply : ∀ r, P (reply r))
    (hchdir : ∀ path, P (chdir path)) (hremove : ∀ path, P (remove path)) (path : CStr) :
    P (deleteFile path) :=
  hP.bind hP.conn fun _ => hP.bind (hP.deref _) fun _ => hP.bind (hchdir _) fun _ =>
    hP.bind (hremove _) fun _ => prop_ite (fun _ => hP.refuse hreply _) fun _ =>
      hP.answer hreply _ _

theorem Follows.checkFileExists (hP : Follows P) (hreply : ∀ r, P (reply r))
    (hchdir : ∀ path, P (chdir path)) (path : CStr) : P (checkFileExists server path) :=
  hP.bind hP.conn fun _ => hP.bind (hP.deref _) fun _ => hP.bind (hchdir _) fun _ =>
    hP.bind (hP.gets _) fun _ => hP.bind (hchdir _) fun _ =>
      prop_ite
        (fun _ => hP.bind (hP.gets _) fun _ => prop_ite
          (fun _ => hP.answer hreply _ _) fun _ => hP.answer hreply _ _)
        fun _ => hP.pure _

theorem Follows.checkListArgument (hP : Follows P) (hreply : ∀ r, P (reply r))
    (hchdir : ∀ path, P (chdir path)) (path : CStr) : P (checkListArgument server path) := by
  refine hP.bind ?_ fun _ => prop_ite (fun _ => hP.pure _) fun _ => ?_
  · exact hP.bind (hP.gets _) fun _ => prop_ite (fun _ => hP.answer hreply _ _) fun _ => hP.pure _
  · exact hP.bind hP.conn fun _ => hP.bind (hP.deref _) fun _ => hP.bind (hchdir _) fun _ =>
      hP.bind (hchdir _) fun _ => prop_ite (fun _ => hP.answer hreply _ _) fun _ =>
        hP.bind (hP.gets _) fun _ => hP.bind (hP.deref _) fun _ => hP.bind (hchdir _) fun _ =>
          prop_ite (fun _ => hP.answer hreply _ _) fun _ => hP.pure _

theorem Follows.changeDir (hP : Follows P) (hreply : ∀ r, P (reply r))
    (hchdir : ∀ path, P (chdir path))
    (hset : ∀ d, P (modifyConn fun c => { c with workingDirectory := d })) (path : CStr) :
    P (changeDir server path) := by
  refine hP.bind ?_ fun _ => prop_ite (fun _ => hP.pure _) fun _ => ?_
  · exact hP.bind (hP.gets _) fun _ => prop_ite (fun _ => hP.answer hreply _ _) fun _ => hP.pure _
  refine hP.bind (hP.gets _) fun _ => hP.bind ?_ fun _ =>
    prop_ite (fun _ => hP.pure _) fun _ => ?_
  · exact prop_ite (fun _ => hP.pure _) fun _ => hP.answer hreply _ _
  refine hP.bind hP.conn fun _ => hP.bind (hP.deref _) fun _ => hP.bind (hchdir _) fun _ =>
    hP.bind (hchdir _) fun _ => hP.bind (hP.gets _) fun _ => hP.bind (hset _) fun _ =>
      hP.bind (hchdir _) fun _ => hP.bind ?_ fun _ => hP.answer hreply _ _
  exact hP.bind hP.conn fun _ => hP.bind (hP.deref _) fun _ => prop_ite
    (fun _ => hP.bind (hP.gets _) fun _ => hset _) fun _ => hP.pure _

/-- `CWD` and `CDUP`. -/
theorem Follows.changes (hP : Follows P) (hreply : ∀ r, P (reply r))
    (hchdir : ∀ path, P (chdir path))
    (hset : ∀ d, P (modifyConn fun c => { c with workingDirectory := d })) {command : Command}
    (h : command.word = lit "CWD" ∨ command.word = lit "CDUP") :
    P (Server.executeCommand server ans (some command)) := by
  have hrefuse := hP.refuse hreply
  rcases h with h | h
  · rw [executeCommand_of_mem (by rw [h]; exact List.mem_of_getElem? (i := 2) rfl)]
    exact hP.bind hP.conn fun _ => prop_ite (fun _ => hrefuse _) fun _ =>
      prop_ite (fun _ => hrefuse _) fun _ =>
        hP.bind (hP.deref _) fun _ => hP.changeDir hreply hchdir hset _
  · rw [executeCommand_of_mem (by rw [h]; exact List.mem_of_getElem? (i := 3) rfl)]
    exact hP.bind hP.conn fun _ => prop_ite (fun _ => hrefuse _) fun _ =>
      hP.changeDir hreply hchdir hset _

/-- `USER` and `PASS`, which refuse nothing. -/
theorem Follows.logs (hP : Follows P) (hreply : ∀ r, r.refuses = false → P (reply r))
    (hset : ∀ f : Connection → Connection,
      (∀ c, f c = { c with loggedIn := (f c).loggedIn, user := (f c).user }) → P (modifyConn f))
    {command : Command} (h : command.word = lit "USER" ∨ command.word = lit "PASS") :
    P (Server.executeCommand server ans (some command)) := by
  have hsay : ∀ {r : Reply} (status : CommandStatus), r.refuses = false →
      P (do Server.reply r; return status) :=
    fun _ hr => hP.bind (hreply _ hr) fun _ => hP.pure _
  rcases h with h | h
  · rw [executeCommand_of_mem (by rw [h]; exact List.mem_of_getElem? (i := 0) rfl)]
    exact hP.bind hP.conn fun _ => prop_ite (fun _ => hsay _ rfl) fun _ =>
      hP.bind (hset _ fun _ => rfl) fun _ => hsay _ rfl
  · rw [executeCommand_of_mem (by rw [h]; exact List.mem_of_getElem? (i := 1) rfl)]
    refine hP.bind ?_ fun _ => prop_ite (fun _ => hP.pure _) fun _ => ?_
    · exact hP.bind hP.conn fun _ => prop_ite (fun _ => hsay _ rfl) fun _ =>
        prop_ite (fun _ => hsay _ rfl) fun _ => hP.pure _
    refine hP.bind hP.conn fun _ => hP.bind (hP.deref _) fun _ =>
      prop_ite (fun _ => ?_) fun _ => ?_
    · exact hP.bind (hreply _ rfl) fun _ => hP.bind (hset _ fun _ => rfl) fun _ => hP.pure _
    · exact hP.bind (hset _ fun _ => rfl) fun _ => hsay _ rfl

/-- What a handler may put into the descriptor table. -/
def Harmless (d : Option Desc) : Prop := ∀ id, d ≠ some (.control id)

theorem newDesc_eq (fd : Fd) (d : Desc) :
    newDesc fd d = (do
      let free ← gets fun s : Ctx => decide (s.os.desc fd = none)
      if free = true then setDesc fd (some d) else fail .disabled) := by
  funext s
  rw [newDesc, gets_bind_apply]
  by_cases hfree : s.os.desc fd = none
  · rw [if_pos hfree, if_pos (decide_eq_true hfree)]
  · rw [if_neg hfree, if_neg (by simp [hfree])]
    rfl

theorem Follows.newDesc (hP : Follows P) (hdisabled : P (fail .disabled : M Unit))
    (hdesc : ∀ fd d, Harmless d → P (setDesc fd d)) (fd : Fd) {d : Desc} (hd : Harmless (some d)) :
    P (newDesc fd d) := by
  rw [newDesc_eq]
  exact hP.bind (hP.gets _) fun _ => prop_ite (fun _ => hdesc _ _ hd) fun _ => hdisabled

theorem Follows.socket (hP : Follows P) (hdisabled : P (fail .disabled : M Unit))
    (hdesc : ∀ fd d, Harmless d → P (setDesc fd d)) : P (socket ans) := by
  unfold Server.socket
  split
  next => exact hP.pure _
  next fd _ => exact hP.bind (hP.newDesc hdisabled hdesc fd (by simp [Harmless])) fun _ => hP.pure _

theorem Follows.acceptData (hP : Follows P) (hdisabled : P (fail .disabled : M Unit))
    (hblocked : ∀ {α : Type}, P (fail .blocked : M α))
    (hdesc : ∀ fd d, Harmless d → P (setDesc fd d)) (fd : Option Fd) : P (acceptData ans fd) := by
  unfold Server.acceptData
  split
  next => exact hP.pure _
  next =>
    refine hP.bind (hP.gets _) fun _ => ?_
    split
    next =>
      exact hP.bind (hdesc _ _ (by simp [Harmless])) fun _ =>
        hP.bind (hP.newDesc hdisabled hdesc _ (by simp [Harmless])) fun _ => hP.pure _
    next => exact hblocked
    next => exact hP.pure _

theorem Follows.establish (hP : Follows P) (hdata : ∀ d, P (setDataSocket d))
    (haccept : ∀ fd, P (Server.acceptData ans fd)) : P (establishDataSocketConnection ans) := by
  refine hP.bind hP.conn fun _ => hP.bind (hP.deref _) fun _ => ?_
  split
  next =>
    refine hP.bind (haccept _) fun _ => ?_
    split
    next => exact hP.bind (hdata _) fun _ => hP.pure _
    next => exact hP.bind (hdata _) fun _ => hP.pure _
  next => exact hP.pure _

/-- The data socket is destroyed at the end of every transfer. -/
theorem Follows.destroy (hP : Follows P) (hdata : ∀ d, P (setDataSocket d))
    (hclose : ∀ fd, P (close fd)) (status : CommandStatus) : P (do
      let c ← Server.conn
      destroyDataSocket c.dataSocket
      setDataSocket none
      return status) := by
  refine hP.bind hP.conn fun _ => hP.bind ?_ fun _ => hP.bind (hdata _) fun _ => hP.pure _
  unfold destroyDataSocket
  split
  next => exact hclose _
  next => exact hP.pure _

/-- A transfer, from the system calls it is made of. It fails without refusing
anything. -/
theorem Follows.transfer (hP : Follows P) (hreply : ∀ r, r.refuses = false → P (reply r))
    (hdata : ∀ d, P (setDataSocket d)) (hclose : ∀ fd, P (close fd))
    (haccept : ∀ fd, P (Server.acceptData ans fd)) {body : TransferBody} {command : Command}
    (hfork : P (modify fun s => { s with
      forked := s.forked ++ [⟨body, command, s.conn, s.os.cwd, s.os.desc⟩] } : M Unit)) :
    P (executeDataSocketCommand ans body command) := by
  have hend := hP.destroy hdata hclose
  refine hP.bind (hP.establish hdata haccept) fun _ => prop_ite (fun _ => ?_) fun _ => ?_
  · exact hP.bind (hreply _ rfl) fun _ => hend _
  · refine hP.bind ?_ fun _ => ?_
    · exact prop_ite (fun _ => hP.bind hfork fun _ => hP.pure _) fun _ => hP.pure _
    · exact prop_ite (fun _ => hP.bind (hreply _ rfl) fun _ => hend _) fun _ => hend _

/-- `PASV`, which refuses nothing either. -/
theorem Follows.passive (hP : Follows P) (hreply : ∀ r, r.refuses = false → P (reply r))
    (hdata : ∀ d, P (setDataSocket d)) (hdisabled : P (fail .disabled : M Unit))
    (hdesc : ∀ fd d, Harmless d → P (setDesc fd d)) : P (createPassiveDataSocket ans) := by
  refine hP.bind ?_ fun created => hP.bind (hdata _) fun _ => ?_
  · refine hP.bind (hP.socket hdisabled hdesc) fun fd => ?_
    split
    next => exact hP.pure _
    next =>
      exact prop_ite (fun _ => hP.pure _) fun _ => prop_ite (fun _ => hP.pure _) fun _ =>
        hP.bind (hdesc _ _ (by simp [Harmless])) fun _ => hP.pure _
  · split
    next => exact hP.bind (hreply _ rfl) fun _ => hP.pure _
    next =>
      exact hP.bind (hP.deref _) fun _ => hP.bind (hreply _ rfl) fun _ => hP.pure _

/-- `PORT`, once the six numbers are there. -/
theorem Follows.active (hP : Follows P) (hreply : ∀ r, r.refuses = false → P (reply r))
    (hdata : ∀ d, P (setDataSocket d)) (hdisabled : P (fail .disabled : M Unit))
    (hdesc : ∀ fd d, Harmless d → P (setDesc fd d)) {arg : CStr} {hostPort : List Int}
    (h : parseHostPortValues arg = some hostPort) : P (createActiveDataSocket ans arg) := by
  rw [createActiveDataSocket, h]
  refine hP.bind ?_ fun created => hP.bind (hdata _) fun _ => ?_
  · refine hP.bind (hP.socket hdisabled hdesc) fun fd => ?_
    split
    next => exact hP.pure _
    next => exact hP.pure _
  · split
    next => exact hP.bind (hreply _ rfl) fun _ => hP.pure _
    next => exact hP.bind (hreply _ rfl) fun _ => hP.pure _

/-- A frame from the system calls the parts are made of. -/
theorem Follows.frame (hP : Follows P) (hreply : ∀ r, P (reply r))
    (hchdir : lit "DELE" ∉ own ∨ lit "RETR" ∉ own ∨ lit "LIST" ∉ own → ∀ path, P (chdir path))
    (hremove : lit "DELE" ∉ own → ∀ path, P (remove path))
    (htype : ∀ mode, P (modifyConn fun c => { c with transferMode := mode }))
    (hdata : ∀ d, P (setDataSocket d)) (hdisabled : P (fail .disabled : M Unit))
    (hdesc : ∀ fd d, Harmless d → P (setDesc fd d))
    (htransfer : ∀ body command, TransferBody.word body ∉ own →
      P (executeDataSocketCommand ans body command)) :
    Frame server ans own P := by
  refine ⟨hP, hreply, htype, hP.passive (fun r _ => hreply r) hdata hdisabled hdesc, fun arg => ?_,
    htransfer, fun hown path => ?_, fun hown path => ?_, fun hown path => ?_⟩
  · cases h : parseHostPortValues arg with
    | none =>
      rw [createActiveDataSocket, h]
      exact hP.refuse hreply _
    | some hostPort => exact hP.active (fun r _ => hreply r) hdata hdisabled hdesc h
  · exact hP.deleteFile hreply (hchdir (.inl hown)) (hremove hown) path
  · exact hP.checkFileExists hreply (hchdir (.inr (.inl hown))) path
  · exact hP.checkListArgument hreply (hchdir (.inr (.inr hown))) path

end

/-! ## Frames for relations -/

section

variable {R : Ctx → Ctx → Prop} [Std.Refl R] [IsTrans Ctx R]
variable {server : ServerT} {ans : Answers} {own : List CStr}

theorem follows_keeps : Follows (Keeps R) := ⟨modular_keeps, keeps_fail _⟩

theorem keeps_conn : Keeps R conn := follows_keeps.conn

theorem keeps_deref {α : Type} (a : Option α) : Keeps R (deref a) := follows_keeps.deref a

theorem keeps_refuse (h : ∀ r, Keeps R (reply r)) (r : Reply) : Keeps R (refuse r) :=
  follows_keeps.refuse h r

/-- A transfer, from the system calls it is made of. -/
theorem keeps_transfer (hreply : ∀ r, Keeps R (reply r)) (hdata : ∀ d, Keeps R (setDataSocket d))
    (hdesc : ∀ fd d, Harmless d → Keeps R (setDesc fd d)) {body : TransferBody} {command : Command}
    (hfork : Keeps R (modify fun s => { s with
      forked := s.forked ++ [⟨body, command, s.conn, s.os.cwd, s.os.desc⟩] } : M Unit)) :
    Keeps R (executeDataSocketCommand ans body command) :=
  follows_keeps.transfer (fun r _ => hreply r) hdata (fun fd => hdesc fd none (by simp [Harmless]))
    (follows_keeps.acceptData (keeps_fail _) (keeps_fail _) hdesc) hfork

/-- A frame for a relation, from the system calls. -/
theorem frame_of_syscalls (hreply : ∀ r, Keeps R (reply r))
    (hchdir : lit "DELE" ∉ own ∨ lit "RETR" ∉ own ∨ lit "LIST" ∉ own → ∀ path, Keeps R (chdir path))
    (hremove : lit "DELE" ∉ own → ∀ path, Keeps R (remove path))
    (htype : ∀ mode, Keeps R (modifyConn fun c => { c with transferMode := mode }))
    (hdata : ∀ d, Keeps R (setDataSocket d))
    (hdesc : ∀ fd d, Harmless d → Keeps R (setDesc fd d))
    (hfork : ∀ body command, TransferBody.word body ∉ own →
      Keeps R (modify fun s => { s with
        forked := s.forked ++ [⟨body, command, s.conn, s.os.cwd, s.os.desc⟩] } : M Unit)) :
    Frame server ans own (Keeps R) :=
  follows_keeps.frame hreply hchdir hremove htype hdata (keeps_fail _) hdesc
    fun body command hbody => keeps_transfer hreply hdata hdesc (hfork body command hbody)

end

/-! ## What each group of handlers changes -/

/-- What eleven of the handlers do at most: the record changes in its data
socket and its transfer mode, and the tree only loses entries. -/
structure Routine (s s' : Ctx) : Prop where
  conn : s'.conn =
    { s.conn with dataSocket := s'.conn.dataSocket, transferMode := s'.conn.transferMode }
  signals : s'.os.signals = s.os.signals
  hungup : s'.os.hungup = s.os.hungup
  data : s'.data = s.data
  tree : FileTree.Later s.os.tree s'.os.tree

/-- What `CWD` and `CDUP` do at most: the process and the record change their
directories. -/
structure Relocates (s s' : Ctx) : Prop where
  conn : s'.conn = { s.conn with workingDirectory := s'.conn.workingDirectory }
  os : s'.os = { s.os with cwd := s'.os.cwd }
  data : s'.data = s.data
  forked : s'.forked = s.forked

/-- What `USER` and `PASS` do at most: the record changes its user and its
login, and replies go out to its client. -/
structure Logs (s s' : Ctx) : Prop where
  conn : s'.conn = { s.conn with loggedIn := s'.conn.loggedIn, user := s'.conn.user }
  os : s'.os = s.os
  data : s'.data = s.data
  forked : s'.forked = s.forked
  out : ∀ id, s.os.desc s.conn.clientSockfd = some (.control id) →
    ∃ l, s'.out = s.out ++ l ∧ ∀ e ∈ l, e.1 = id

instance : Std.Refl Routine := ⟨fun _ => ⟨rfl, rfl, rfl, rfl, FileTree.later_refl _⟩⟩

instance : IsTrans Ctx Routine := ⟨fun a b c h h' =>
  ⟨by rw [h'.conn, h.conn], h'.signals.trans h.signals, h'.hungup.trans h.hungup,
    h'.data.trans h.data, FileTree.later_trans h.tree h'.tree⟩⟩

instance : Std.Refl Relocates := ⟨fun _ => ⟨rfl, rfl, rfl, rfl⟩⟩

instance : IsTrans Ctx Relocates := ⟨fun a b c h h' =>
  ⟨by rw [h'.conn, h.conn], by rw [h'.os, h.os], h'.data.trans h.data,
    h'.forked.trans h.forked⟩⟩

instance : Std.Refl Logs :=
  ⟨fun s => ⟨rfl, rfl, rfl, rfl, fun _ _ => ⟨[], (List.append_nil s.out).symm, by simp⟩⟩⟩

instance : IsTrans Ctx Logs := ⟨by
  intro a b c h h'
  refine ⟨by rw [h'.conn, h.conn], h'.os.trans h.os, h'.data.trans h.data,
    h'.forked.trans h.forked, fun id hid => ?_⟩
  obtain ⟨l, hl, hto⟩ := h.out id hid
  obtain ⟨l', hl', hto'⟩ := h'.out id (by rw [h.os, h.conn]; exact hid)
  refine ⟨l ++ l', by rw [hl', hl, List.append_assoc], fun e he => ?_⟩
  exact (List.mem_append.mp he).elim (hto e) (hto' e)⟩

theorem keeps_reply {R : Ctx → Ctx → Prop} (hr : ∀ s, R s s)
    (h : ∀ s r, R s { s with out := s.out ++ s.os.delivers s.conn.clientSockfd r }) (r : Reply) :
    Keeps R (reply r) := by
  intro s
  rw [reply_apply, dprintf_apply]
  split
  · exact hr s
  · exact h s r

theorem keeps_chdir {R : Ctx → Ctx → Prop} (h : ∀ s cwd, R s { s with os := { s.os with cwd } })
    (path : CStr) : Keeps R (chdir path) := by
  intro s
  rw [chdir]
  split
  · exact h s _
  · exact h s s.os.cwd

theorem keeps_remove {R : Ctx → Ctx → Prop}
    (h : ∀ s p, R s { s with os := { s.os with tree := s.os.tree.drop p } }) (hr : ∀ s, R s s)
    (path : CStr) : Keeps R (remove path) := by
  intro s
  rw [remove]
  split
  next t ht =>
    obtain ⟨p, -, rfl⟩ := Option.map_eq_some_iff.mp ht
    exact h s p
  next => exact hr s

theorem logs_reply (r : Reply) : Keeps Logs (reply r) :=
  keeps_reply (fun s => Std.Refl.refl s)
    (fun _ _ => ⟨rfl, rfl, rfl, rfl, fun _ hid => ⟨_, rfl, mem_delivers hid⟩⟩) r

theorem logs_modifyConn {f : Connection → Connection}
    (h : ∀ c, f c = { c with loggedIn := (f c).loggedIn, user := (f c).user }) :
    Keeps Logs (modifyConn f) :=
  fun s => ⟨h s.conn, rfl, rfl, rfl, fun _ _ => ⟨[], (List.append_nil s.out).symm, by simp⟩⟩

/-- The eleven handlers without a name of their own here are routine. -/
theorem frame_routine (server : ServerT) (ans : Answers) : Frame server ans [] (Keeps Routine) :=
  frame_of_syscalls
    (keeps_reply (fun s => Std.Refl.refl s) fun _ _ => ⟨rfl, rfl, rfl, rfl, FileTree.later_refl _⟩)
    (fun _ => keeps_chdir fun _ _ => ⟨rfl, rfl, rfl, rfl, FileTree.later_refl _⟩)
    (fun _ => keeps_remove (fun _ p => ⟨rfl, rfl, rfl, rfl, FileTree.later_drop _ p⟩)
      fun s => Std.Refl.refl s)
    (fun _ _ => ⟨rfl, rfl, rfl, rfl, FileTree.later_refl _⟩)
    (fun _ _ => ⟨rfl, rfl, rfl, rfl, FileTree.later_refl _⟩)
    (fun _ _ _ _ => ⟨rfl, rfl, rfl, rfl, FileTree.later_refl _⟩)
    (fun _ _ _ _ => ⟨rfl, rfl, rfl, rfl, FileTree.later_refl _⟩)

theorem executeCommand_routine {server : ServerT} {ans : Answers} {parsed : Option Command}
    (h : ∀ command, parsed = some command → command.word ∉ ownNames) :
    Keeps Routine (executeCommand server ans parsed) :=
  (frame_routine server ans).executeCommand fun command hc => ⟨h command hc, by simp⟩

theorem executeCommand_relocates {server : ServerT} {ans : Answers} {command : Command}
    (h : command.word = lit "CWD" ∨ command.word = lit "CDUP") :
    Keeps Relocates (executeCommand server ans (some command)) :=
  follows_keeps.changes (keeps_reply (fun s => Std.Refl.refl s) fun _ _ => ⟨rfl, rfl, rfl, rfl⟩)
    (keeps_chdir fun _ _ => ⟨rfl, rfl, rfl, rfl⟩) (fun _ _ => ⟨rfl, rfl, rfl, rfl⟩) h

theorem executeCommand_logs {server : ServerT} {ans : Answers} {command : Command}
    (h : command.word = lit "USER" ∨ command.word = lit "PASS") :
    Keeps Logs (executeCommand server ans (some command)) :=
  follows_keeps.logs (fun r _ => logs_reply r) (fun _ => logs_modifyConn) h

/-- Every line falls into one of three groups. -/
theorem word_cases (parsed : Option Command) :
    (∀ command, parsed = some command → command.word ∉ ownNames) ∨
      (∃ command, parsed = some command ∧
        (command.word = lit "CWD" ∨ command.word = lit "CDUP")) ∨
      ∃ command, parsed = some command ∧
        (command.word = lit "USER" ∨ command.word = lit "PASS") := by
  cases parsed with
  | none => exact .inl fun _ h => by simp at h
  | some command =>
    by_cases h : command.word ∈ ownNames
    · simp only [ownNames, List.mem_cons, List.not_mem_nil, or_false] at h
      rcases h with h | h | h | h
      · exact .inr (.inr ⟨command, rfl, .inl h⟩)
      · exact .inr (.inr ⟨command, rfl, .inr h⟩)
      · exact .inr (.inl ⟨command, rfl, .inl h⟩)
      · exact .inr (.inl ⟨command, rfl, .inr h⟩)
    · exact .inl fun c hc => by rwa [← Option.some.inj hc]

/-- Lines create no directories and no links. -/
theorem later_of_executeCommand {server : ServerT} {ans : Answers} {parsed : Option Command}
    {s s' : Ctx} {status : CommandStatus}
    (h : executeCommand server ans parsed s = (.ok status, s')) :
    FileTree.Later s.os.tree s'.os.tree := by
  rcases word_cases parsed with hr | ⟨command, rfl, hw⟩ | ⟨command, rfl, hw⟩
  · exact ((executeCommand_routine hr).after h).tree
  · rw [((executeCommand_relocates hw).after h).os]
    exact FileTree.later_refl _
  · rw [((executeCommand_logs hw).after h).os]
    exact FileTree.later_refl _

end MyFtp.Server
