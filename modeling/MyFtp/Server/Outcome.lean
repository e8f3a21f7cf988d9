import MyFtp.Server.Descriptors
import MyFtp.Server.Home
import MyFtp.Server.Replies

/-!
# What a line comes to

The handlers differ in what they say; for the data socket there are five
courses a line can take (`Outcome`): it is answered and nothing else happens, it
ends the session, `PASV` or `PORT` is declined, one of them gives up the old
data socket and sets up a new one or fails to, or a transfer is begun.

> `executeCommand_outcome`: one of the five, with the state it leaves written
> out.

> `transfer_outcome`: the same for the last one. It is an attempt to connect,
> then to fork, and it gives up the data socket in any case.

Which of them it is depends on the command and on what the handler finds:
`offer` is the data socket `PASV` or `PORT` asks for, `transferOf` the transfer
whose tests all pass.
-/

namespace MyFtp.Server

open MyFtp.Posix
open Prog

/-! ## Setting up -/

/-- What `PASV` or `PORT` makes of a new descriptor: the data socket, what the
descriptor stands for then, and the reply that says so. -/
def offer (ans : Answers) (command : Command) (fd : Fd) : Option (DataSocket × Desc × Reply) :=
  if command.word = lit "PASV" then
    some (passiveSocket ans fd, .listener 0, .enteringPassive inaddrLoopback
      ((ans.port.toNat / 256 : Nat) : Int) ((ans.port.toNat % 256 : Nat) : Int))
  else if command.word = lit "PORT" ∧ command.argc = 1 then
    (command.argv.head?.bind parseHostPortValues).map fun hostPort =>
      (activeSocket hostPort fd, .socket, .portSuccessful)
  else none

/-- `PASV` or `PORT` sets up a data socket, or fails to; the old one is gone either
way. The last case is a descriptor that is not bound or does not listen: it
stays open. -/
inductive SetsUp (ans : Answers) (id : ConnId) (command : Command) (s : Ctx) : Ctx → Prop
  | offered (fd : Fd) (d : DataSocket) (x : Desc) (r : Reply) (hsocket : ans.socket = some fd)
      (hfree : s.os.desc fd = none) (hoffer : offer ans command fd = some (d, x, r))
      (hlisten : command.word = lit "PASV" → ans.bind = true ∧ ans.listen = true) :
      SetsUp ans id command s { s.withDesc fd (some x) with
        conn := { s.conn with dataSocket := some d }, out := s.out ++ [(id, r)] }
  | noSocket (hsocket : ans.socket = none) :
      SetsUp ans id command s { s with
        conn := { s.conn with dataSocket := none }, out := s.out ++ [(id, .localError)] }
  | deaf (fd : Fd) (hsocket : ans.socket = some fd) (hfree : s.os.desc fd = none)
      (hpasv : command.word = lit "PASV") (hlisten : ans.bind = false ∨ ans.listen = false) :
      SetsUp ans id command s { s.withDesc fd (some .socket) with
        conn := { s.conn with dataSocket := none }, out := s.out ++ [(id, .localError)] }

/-! ## Transfers -/

/-- The transfer a word asks for. -/
def bodyOf (word : CStr) : Option TransferBody :=
  [.executeLsCommand, .executeRetrCommand, .executeStorCommand].find? (·.word == word)

/-- What the tests before a transfer come to, for a client in the directory `W`: a
refusal, if one of them fails, and where the process stands after them. -/
def transferTests (server : ServerT) (s : Ctx) (W : Path) (command : Command)
    (body : TransferBody) : Option Reply × Path :=
  if s.conn.loggedIn = false then (some .pleaseLogin, s.os.cwd)
  else if s.conn.dataSocket = none then (some .usePasvOrPort, s.os.cwd)
  else
    match body, command.argv.head? with
    | .executeLsCommand, none => (none, s.os.cwd)
    | .executeLsCommand, some path =>
      if s.os.tree.access s.os.cwd path = false then (some .failedToListDirectory, s.os.cwd)
      else
        match s.os.tree.chdir (s.wdFrom W) path with
        | none => (some .failedToListDirectory, s.wdFrom W)
        | some d =>
          (if pathStr server.path <+: pathStr d then none else some .failedToListDirectory,
            s.os.tree.goto d (pathStr server.path))
    | .executeRetrCommand, file =>
      if command.argc ≠ 1 then (some .failedToOpenFile, s.os.cwd)
      else
        let back := s.os.tree.goto (s.wdFrom W) (pathStr server.path)
        let path := file.getD []
        (if s.os.tree.openRead (s.wdFrom W) path = none then
          some (if s.os.tree.accessRead back path then .localError else .permissionDenied)
        else none, back)
    | .executeStorCommand, _ =>
      (if command.argc ≠ 1 then some .failedToOpenFile else none, s.os.cwd)

/-- `LIST` with an argument uses the name of the directory it finds, which there is as
long as the directory is. -/
def ListFinds (s : Ctx) (W : Path) (command : Command) : Prop :=
  s.conn.loggedIn = true → s.conn.dataSocket ≠ none → ∀ path ∈ command.argv.head?,
    s.os.tree.access s.os.cwd path = true →
      ∀ d ∈ s.os.tree.chdir (s.wdFrom W) path, s.os.tree.isDir d = true

instance (s : Ctx) (W : Path) (command : Command) : Decidable (ListFinds s W command) :=
  inferInstanceAs (Decidable (_ → _ → _))

/-- The transfer a command begins: its tests all pass. -/
def transferOf (server : ServerT) (s : Ctx) (command : Command) : Option TransferBody :=
  (bodyOf command.word).bind fun body => s.conn.workingDirectory.bind fun W =>
    if (transferTests server s W command body).1 = none then some body else none

/-- How the attempt to connect ends: whether there is a connection, and the data
socket and the descriptors it leaves. A connection that arrived on a passive
data socket gets a descriptor of its own; the one that listens stays open. -/
inductive Reached (ans : Answers) (desc : DescTable) (d : DataSocket) :
    Bool → DataSocket → DescTable → Prop
  | active (hmode : d.dataSocketMode = .active) : Reached ans desc d ans.connect d desc
  | refused (hmode : d.dataSocketMode = .passive) :
      Reached ans desc d false { d with clientSockfd := none } desc
  | accepted (l newFd : Fd) (pending : Nat) (peer : SockAddr) (hmode : d.dataSocketMode = .passive)
      (hl : d.dataSockfd = some l) (hpending : desc l = some (.listener (pending + 1)))
      (hfree : desc newFd = none) (haccept : ans.accept = some (newFd, peer)) :
      Reached ans desc d true { d with clientSockfd := some newFd, addr := peer }
        (Function.update (Function.update desc l (some (.listener pending))) newFd (some .socket))

/-- The descriptors once a data socket is destroyed. -/
def DataSocket.destroyed (d : DataSocket) (desc : DescTable) : DescTable :=
  match d.clientSockfd with
  | some fd => Function.update desc fd none
  | none => desc

theorem DataSocket.destroyed_of_none {d : DataSocket} (h : d.clientSockfd = none)
    (desc : DescTable) : d.destroyed desc = desc := by
  unfold DataSocket.destroyed
  rw [h]

theorem DataSocket.destroyed_of_some {d : DataSocket} {fd : Fd} (h : d.clientSockfd = some fd)
    (desc : DescTable) : d.destroyed desc = Function.update desc fd none := by
  unfold DataSocket.destroyed
  rw [h]

/-- What the parent says about a transfer: nothing, when a child is there to do
it. -/
def transferReplies (connected fork : Bool) : List Reply :=
  if connected = false then [.failedToEstablish] else if fork then [] else [.localError]

/-- The replies with which a parent refuses a transfer: those of the three handlers and of
`execute_data_socket_command`. -/
def refusals : List Reply :=
  [.pleaseLogin, .usePasvOrPort, .failedToOpenFile, .permissionDenied, .failedToListDirectory,
    .failedToEstablish, .localError]

/-- The child of a transfer, when there is one. -/
def transferChildren (connected fork : Bool) (child : Child) : List Child :=
  if connected && fork then [child] else []

/-- The state a transfer leaves. -/
def Ctx.transferred (s : Ctx) (id : ConnId) (ans : Answers) (body : TransferBody)
    (command : Command) (connected : Bool) (d : DataSocket) (desc : DescTable) : Ctx :=
  { s with
    os := { s.os with desc := d.destroyed desc }
    conn := { s.conn with dataSocket := none }
    out := s.out ++ (transferReplies connected ans.fork).map (id, ·)
    forked := s.forked ++ transferChildren connected ans.fork
      ⟨body, command, { s.conn with dataSocket := some d }, s.os.cwd, desc⟩ }

section

variable {server : ServerT} {ans : Answers} {command : Command} {body : TransferBody} {s s' : Ctx}
  {W : Path} {status : CommandStatus} {id : ConnId}

theorem head?_of_argc (h : command.argc = 1) : ∃ f, command.argv.head? = some f := by
  unfold Command.argc at h
  cases hargv : command.argv with
  | nil => rw [hargv] at h; cases h
  | cons f l => exact ⟨f, rfl⟩

theorem told_refuse (r : Reply) : Yields Told (fun _ l => l = [r]) (refuse r) := told_answer rfl

/-- A check that gives the answer ends the handler. -/
theorem refuse_of_check {p : M Bool} {q : M CommandStatus} {r : Reply} {s s₁ : Ctx}
    (h : p s = (do reply r; return true : M Bool) s₁) :
    (do if (← p) then return .failure else q : M CommandStatus) s = refuse r s₁ := by
  rw [reply_bind_apply, dprintf_bind_apply] at h
  rw [refuse_apply, dprintf_bind_apply]
  by_cases hk : s₁.os.kills s₁.conn.clientSockfd = true
  · rw [if_pos hk] at h ⊢
    rw [bind_of_error h]
  · rw [if_neg hk] at h ⊢
    rw [bind_of_ok h, if_pos rfl]

/-- A check that passes lets the handler go on. -/
theorem go_on_of_check {p : M Bool} {q : M CommandStatus} {s s₁ : Ctx}
    (h : p s = (.ok false, s₁)) :
    (do if (← p) then return .failure else q : M CommandStatus) s = q s₁ := by
  rw [bind_of_ok h, if_neg (by simp)]

/-- The tests of `RETR` decide between a refusal and the transfer. -/
theorem retrCommand_tests (hW : s.conn.workingDirectory = some W) :
    retrCommand server ans command s =
      match transferTests server s W command .executeRetrCommand with
      | (some r, cwd) => refuse r (s.inDir cwd)
      | (none, cwd) => executeDataSocketCommand ans .executeRetrCommand command (s.inDir cwd) := by
  unfold retrCommand transferTests
  rw [conn_bind_apply]
  by_cases hlog : s.conn.loggedIn = false
  · rw [if_pos hlog, if_pos hlog]
  rw [if_neg hlog, if_neg hlog]
  by_cases hdata : s.conn.dataSocket = none
  · rw [if_pos hdata, if_pos hdata]
  rw [if_neg hdata, if_neg hdata]
  dsimp only
  by_cases hargc : command.argc = 1
  · obtain ⟨f, hf⟩ := head?_of_argc hargc
    have hcheck : checkFileExists server f s = _ := checkFileExists_apply hW f
    rw [if_neg (not_not.mpr hargc), if_neg (not_not.mpr hargc), hf, deref_some, pure_bind_apply]
    dsimp only [Option.getD_some] at hcheck ⊢
    by_cases hnone : s.os.tree.openRead (s.wdFrom W) f = none
    · rw [if_pos hnone] at hcheck ⊢
      exact refuse_of_check hcheck
    · rw [if_neg hnone] at hcheck ⊢
      exact go_on_of_check hcheck
  · rw [if_pos hargc, if_pos hargc]

/-- The tests of `STOR`. -/
theorem storCommand_tests :
    storCommand ans command s =
      match transferTests server s W command .executeStorCommand with
      | (some r, cwd) => refuse r (s.inDir cwd)
      | (none, cwd) => executeDataSocketCommand ans .executeStorCommand command (s.inDir cwd) := by
  unfold storCommand transferTests
  rw [conn_bind_apply]
  by_cases hlog : s.conn.loggedIn = false
  · rw [if_pos hlog, if_pos hlog]
  rw [if_neg hlog, if_neg hlog]
  by_cases hdata : s.conn.dataSocket = none
  · rw [if_pos hdata, if_pos hdata]
  rw [if_neg hdata, if_neg hdata]
  dsimp only
  by_cases hargc : command.argc = 1
  · rw [if_neg (not_not.mpr hargc), if_neg (not_not.mpr hargc)]
  · rw [if_pos hargc, if_pos hargc]

/-- The tests of `LIST`, where it does not use a name that is not there. -/
theorem listCommand_tests (hW : s.conn.workingDirectory = some W) (hfinds : ListFinds s W command) :
    listCommand server ans command s =
      match transferTests server s W command .executeLsCommand with
      | (some r, cwd) => refuse r (s.inDir cwd)
      | (none, cwd) => executeDataSocketCommand ans .executeLsCommand command (s.inDir cwd) := by
  unfold listCommand transferTests
  rw [conn_bind_apply]
  by_cases hlog : s.conn.loggedIn = false
  · rw [if_pos hlog, if_pos hlog]
  rw [if_neg hlog, if_neg hlog]
  by_cases hdata : s.conn.dataSocket = none
  · rw [if_pos hdata, if_pos hdata]
  rw [if_neg hdata, if_neg hdata]
  cases hpath : command.argv.head? with
  | none => rfl
  | some path =>
    dsimp only
    have hcheck : checkListArgument server path s = _ := checkExists_bind_apply _ _ _
    by_cases hacc : s.os.tree.access s.os.cwd path = false
    · rw [if_pos hacc] at hcheck ⊢
      exact refuse_of_check hcheck
    rw [if_neg hacc, if_neg (by simp), checkDirectoryAccess_apply hW] at hcheck
    rw [if_neg hacc]
    cases hd : s.os.tree.chdir (s.wdFrom W) path with
    | none =>
      rw [hd] at hcheck
      exact refuse_of_check hcheck
    | some d =>
      have hdir := hfinds (by simpa using hlog) hdata path hpath (by simpa using hacc) d hd
      rw [hd] at hcheck
      dsimp only at hcheck ⊢
      rw [if_neg (by simp [hdir])] at hcheck
      by_cases hbelow : pathStr server.path <+: pathStr d
      · rw [if_pos hbelow] at hcheck ⊢
        exact go_on_of_check hcheck
      · rw [if_neg hbelow] at hcheck ⊢
        exact refuse_of_check hcheck

/-- A listing that gets anywhere found the name it used. -/
theorem listFinds_of_ok (hW : s.conn.workingDirectory = some W)
    (h : listCommand server ans command s = (.ok status, s')) : ListFinds s W command := by
  intro hlog hdata path hpath hacc d hd
  unfold listCommand at h
  rw [conn_bind_apply, if_neg (by simp [hlog]), if_neg hdata, Option.mem_def.mp hpath] at h
  obtain ⟨failed, s₁, hcheck, -⟩ := bind_eq_ok h
  have hcheck' : checkListArgument server path s = _ := checkExists_bind_apply _ _ _
  rw [if_neg (by simp [hacc]), if_neg (by simp), checkDirectoryAccess_apply hW,
    Option.mem_def.mp hd] at hcheck'
  rw [hcheck'] at hcheck
  dsimp only at hcheck
  by_contra hdir
  rw [if_pos (by simpa using hdir)] at hcheck
  cases hcheck

theorem bodyOf_eq_some {word : CStr} : bodyOf word = some body ↔ body.word = word := by
  constructor
  · intro h
    have h' := List.find?_some h
    simpa using h'
  · rintro rfl
    cases body with
    | executeLsCommand => rfl
    | executeRetrCommand => rfl
    | executeStorCommand => rfl

/-- The tests of all three. -/
theorem transferCommand_tests (hW : s.conn.workingDirectory = some W)
    (hbody : bodyOf command.word = some body)
    (hfinds : body = .executeLsCommand → ListFinds s W command) :
    executeCommand server ans (some command) s =
      match transferTests server s W command body with
      | (some r, cwd) => refuse r (s.inDir cwd)
      | (none, cwd) => executeDataSocketCommand ans body command (s.inDir cwd) := by
  have hword := bodyOf_eq_some.mp hbody
  cases body with
  | executeLsCommand =>
    rw [executeCommand_of_mem (by rw [← hword]; exact List.mem_of_getElem? (i := 13) rfl)]
    exact listCommand_tests hW (hfinds rfl)
  | executeRetrCommand =>
    rw [executeCommand_of_mem (by rw [← hword]; exact List.mem_of_getElem? (i := 11) rfl)]
    exact retrCommand_tests hW
  | executeStorCommand =>
    rw [executeCommand_of_mem (by rw [← hword]; exact List.mem_of_getElem? (i := 12) rfl)]
    exact storCommand_tests

/-- A transfer begins with a data socket, for a client that is logged in. -/
theorem transferOf_eq_some (h : transferOf server s command = some body) :
    command.word = body.word ∧ s.conn.loggedIn = true ∧ ∃ d, s.conn.dataSocket = some d := by
  unfold transferOf at h
  obtain ⟨body', hbody, h⟩ := Option.bind_eq_some_iff.mp h
  obtain ⟨W, -, h⟩ := Option.bind_eq_some_iff.mp h
  split at h
  next htests =>
    obtain rfl := Option.some.inj h
    refine ⟨(bodyOf_eq_some.mp hbody).symm, ?_⟩
    unfold transferTests at htests
    split at htests
    next => cases htests
    next hlog =>
      split at htests
      next => cases htests
      next hdata => exact ⟨by simpa using hlog, Option.ne_none_iff_exists'.mp hdata⟩
  next => cases h

/-- The tests refuse a transfer with one of the refusals. -/
theorem transferTests_refuses {r : Reply}
    (h : (transferTests server s W command body).1 = some r) : r ∈ refusals := by
  unfold transferTests at h
  split at h
  next => cases h; decide
  next =>
    split at h
    next => cases h; decide
    next =>
      split at h
      next => cases h
      next =>
        split at h
        next => cases h; decide
        next =>
          split at h
          next => cases h; decide
          next =>
            dsimp only at h
            split at h
            next => cases h
            next => cases h; decide
      next =>
        split at h
        next => cases h; decide
        next =>
          dsimp only at h
          split at h
          next =>
            injection h with h
            subst h
            split
            next => decide
            next => decide
          next => cases h
      next =>
        dsimp only at h
        split at h
        next => cases h; decide
        next => cases h

/-- A transfer that gets no connection or no child is refused, too. -/
theorem transferReplies_refuse {connected fork : Bool} :
    ∀ r ∈ transferReplies connected fork, r ∈ refusals := by
  revert connected fork
  decide

/-- Every refusal of the tests is a final reply. -/
theorem transferTests_final {r : Reply} (h : (transferTests server s W command body).1 = some r) :
    r.isFinal = true := by
  have hall : ∀ r ∈ refusals, r.isFinal = true := by decide
  exact hall r (transferTests_refuses h)

/-! ## Getting through -/

/-- The connection of the client `id`, with `SIGPIPE` as the program leaves it: what
it prints reaches the client or ends the process. -/
structure Speaks (id : ConnId) (s : Ctx) : Prop where
  owns : Owns s.os.desc id s.conn
  sigpipe : s.os.signals .sigpipe = .default

/-- What was said went out to the client behind the control descriptor. -/
theorem Told.sent_to {l : List Reply} (h : Told s l s')
    (hctl : s.os.desc s.conn.clientSockfd = some (.control id))
    (hsig : s.os.signals .sigpipe = .default) :
    s'.out = s.out ++ l.map (id, ·) ∧ (l ≠ [] → s.os.hungup id = false) := by
  by_cases hl : l = []
  · refine ⟨?_, absurd hl⟩
    rw [h.out, hl]
    rfl
  · have hto := delivered hctl hsig (h.heard hl)
    refine ⟨?_, fun _ => (hto .noopOk).2⟩
    rw [h.out, List.map_eq_flatMap]
    exact congrArg (s.out ++ ·) (List.flatMap_congr fun r _ => (hto r).1)

theorem Told.sent {l : List Reply} (h : Told s l s') (hs : Speaks id s) :
    s'.out = s.out ++ l.map (id, ·) ∧ (l ≠ [] → s.os.hungup id = false) :=
  h.sent_to hs.owns.control hs.sigpipe

theorem Speaks.inDir (h : Speaks id s) (d : Path) : Speaks id (s.inDir d) := ⟨h.owns, h.sigpipe⟩

/-- A free descriptor is not the one the client is on. -/
theorem Speaks.control_withDesc (h : Speaks id s) {fd : Fd} (hfree : s.os.desc fd = none)
    (x : Option Desc) : (s.withDesc fd x).os.desc s.conn.clientSockfd = some (.control id) := by
  have hne : s.conn.clientSockfd ≠ fd := by
    intro he
    rw [← he, h.owns.control] at hfree
    cases hfree
  rw [Ctx.withDesc_desc, Function.update_of_ne hne, h.owns.control]

/-- Getting past a reply that reaches the client. -/
theorem reply_delivered {α : Type} {s₁ : Ctx} {r : Reply} {k : Unit → M α} {a : α}
    (hctl : s₁.os.desc s₁.conn.clientSockfd = some (.control id))
    (hsig : s₁.os.signals .sigpipe = .default) (h : (reply r >>= k) s₁ = (.ok a, s')) :
    s₁.os.hungup id = false ∧ k () { s₁ with out := s₁.out ++ [(id, r)] } = (.ok a, s') := by
  rw [reply_bind_apply, dprintf_bind_apply] at h
  split at h
  next => cases h
  next hk =>
    have hto := delivered hctl hsig (Bool.eq_false_iff.mpr hk) r
    rw [hto.1] at h
    exact ⟨hto.2, h⟩

/-- Storing what was created and saying one thing about it. -/
theorem setDataSocket_answer {s₁ : Ctx} {created : Option DataSocket} {r : Reply}
    {status₁ : CommandStatus} (hctl : s₁.os.desc s₁.conn.clientSockfd = some (.control id))
    (hsig : s₁.os.signals .sigpipe = .default)
    (h : (do setDataSocket created; reply r; return status₁ : M CommandStatus) s₁ =
      (.ok status, s')) :
    status = status₁ ∧ s₁.os.hungup id = false ∧
      s' = { s₁ with conn := { s₁.conn with dataSocket := created }, out :=
        s₁.out ++ [(id, r)] } := by
  unfold setDataSocket at h
  rw [modifyConn_bind_apply] at h
  obtain ⟨hup, h⟩ := reply_delivered (by exact hctl) (by exact hsig) h
  cases h
  exact ⟨rfl, hup, rfl⟩

/-- `PASV`, of a client that is logged in. -/
theorem createPassive_setsUp (hs : Speaks id s) (hword : command.word = lit "PASV")
    (h : createPassiveDataSocket ans s = (.ok status, s')) :
    status ≠ .quit ∧ s.os.hungup id = false ∧ SetsUp ans id command s s' := by
  unfold createPassiveDataSocket at h
  have hsetup := setupPassiveDataSocket_apply ans s
  cases hsocket : ans.socket with
  | none =>
    rw [hsocket] at hsetup
    rw [bind_of_ok hsetup] at h
    obtain ⟨rfl, hup, rfl⟩ := setDataSocket_answer hs.owns.control hs.sigpipe h
    exact ⟨by simp, hup, .noSocket hsocket⟩
  | some fd =>
    rw [hsocket] at hsetup
    dsimp only at hsetup
    by_cases hfree : s.os.desc fd = none
    · rw [if_pos hfree] at hsetup
      by_cases hdeaf : ans.bind = false ∨ ans.listen = false
      · rw [if_pos hdeaf] at hsetup
        rw [bind_of_ok hsetup] at h
        obtain ⟨rfl, hup, rfl⟩ :=
          setDataSocket_answer (hs.control_withDesc hfree _) hs.sigpipe h
        exact ⟨by simp, hup, .deaf fd hsocket hfree hword hdeaf⟩
      · rw [if_neg hdeaf] at hsetup
        rw [bind_of_ok hsetup] at h
        have hports : splitPort (passiveSocket ans fd).port = some _ := splitPort_port ans.port
        dsimp only at h
        rw [hports, deref_some] at h
        obtain ⟨rfl, hup, rfl⟩ :=
          setDataSocket_answer (hs.control_withDesc hfree _) hs.sigpipe h
        refine ⟨by simp, hup, .offered fd _ _ _ hsocket hfree (if_pos hword) fun _ => ?_⟩
        rw [not_or] at hdeaf
        exact ⟨by simpa using hdeaf.1, by simpa using hdeaf.2⟩
    · rw [if_neg hfree] at hsetup
      rw [bind_of_error hsetup] at h
      cases h

/-- `PORT` with a well-formed argument, of a client that is logged in. -/
theorem createActive_setsUp (hs : Speaks id s) (hword : command.word = lit "PORT")
    (hargc : command.argc = 1) {arg : CStr} (harg : command.argv.head? = some arg)
    {hostPort : List Int} (hparse : parseHostPortValues arg = some hostPort)
    (h : createActiveDataSocket ans arg s = (.ok status, s')) :
    status ≠ .quit ∧ s.os.hungup id = false ∧ SetsUp ans id command s s' := by
  have hne : command.word ≠ lit "PASV" := by
    rw [hword]
    decide
  unfold createActiveDataSocket at h
  rw [hparse] at h
  dsimp only at h
  have hsetup := setupActiveDataSocket_apply ans hostPort s
  cases hsocket : ans.socket with
  | none =>
    rw [hsocket] at hsetup
    rw [bind_of_ok hsetup] at h
    obtain ⟨rfl, hup, rfl⟩ := setDataSocket_answer hs.owns.control hs.sigpipe h
    exact ⟨by simp, hup, .noSocket hsocket⟩
  | some fd =>
    rw [hsocket] at hsetup
    dsimp only at hsetup
    by_cases hfree : s.os.desc fd = none
    · rw [if_pos hfree] at hsetup
      rw [bind_of_ok hsetup] at h
      obtain ⟨rfl, hup, rfl⟩ := setDataSocket_answer (hs.control_withDesc hfree _) hs.sigpipe h
      refine ⟨by simp, hup, .offered fd _ _ _ hsocket hfree ?_ fun hw => absurd hw hne⟩
      unfold offer
      rw [if_neg hne, if_pos ⟨hword, hargc⟩, harg, Option.bind_some, hparse]
      rfl
    · rw [if_neg hfree] at hsetup
      rw [bind_of_error hsetup] at h
      cases h

/-! ## A transfer -/

theorem establish_reaches {s₁ : Ctx} {d : DataSocket} {connected : Bool}
    (hd : s.conn.dataSocket = some d)
    (h : establishDataSocketConnection ans s = (.ok connected, s₁)) :
    ∃ d₁ desc₁, Reached ans s.os.desc d connected d₁ desc₁ ∧
      s₁ = s.withData desc₁ (some d₁) := by
  unfold establishDataSocketConnection at h
  rw [conn_bind_apply, hd, deref_some, pure_bind_apply] at h
  cases hmode : d.dataSocketMode with
  | active =>
    rw [hmode] at h
    cases h
    refine ⟨d, s.os.desc, .active hmode, ?_⟩
    rw [← hd]
    rfl
  | passive =>
    rw [hmode] at h
    dsimp only at h
    rcases acceptData_cases ans d.dataSockfd s with hacc | ⟨hacc, -⟩ |
      ⟨l, pending, newFd, peer, hl, hpending, haccept, ⟨-, hacc⟩ | ⟨hfree, hacc⟩⟩
    · rw [acceptConnection_of_none hacc] at h
      cases h
      exact ⟨_, _, .refused hmode, rfl⟩
    · rw [acceptConnection, bind_of_error hacc] at h
      cases h
    · rw [acceptConnection, bind_of_error hacc] at h
      cases h
    · rw [acceptConnection_of_some hacc] at h
      cases h
      exact ⟨_, _, .accepted l newFd pending peer hmode hl hpending hfree haccept, rfl⟩

/-- Connecting does not touch an open descriptor other than the one that
listens. -/
theorem Reached.desc_of_open {desc desc₁ : DescTable} {d d₁ : DataSocket} {connected : Bool}
    (h : Reached ans desc d connected d₁ desc₁) {fd : Fd} (hopen : desc fd ≠ none)
    (hfd : d.dataSockfd ≠ some fd) : desc₁ fd = desc fd := by
  cases h with
  | active => rfl
  | refused => rfl
  | accepted l newFd pending peer hmode hl hpending hfree haccept =>
    have hne : fd ≠ newFd := by
      rintro rfl
      exact hopen hfree
    have hnel : fd ≠ l := by
      rintro rfl
      exact hfd hl
    rw [Function.update_of_ne hne, Function.update_of_ne hnel]

/-- Nor does it touch the control descriptor: that one does not listen. -/
theorem Reached.desc_of_control {d d₁ : DataSocket} {desc₁ : DescTable} {connected : Bool}
    (h : Reached ans s.os.desc d connected d₁ desc₁) (hs : Speaks id s)
    (hd : s.conn.dataSocket = some d) :
    desc₁ s.conn.clientSockfd = s.os.desc s.conn.clientSockfd := by
  refine h.desc_of_open (by rw [hs.owns.control]; simp) fun hl => ?_
  obtain ⟨n, hn⟩ := hs.owns.listens d _ hd hl
  rw [hs.owns.control] at hn
  cases hn

/-- The last lines of a transfer. -/
theorem giveUp_apply {d : DataSocket} {s₁ : Ctx} (hd : s₁.conn.dataSocket = some d)
    (status₁ : CommandStatus) :
    (do let c ← conn
        destroyDataSocket c.dataSocket
        setDataSocket none
        return status₁ : M CommandStatus) s₁ =
      (.ok status₁, s₁.withData (d.destroyed s₁.os.desc) none) := by
  rw [conn_bind_apply, hd]
  unfold destroyDataSocket DataSocket.destroyed
  rw [Option.bind_some]
  cases d.clientSockfd with
  | none => rfl
  | some fd => rfl

/-- A transfer tries to connect, then to fork; the data socket is given up. -/
theorem transfer_outcome (hs : Speaks id s) {d : DataSocket} (hd : s.conn.dataSocket = some d)
    (h : executeDataSocketCommand ans body command s = (.ok status, s')) :
    status ≠ .quit ∧ ∃ connected d₁ desc₁, Reached ans s.os.desc d connected d₁ desc₁ ∧
      (transferReplies connected ans.fork ≠ [] → s.os.hungup id = false) ∧
      s' = s.transferred id ans body command connected d₁ desc₁ := by
  unfold executeDataSocketCommand at h
  obtain ⟨connected, s₁, hest, h⟩ := bind_eq_ok h
  obtain ⟨d₁, desc₁, hreach, rfl⟩ := establish_reaches hd hest
  have hctl : (s.withData desc₁ (some d₁)).os.desc s.conn.clientSockfd = some (.control id) :=
    (hreach.desc_of_control hs hd).trans hs.owns.control
  have hsig : (s.withData desc₁ (some d₁)).os.signals .sigpipe = .default := hs.sigpipe
  cases connected with
  | false =>
    rw [if_pos rfl] at h
    obtain ⟨hup, h⟩ := reply_delivered hctl hsig h
    rw [giveUp_apply (d := d₁) rfl] at h
    cases h
    refine ⟨by simp, false, d₁, desc₁, hreach, fun _ => hup, ?_⟩
    simp [Ctx.transferred, transferReplies, transferChildren, Ctx.withData]
  | true =>
    rw [if_neg (by simp)] at h
    obtain ⟨forked, s₂, hfork, h⟩ := bind_eq_ok h
    rw [forkExecution_apply] at hfork
    cases hf : ans.fork with
    | true =>
      rw [hf, if_pos rfl] at hfork
      cases hfork
      rw [if_neg (by simp)] at h
      dsimp only at h
      rw [giveUp_apply (d := d₁) rfl] at h
      cases h
      refine ⟨by simp, true, d₁, desc₁, hreach, fun hne => absurd rfl hne, ?_⟩
      simp [Ctx.transferred, transferReplies, transferChildren, hf, Ctx.withData]
    | false =>
      rw [hf, if_neg (by simp)] at hfork
      cases hfork
      rw [if_pos rfl] at h
      obtain ⟨hup, h⟩ := reply_delivered hctl hsig h
      dsimp only at h
      rw [giveUp_apply (d := d₁) rfl] at h
      cases h
      refine ⟨by simp, true, d₁, desc₁, hreach, fun _ => hup, ?_⟩
      simp [Ctx.transferred, transferReplies, transferChildren, hf, Ctx.withData]

/-! ## A line -/

/-- The five courses of a line of the client `id`. -/
inductive Outcome (server : ServerT) (ans : Answers) (id : ConnId) (parsed : Option Command)
    (status : CommandStatus) (s s' : Ctx) : Prop
  | answered (l : List Reply) (hstatus : status ≠ .quit) (hfinal : OneFinal l) (htold : Told s l s')
      (hword : ∀ command, parsed = some command →
        command.word ≠ lit "PASV" ∧ command.word ≠ lit "PORT" ∧ transferOf server s command = none)
  | quit (command : Command) (hparsed : parsed = some command) (hword : command.word = lit "QUIT")
      (hstatus : status = .quit) (hs : s' = s)
  | declined (command : Command) (r : Reply) (hparsed : parsed = some command)
      (hword : command.word = lit "PASV" ∨ command.word = lit "PORT") (hstatus : status ≠ .quit)
      (hr : r = .pleaseLogin ∨ r = .illegalPort) (htold : Told s [r] s')
      (hoffer : s.conn.loggedIn = true → ∀ fd, offer ans command fd = none)
  | setUp (command : Command) (hparsed : parsed = some command)
      (hword : command.word = lit "PASV" ∨ command.word = lit "PORT") (hstatus : status ≠ .quit)
      (hlog : s.conn.loggedIn = true) (hoffer : ∀ fd, offer ans command fd ≠ none)
      (hup : s.os.hungup id = false) (hset : SetsUp ans id command s s')
  | transfer (command : Command) (body : TransferBody) (cwd : Path)
    (hparsed : parsed = some command)
      (hbody : transferOf server s command = some body)
      (hrun : executeDataSocketCommand ans body command (s.inDir cwd) = (.ok status, s'))

/-- A word that is no transfer's begins none. -/
theorem transferOf_of_word (h : bodyOf command.word = none) :
    transferOf server s command = none := by
  unfold transferOf
  rw [h]
  rfl

theorem Told.from {l : List Reply} {d : Path} (h : Told (s.inDir d) l s') : Told s l s' :=
  ⟨⟨h.desc, h.signals, h.hungup, h.control, h.dataSocket, h.forked⟩, h.out, h.heard⟩

/-- `PASV`, whoever asks. -/
theorem pasv_outcome (hs : Speaks id s) (hword : command.word = lit "PASV")
    (h : pasvCommand ans s = (.ok status, s')) :
    Outcome server ans id (some command) status s s' := by
  unfold pasvCommand at h
  rw [conn_bind_apply] at h
  by_cases hlog : s.conn.loggedIn = false
  · rw [if_pos hlog] at h
    obtain ⟨l, rfl, htold⟩ := told_refuse _ s status s' h
    refine .declined command .pleaseLogin rfl (.inl hword) (by rw [(refuse_eq_ok h).1]; simp)
      (.inl rfl) htold fun hlog' => ?_
    rw [hlog] at hlog'
    cases hlog'
  · rw [if_neg hlog] at h
    obtain ⟨hstatus, hup, hset⟩ := createPassive_setsUp hs hword h
    refine .setUp command rfl (.inl hword) hstatus (by simpa using hlog) (fun fd => ?_) hup hset
    unfold offer
    rw [if_pos hword]
    simp

/-- `PORT`. -/
theorem port_outcome (hs : Speaks id s) (hword : command.word = lit "PORT")
    (h : portCommand ans command s = (.ok status, s')) :
    Outcome server ans id (some command) status s s' := by
  have hne : command.word ≠ lit "PASV" := by
    rw [hword]
    decide
  have hdecline : ∀ {r : Reply}, (r = .pleaseLogin ∨ r = .illegalPort) →
      (s.conn.loggedIn = true → ∀ fd, offer ans command fd = none) →
      refuse r s = (.ok status, s') → Outcome server ans id (some command) status s s' := by
    intro r hr hoffer h
    obtain ⟨l, rfl, htold⟩ := told_refuse _ s status s' h
    exact .declined command r rfl (.inr hword) (by rw [(refuse_eq_ok h).1]; simp) hr htold hoffer
  unfold portCommand at h
  rw [conn_bind_apply] at h
  by_cases hlog : s.conn.loggedIn = false
  · rw [if_pos hlog] at h
    refine hdecline (.inl rfl) (fun hlog' => ?_) h
    rw [hlog] at hlog'
    cases hlog'
  rw [if_neg hlog] at h
  by_cases hargc : command.argc = 1
  · rw [if_neg (not_not.mpr hargc)] at h
    obtain ⟨arg, harg⟩ := head?_of_argc hargc
    rw [harg, deref_some, pure_bind_apply] at h
    cases hparse : parseHostPortValues arg with
    | none =>
      unfold createActiveDataSocket at h
      rw [hparse] at h
      refine hdecline (.inr rfl) (fun _ fd => ?_) h
      unfold offer
      rw [if_neg hne, if_pos ⟨hword, hargc⟩, harg, Option.bind_some, hparse]
      rfl
    | some hostPort =>
      obtain ⟨hstatus, hup, hset⟩ := createActive_setsUp hs hword hargc harg hparse h
      refine .setUp command rfl (.inr hword) hstatus (by simpa using hlog) (fun fd => ?_) hup hset
      unfold offer
      rw [if_neg hne, if_pos ⟨hword, hargc⟩, harg, Option.bind_some, hparse]
      simp
  · rw [if_pos hargc] at h
    refine hdecline (.inr rfl) (fun _ fd => ?_) h
    unfold offer
    rw [if_neg hne, if_neg fun h => hargc h.2]

/-- `RETR`, `STOR` and `LIST`. -/
theorem transferCommand_outcome (hW : s.conn.workingDirectory = some W)
    (hbody : bodyOf command.word = some body)
    (h : executeCommand server ans (some command) s = (.ok status, s')) :
    Outcome server ans id (some command) status s s' := by
  have hword := bodyOf_eq_some.mp hbody
  have hfinds : body = .executeLsCommand → ListFinds s W command := by
    rintro rfl
    rw [executeCommand_of_mem (by rw [← hword]; exact List.mem_of_getElem? (i := 13) rfl)] at h
    exact listFinds_of_ok hW h
  rw [transferCommand_tests hW hbody hfinds] at h
  have hof : transferOf server s command =
      if (transferTests server s W command body).1 = none then some body else none := by
    unfold transferOf
    rw [hbody, Option.bind_some, hW, Option.bind_some]
  match htests : transferTests server s W command body with
  | (some r, cwd) =>
    rw [htests] at h hof
    obtain ⟨l, rfl, htold⟩ := told_refuse _ _ status s' h
    refine .answered [r] (by rw [(refuse_eq_ok h).1]; simp)
      (oneFinal_singleton (transferTests_final (by rw [htests]))) htold.from ?_
    rintro command' ⟨rfl⟩
    refine ⟨?_, ?_, hof⟩
    · rw [← hword]
      cases body <;> decide
    · rw [← hword]
      cases body <;> decide
  | (none, cwd) =>
    rw [htests] at h hof
    exact .transfer command body cwd rfl hof h

/-- A line takes one of the five courses. -/
theorem executeCommand_outcome {parsed : Option Command} (hs : Speaks id s)
    (hW : s.conn.workingDirectory = some W)
    (h : executeCommand server ans parsed s = (.ok status, s')) :
    Outcome server ans id parsed status s s' := by
  have hunknown : parsed = none ∨ (∃ command, parsed = some command ∧
      getCommandHandler command = none) → Outcome server ans id parsed status s s' := by
    intro hnone
    have h' : executeCommand server ans none s = (.ok status, s') := by
      rcases hnone with rfl | ⟨command, rfl, hh⟩
      · exact h
      · rwa [executeCommand_of_none hh] at h
    obtain ⟨l, hl, htold⟩ := answered_unknown server ans s status s' h'
    refine .answered l hl.1 hl.2 htold ?_
    rintro command rfl
    obtain hc | ⟨command', hc, hh⟩ := hnone
    · cases hc
    obtain rfl := Option.some.inj hc
    have hname : ∀ {name : CStr} {handler : Handler}, (name, handler) ∈ commandHandlers →
        command.word ≠ name := by
      rintro name handler hmem rfl
      rw [getCommandHandler_of_mem hmem] at hh
      cases hh
    refine ⟨hname (List.mem_of_getElem? (i := 7) rfl), hname (List.mem_of_getElem? (i := 8) rfl),
      transferOf_of_word ?_⟩
    cases hbody : bodyOf command.word with
    | none => rfl
    | some body =>
      have hword := bodyOf_eq_some.mp hbody
      cases body with
      | executeLsCommand => exact absurd hword.symm (hname (List.mem_of_getElem? (i := 13) rfl))
      | executeRetrCommand => exact absurd hword.symm (hname (List.mem_of_getElem? (i := 11) rfl))
      | executeStorCommand => exact absurd hword.symm (hname (List.mem_of_getElem? (i := 12) rfl))
  cases parsed with
  | none => exact hunknown (.inl rfl)
  | some command =>
    cases hh : getCommandHandler command with
    | none => exact hunknown (.inr ⟨command, rfl, hh⟩)
    | some handler =>
      have hmem := getCommandHandler_mem hh
      by_cases hpasv : command.word = lit "PASV"
      · rw [executeCommand_of_mem (by rw [hpasv]; exact List.mem_of_getElem? (i := 7) rfl)] at h
        exact pasv_outcome hs hpasv h
      by_cases hport : command.word = lit "PORT"
      · rw [executeCommand_of_mem (by rw [hport]; exact List.mem_of_getElem? (i := 8) rfl)] at h
        exact port_outcome hs hport h
      cases hbody : bodyOf command.word with
      | some body => exact transferCommand_outcome hW hbody h
      | none =>
        have hnot : command.word ∉ dataNames := by
          intro hmem
          have hne : ∀ body : TransferBody, command.word ≠ body.word := by
            intro body hw
            rw [bodyOf_eq_some.mpr hw.symm] at hbody
            cases hbody
          simp only [dataNames, List.mem_cons, List.not_mem_nil, or_false] at hmem
          rcases hmem with hw | hw | hw | hw | hw
          · exact hpasv hw
          · exact hport hw
          · exact hne .executeRetrCommand hw
          · exact hne .executeStorCommand hw
          · exact hne .executeLsCommand hw
        rw [executeCommand_of_mem hmem] at h
        obtain ⟨l, hl | ⟨rfl, rfl, hquit⟩, htold⟩ :=
          answered_handler hmem hnot server ans command s status s' h
        · refine .answered l hl.1 hl.2 htold ?_
          rintro command' ⟨rfl⟩
          exact ⟨hpasv, hport, transferOf_of_word hbody⟩
        · have hx : executeCommand server ans (some command) s = (.ok .quit, s') := by
            rwa [executeCommand_of_mem hmem]
          exact .quit command rfl hquit rfl (executeCommand_quit hx).1

end

/-- What the parent says in the course of a line goes to the line's client. It is one
final reply, unless a child is there to say it. -/
theorem Outcome.said {server : ServerT} {ans : Answers} {id : ConnId} {parsed : Option Command}
    {status : CommandStatus} {s s' : Ctx} (h : Outcome server ans id parsed status s s')
    (hs : Speaks id s) (hquit : status ≠ .quit) :
    ∃ l, s'.out = s.out ++ l.map (id, ·) ∧
      ((OneFinal l ∧ s'.forked = s.forked) ∨
        ∃ command body cwd d d₁ desc₁, parsed = some command ∧
          transferOf server s command = some body ∧ l = [] ∧ s.conn.dataSocket = some d ∧
            Reached ans s.os.desc d true d₁ desc₁ ∧ ans.fork = true ∧
              s' = (s.inDir cwd).transferred id ans body command true d₁ desc₁) := by
  cases h with
  | answered l hstatus hfinal htold hword =>
    exact ⟨l, (htold.sent hs).1, .inl ⟨hfinal, htold.forked⟩⟩
  | quit command hparsed hword hstatus hs' => exact absurd hstatus hquit
  | declined command r hparsed hword hstatus hr htold hoffer =>
    refine ⟨[r], (htold.sent hs).1, .inl ⟨oneFinal_singleton ?_, htold.forked⟩⟩
    rcases hr with rfl | rfl <;> rfl
  | setUp command hparsed hword hstatus hlog hoffer hup hset =>
    cases hset with
    | offered fd d x r hsocket hfree hof hlisten =>
      refine ⟨[r], rfl, .inl ⟨oneFinal_singleton ?_, rfl⟩⟩
      unfold offer at hof
      split at hof
      next =>
        cases hof
        rfl
      next =>
        split at hof
        next =>
          obtain ⟨hostPort, -, hof⟩ := Option.map_eq_some_iff.mp hof
          cases hof
          rfl
        next => cases hof
    | noSocket => exact ⟨[.localError], rfl, .inl ⟨oneFinal_singleton rfl, rfl⟩⟩
    | deaf => exact ⟨[.localError], rfl, .inl ⟨oneFinal_singleton rfl, rfl⟩⟩
  | transfer command body cwd hparsed hbody hrun =>
    obtain ⟨-, -, d, hd⟩ := transferOf_eq_some hbody
    obtain ⟨hstatus, connected, d₁, desc₁, hreach, -, rfl⟩ :=
      transfer_outcome (hs.inDir cwd) hd hrun
    refine ⟨transferReplies connected ans.fork, rfl, ?_⟩
    cases connected with
    | false => exact .inl ⟨oneFinal_singleton rfl, List.append_nil _⟩
    | true =>
      cases hfork : ans.fork with
      | false =>
        refine .inl ⟨oneFinal_singleton rfl, ?_⟩
        simp [Ctx.transferred, transferChildren, hfork]
      | true =>
        exact .inr ⟨command, body, cwd, d, d₁, desc₁, hparsed, hbody, rfl, hd, hreach, rfl, rfl⟩

/-- The state after a line of the client `id`, from what the line left. -/
def Sessions.after (S : Sessions) (id : ConnId) (c : Connection) (status : CommandStatus)
    (s : Ctx) :
    Sessions :=
  S.handled id (if status = .quit then (false, c, S.world.merge id (Ctx.start S.world.os c).goodbye)
    else (true, s.conn, S.world.merge id s))

/-- The state a line leaves that is not `QUIT`. -/
theorem after_of_ne {S : Sessions} {id : ConnId} {c : Connection} {status : CommandStatus} {s : Ctx}
    (h : status ≠ .quit) : S.after id c status s =
      S.handled id (true, s.conn, S.world.merge id s) := by
  unfold Sessions.after
  rw [if_neg h]

/-- The state `QUIT` leaves. -/
theorem after_of_quit {S : Sessions} {id : ConnId} {c : Connection} {s : Ctx} :
    S.after id c .quit s =
      S.handled id (false, c, S.world.merge id (Ctx.start S.world.os c).goodbye) := rfl

/-- In a reachable state the client has what its handler takes for granted. -/
theorem speaks_of_run {u : Setup} {events : List SessionEvent} {S : Sessions}
    (h : (sessions u).run events = .ok S) {id : ConnId} {c : Connection}
      (hc : S.conns id = some c) :
    Speaks id (Ctx.start S.world.os c) ∧ ∃ W, c.workingDirectory = some W := by
  have hS := sound_of_run h
  obtain ⟨W, hW, -⟩ := (placed_of_run h).conns id c hc
  exact ⟨⟨hS.owns id c hc, hS.sigpipe⟩, W, hW⟩

/-- What a line came to, in a reachable state. -/
theorem line_outcome {u : Setup} {events : List SessionEvent} {S S' : Sessions} {id : ConnId}
    {line : CStr} {ans : Answers} (hrun : (sessions u).run events = .ok S)
    (h : S.step u.server (.line id line ans) = .ok S') :
    ∃ c status s, S.conns id = some c ∧ parseBuffer line = .ok (commandOf line) ∧
      Outcome u.server ans id (commandOf line) status (Ctx.start S.world.os c) s ∧
      S' = S.after id c status s := by
  obtain ⟨c, parsed, hc, hparse, ⟨status, s, hx, hquit, rfl⟩ | ⟨command, rfl, hword, rfl⟩⟩ :=
    handleLine_eq_ok h
  · obtain ⟨hspeaks, W, hW⟩ := speaks_of_run hrun hc
    rw [commandOf_of_parse hparse]
    refine ⟨c, status, s, hc, hparse, executeCommand_outcome hspeaks hW hx, ?_⟩
    unfold Sessions.after
    rw [if_neg hquit]
  · rw [commandOf_of_parse hparse]
    exact ⟨c, .quit, _, hc, hparse, .quit command rfl hword rfl rfl, rfl⟩

/-- A child of a step was there before, or is the one a transfer of its client forked. -/
theorem child_cases {u : Setup} {events : List SessionEvent} {S S' : Sessions} {e : SessionEvent}
    (hrun : (sessions u).run events = .ok S) (h : S.step u.server e = .ok S') {id : ConnId}
    {child : Child} (hmem : (id, child) ∈ S'.world.children) :
    (id, child) ∈ S.world.children ∨
      ∃ line ans c command body cwd d d₁ desc₁, e = .line id line ans ∧ S.conns id = some c ∧
        commandOf line = some command ∧
        transferOf u.server (Ctx.start S.world.os c) command = some body ∧
        c.dataSocket = some d ∧ Reached ans S.world.os.desc d true d₁ desc₁ ∧
        child = ⟨body, command, { c with dataSocket := some d₁ }, cwd, desc₁⟩ := by
  cases e with
  | accept fd addr served =>
    obtain ⟨⟨c, w⟩, hacc, rfl⟩ := map_eq_ok h
    obtain ⟨-, -, rfl⟩ := World.accept_eq_ok hacc
    exact .inl hmem
  | line id' line ans =>
    obtain ⟨c, status, s, hc, -, hout, rfl⟩ := line_outcome hrun h
    by_cases hquit : status = .quit
    · rw [hquit, after_of_quit] at hmem
      refine .inl ?_
      simpa [Sessions.handled, World.merge, Ctx.goodbye, Ctx.start] using hmem
    rw [after_of_ne hquit] at hmem
    obtain ⟨l, -, ⟨-, hforked⟩ | ⟨command, body, cwd, d, d₁, desc₁, hcommand, hbody, -, hd, hreach,
      hfork, rfl⟩⟩ := hout.said (speaks_of_run hrun hc).1 hquit
    · refine .inl ?_
      simpa [Sessions.handled, World.merge, hforked, Ctx.start] using hmem
    · rcases List.mem_append.mp hmem with hold | hnew
      · exact .inl hold
      · have hchild : id = id' ∧
            child = ⟨body, command, { c with dataSocket := some d₁ }, cwd, desc₁⟩ := by
          simpa [Ctx.transferred, transferChildren, hfork, Ctx.start] using hnew
        obtain ⟨rfl, hchild⟩ := hchild
        exact .inr ⟨line, ans, c, command, body, cwd, d, d₁, desc₁, rfl, hc, hcommand, hbody, hd,
          hreach, hchild⟩
  | child k cans =>
    obtain ⟨w, hw, rfl⟩ := map_eq_ok h
    obtain ⟨id', child', s, hk, -, rfl⟩ := World.runChild_eq_ok hw
    exact .inl (List.mem_of_mem_eraseIdx hmem)
  | hangup id' =>
    cases h
    exact .inl hmem
  | dataConnect fd =>
    obtain ⟨w, hw, rfl⟩ := map_eq_ok h
    obtain ⟨pending, -, rfl⟩ := World.dataConnect_eq_ok hw
    exact .inl hmem

end MyFtp.Server
