import Mathlib.Logic.Function.Basic
import MyFtp.Prog.Basic
import MyFtp.Posix.Resolve
import MyFtp.Server.Types

/-!
# The operating system, as a handler sees it

While a line is handled the program works on a `Ctx`: the state the operating
system keeps for the process (`Os`), the connection record, and what has been
written or forked since the line was read. `M` is the language the handlers are
translated into.

The answers of the system calls whose outcome the program does not control are
collected in `Answers`; a descriptor number offered by the system must be free.
Memory allocation succeeds.

A write to a control connection whose peer is gone raises `SIGPIPE`. Nothing
but a disposition other than the default keeps the process alive then.
-/

namespace MyFtp.Server

open MyFtp.Posix

/-- Why the program does not get to its next statement. -/
inductive Halt
  /-- An unset value or a null pointer is used. -/
  | undefined
  /-- A blocking call has nothing to return yet. -/
  | blocked
  /-- The process is terminated by `SIGPIPE`. -/
  | sigpipe
  /-- Not a possible course of events. -/
  | disabled
  deriving DecidableEq

inductive Signal
  | sigint
  | sigterm
  | sigpipe
  deriving DecidableEq

inductive Disposition
  | default
  | ignore
  | handler
  deriving DecidableEq

/-- What an open descriptor stands for. -/
inductive Desc
  /-- The socket clients connect to. -/
  | server
  /-- A control connection. -/
  | control (id : ConnId)
  /-- A data socket being set up, or a data connection. -/
  | socket
  /-- A listening data socket, with the number of connections waiting on it. -/
  | listener (pending : Nat)
  deriving DecidableEq

/-- The descriptor table of a process. -/
abbrev DescTable := Fd → Option Desc

/-- What the operating system keeps for the server process: the file tree, the
current directory, the open descriptors, the signal dispositions, and which
control connections were closed or reset by their client. -/
structure Os where
  tree : FileTree
  cwd : Path
  desc : DescTable
  signals : Signal → Disposition
  hungup : ConnId → Bool

/-- What is written on a data connection: bytes, or the output of `ls -l` run
in a directory. -/
inductive DataItem
  | bytes (l : List Byte)
  | listing (dir : Path) (tree : FileTree)
  deriving DecidableEq

/-- The three functions that run in a forked child. -/
inductive TransferBody
  | executeLsCommand
  | executeRetrCommand
  | executeStorCommand
  deriving DecidableEq

/-- A forked child: what it runs, and the copies it got of the connection, the
command, the current directory and the descriptors. -/
structure Child where
  body : TransferBody
  command : Command
  connection : Connection
  cwd : Path
  desc : DescTable

/-- The state a handler works on. `out`, `data` and `forked` start empty with
each line. -/
structure Ctx where
  os : Os
  conn : Connection
  out : List (ConnId × Reply)
  data : List DataItem
  forked : List Child

/-- The state in which the handling of a line starts. -/
def Ctx.start (os : Os) (conn : Connection) : Ctx := ⟨os, conn, [], [], []⟩

/-- The language of the handlers. -/
abbrev M := Prog Ctx Halt

/-- The outcomes of the system calls made for one line in the server process.
`none` and `false` are failures. -/
structure Answers where
  socket : Option Fd
  bind : Bool
  listen : Bool
  port : UInt16
  accept : Option (Fd × SockAddr)
  connect : Bool
  fork : Bool

/-- Nothing fails. A new socket gets the number `fd`, an accepted data
connection the next one. -/
def Answers.fine (fd : Fd) : Answers :=
  { socket := some fd, bind := true, listen := true, port := 4242
    accept := some (fd + 1, ⟨inaddrLoopback, 5000⟩), connect := true, fork := true }

/-! ## Reading and changing the context -/

/-- Read the connection record. -/
def conn : M Connection := Prog.gets Ctx.conn

/-- Change the connection record. -/
def modifyConn (f : Connection → Connection) : M Unit :=
  Prog.modify fun s => { s with conn := f s.conn }

/-- Use a pointer: undefined behaviour when it is null. -/
def deref {α : Type} : Option α → M α
  | some a => pure a
  | none => Prog.fail .undefined

/-! ## System calls -/

/-- `dprintf` on a control connection. -/
def dprintf (fd : Fd) (r : Reply) : M Unit := fun s =>
  match s.os.desc fd with
  | some (.control id) =>
    if s.os.hungup id then
      if s.os.signals .sigpipe = .default then (.error .sigpipe, s) else (.ok (), s)
    else (.ok (), { s with out := s.out ++ [(id, r)] })
  | _ => (.ok (), s)

/-- Writing to the descriptor raises a `SIGPIPE` that nothing catches. -/
def Os.kills (os : Os) (fd : Fd) : Bool :=
  match os.desc fd with
  | some (.control id) => os.hungup id && os.signals .sigpipe == .default
  | _ => false

/-- Who gets a reply written to the descriptor. -/
def Os.delivers (os : Os) (fd : Fd) (r : Reply) : List (ConnId × Reply) :=
  match os.desc fd with
  | some (.control id) => if os.hungup id then [] else [(id, r)]
  | _ => []

section

variable {os : Os} {fd : Fd} {id : ConnId} {r : Reply}

theorem kills_eq (h : os.desc fd = some (.control id)) :
    os.kills fd = (os.hungup id && os.signals .sigpipe == .default) := by
  rw [Os.kills, h]

theorem delivers_control (h : os.desc fd = some (.control id)) (r : Reply) :
    os.delivers fd r = if os.hungup id then [] else [(id, r)] := by
  rw [Os.delivers, h]

/-- Printing to a client that is there does not end the process. -/
theorem kills_of_control (hctl : os.desc fd = some (.control id)) (hup : os.hungup id = false) :
    os.kills fd = false := by
  rw [kills_eq hctl, hup]
  rfl

/-- A reply to a client that is there reaches it. -/
theorem delivers_of_control (hctl : os.desc fd = some (.control id)) (hup : os.hungup id = false)
    (r : Reply) : os.delivers fd r = [(id, r)] := by
  rw [delivers_control hctl, hup]
  rfl

/-- A reply that does not end the process reaches the client. -/
theorem delivered (hctl : os.desc fd = some (.control id)) (hsig : os.signals .sigpipe = .default)
    (hk : os.kills fd = false) (r : Reply) :
    os.delivers fd r = [(id, r)] ∧ os.hungup id = false := by
  have hup : os.hungup id = false := by
    rw [kills_eq hctl, hsig] at hk
    simpa using hk
  exact ⟨delivers_of_control hctl hup r, hup⟩

/-- What goes out for a reply is that reply. -/
theorem mem_delivers_reply : ∀ e ∈ os.delivers fd r, e.2 = r := by
  intro e he
  unfold Os.delivers at he
  split at he
  next =>
    split at he
    next => cases he
    next => rw [List.mem_singleton.mp he]
  next => cases he

/-- It goes to the client behind the descriptor. -/
theorem mem_delivers (hid : os.desc fd = some (.control id)) :
    ∀ e ∈ os.delivers fd r, e.1 = id := by
  intro e he
  rw [delivers_control hid] at he
  split at he
  next => cases he
  next => rw [List.mem_singleton.mp he]

end

@[simp] theorem dprintf_apply (fd : Fd) (r : Reply) (s : Ctx) :
    dprintf fd r s =
      if s.os.kills fd then (.error .sigpipe, s)
      else (.ok (), { s with out := s.out ++ s.os.delivers fd r }) := by
  rw [dprintf, Os.kills, Os.delivers]
  split
  next id hd =>
    by_cases hh : s.os.hungup id = true
    · by_cases hs : s.os.signals .sigpipe = .default <;> simp [hh, hs]
    · simp [hh]
  next => simp

theorem dprintf_eq_ok {fd : Fd} {r : Reply} {s s' : Ctx} {a : Unit}
    (h : dprintf fd r s = (.ok a, s')) :
    s.os.kills fd = false ∧ s' = { s with out := s.out ++ s.os.delivers fd r } := by
  rw [dprintf_apply] at h
  split at h
  next => cases h
  next hk => exact ⟨by simpa using hk, (Prod.mk.inj h).2.symm⟩

@[simp] theorem dprintf_bind_apply {α : Type} (fd : Fd) (r : Reply) (k : Unit → M α) (s : Ctx) :
    (dprintf fd r >>= k) s =
      if s.os.kills fd then (.error .sigpipe, s)
      else k () { s with out := s.out ++ s.os.delivers fd r } := by
  rw [Prog.bind_apply, dprintf_apply]
  split
  next h =>
    split at h
    next => cases h
    next hk =>
      rw [if_neg hk]
      cases h
      rfl
  next h =>
    split at h
    next hk =>
      rw [if_pos hk]
      cases h
      rfl
    next => cases h

/-- `chdir`; whether it succeeded. -/
def chdir (path : CStr) : M Bool := fun s =>
  match s.os.tree.chdir s.os.cwd path with
  | some d => (.ok true, { s with os := { s.os with cwd := d } })
  | none => (.ok false, s)

/-- The state with the process standing in another directory. -/
@[reducible] def Ctx.inDir (s : Ctx) (d : Path) : Ctx := { s with os := { s.os with cwd := d } }

@[simp] theorem chdir_apply (path : CStr) (s : Ctx) :
    chdir path s =
      (.ok (s.os.tree.chdir s.os.cwd path).isSome, s.inDir (s.os.tree.goto s.os.cwd path)) := by
  rw [chdir, FileTree.goto]
  cases s.os.tree.chdir s.os.cwd path with
  | none => rfl
  | some d => rfl

@[simp] theorem chdir_bind_apply {α : Type} (path : CStr) (k : Bool → M α) (s : Ctx) :
    (chdir path >>= k) s = k (s.os.tree.chdir s.os.cwd path).isSome
      (s.inDir (s.os.tree.goto s.os.cwd path)) := by
  rw [Prog.bind_of_ok (chdir_apply path s)]

/-- `getcwd(NULL, 0)`. -/
def getcwd : M (Option Path) := Prog.gets fun s => s.os.tree.getcwd s.os.cwd

/-- `access(path, F_OK) == 0`. -/
def access (path : CStr) : M Bool := Prog.gets fun s => s.os.tree.access s.os.cwd path

/-- `access(path, R_OK) == 0`. -/
def accessRead (path : CStr) : M Bool := Prog.gets fun s => s.os.tree.accessRead s.os.cwd path

/-- `opendir(path) != NULL`; the handle is closed again by every caller. -/
def opendir (path : CStr) : M Bool := Prog.gets fun s => s.os.tree.opendir s.os.cwd path

/-- `fopen(path, "r")`. -/
def fopenRead (path : CStr) : M (Option FileTree.Opened) :=
  Prog.gets fun s => s.os.tree.openRead s.os.cwd path

/-- `fopen(path, "wb")`: what is opened is empty from then on. -/
def fopenWrite (path : CStr) : M (Option FileTree.Target) := fun s =>
  match s.os.tree.openWrite s.os.cwd path with
  | some target =>
    (.ok (some target), { s with os := { s.os with tree := s.os.tree.store target [] } })
  | none => (.ok none, s)

/-- The file written so far holds `content`. -/
def fwriteAll (target : FileTree.Target) (content : List Byte) : M Unit :=
  Prog.modify fun s => { s with os := { s.os with tree := s.os.tree.store target content } }

/-- `remove(path) == 0`. -/
def remove (path : CStr) : M Bool := fun s =>
  match s.os.tree.remove s.os.cwd path with
  | some t => (.ok true, { s with os := { s.os with tree := t } })
  | none => (.ok false, s)

@[simp] theorem remove_bind_apply {α : Type} (path : CStr) (k : Bool → M α) (s : Ctx) :
    (remove path >>= k) s =
      match s.os.tree.remove s.os.cwd path with
      | some t => k true { s with os := { s.os with tree := t } }
      | none => k false s := by
  rw [Prog.bind_apply, remove]
  cases s.os.tree.remove s.os.cwd path with
  | none => rfl
  | some t => rfl

/-- The state with one entry of the descriptor table changed. -/
def Ctx.withDesc (s : Ctx) (fd : Fd) (d : Option Desc) : Ctx :=
  { s with os := { s.os with desc := Function.update s.os.desc fd d } }

@[simp] theorem Ctx.withDesc_desc (s : Ctx) (fd : Fd) (d : Option Desc) :
    (s.withDesc fd d).os.desc = Function.update s.os.desc fd d := rfl

@[simp] theorem Ctx.withDesc_conn (s : Ctx) (fd : Fd) (d : Option Desc) :
    (s.withDesc fd d).conn = s.conn := rfl

@[simp] theorem Ctx.withDesc_withDesc (s : Ctx) (fd : Fd) (d d' : Option Desc) :
    (s.withDesc fd d).withDesc fd d' = s.withDesc fd d' := by
  simp [Ctx.withDesc]

/-- Change one entry of the descriptor table. -/
def setDesc (fd : Fd) (d : Option Desc) : M Unit := Prog.modify fun s => s.withDesc fd d

@[simp] theorem setDesc_apply (fd : Fd) (d : Option Desc) (s : Ctx) :
    setDesc fd d s = (.ok (), s.withDesc fd d) := rfl

@[simp] theorem setDesc_bind_apply {α : Type} (fd : Fd) (d : Option Desc) (k : Unit → M α)
    (s : Ctx) : (setDesc fd d >>= k) s = k () (s.withDesc fd d) := rfl

/-- `close`. -/
def close (fd : Fd) : M Unit := setDesc fd none

/-- A descriptor the system hands out: one that is not in use. -/
def newDesc (fd : Fd) (d : Desc) : M Unit := fun s =>
  if s.os.desc fd = none then setDesc fd (some d) s else (.error .disabled, s)

theorem newDesc_eq_ok {fd : Fd} {d : Desc} {s s' : Ctx} {a : Unit}
    (h : newDesc fd d s = (.ok a, s')) :
    s.os.desc fd = none ∧ s' = s.withDesc fd (some d) := by
  rw [newDesc] at h
  split at h
  next hfree => exact ⟨hfree, (Prod.mk.inj h).2.symm⟩
  next => cases h

/-- `socket(AF_INET, SOCK_STREAM, 0)`. -/
def socket (ans : Answers) : M (Option Fd) :=
  match ans.socket with
  | none => pure none
  | some fd => do
    newDesc fd .socket
    pure (some fd)

theorem socket_apply (ans : Answers) (s : Ctx) :
    socket ans s =
      match ans.socket with
      | none => (.ok none, s)
      | some fd =>
        if s.os.desc fd = none then (.ok (some fd), s.withDesc fd (some .socket))
        else (.error .disabled, s) := by
  rw [socket]
  cases ans.socket with
  | none => rfl
  | some fd =>
    dsimp only
    by_cases hfree : s.os.desc fd = none
    · rw [if_pos hfree]
      have hnew : newDesc fd .socket s = (.ok (), s.withDesc fd (some .socket)) := by
        rw [newDesc, if_pos hfree]
        rfl
      exact Prog.bind_of_ok hnew _
    · rw [if_neg hfree]
      have hnew : newDesc fd .socket s = (.error .disabled, s) := by
        rw [newDesc, if_neg hfree]
      exact Prog.bind_of_error hnew _

/-- `accept` on a data socket: it waits until a connection is there. -/
def acceptData (ans : Answers) (fd : Option Fd) : M (Option (Fd × SockAddr)) :=
  match ans.accept with
  | none => pure none
  | some (newFd, peer) => do
    let d ← Prog.gets fun s : Ctx => fd.bind s.os.desc
    match fd, d with
    | some l, some (.listener (pending + 1)) =>
      setDesc l (some (.listener pending))
      newDesc newFd .socket
      pure (some (newFd, peer))
    | _, some (.listener 0) => Prog.fail .blocked
    | _, _ => pure none

theorem acceptData_apply (ans : Answers) (l : Option Fd) (s : Ctx) :
    acceptData ans l s =
      match ans.accept, l, l.bind s.os.desc with
      | none, _, _ => (.ok none, s)
      | some (newFd, peer), some fd, some (.listener (pending + 1)) =>
        if s.os.desc newFd = none then
          (.ok (some (newFd, peer)),
            (s.withDesc fd (some (.listener pending))).withDesc newFd (some .socket))
        else (.error .disabled, s.withDesc fd (some (.listener pending)))
      | some _, _, some (.listener 0) => (.error .blocked, s)
      | some _, _, _ => (.ok none, s) := by
  rw [acceptData]
  cases ans.accept with
  | none => rfl
  | some r =>
    obtain ⟨newFd, peer⟩ := r
    dsimp only
    rw [Prog.gets_bind_apply]
    cases l with
    | none => rfl
    | some fd =>
      rw [Option.bind_some]
      match hd : s.os.desc fd with
      | none => rfl
      | some .server => rfl
      | some (.control _) => rfl
      | some .socket => rfl
      | some (.listener 0) => rfl
      | some (.listener (pending + 1)) =>
        dsimp only
        rw [setDesc_bind_apply]
        -- the listening socket itself is taken, so it does not matter which table is asked
        have hiff : (s.withDesc fd (some (.listener pending))).os.desc newFd = none ↔
            s.os.desc newFd = none := by
          rw [Ctx.withDesc_desc]
          by_cases he : newFd = fd
          · rw [he, Function.update_self, hd]
            simp
          · rw [Function.update_of_ne he]
        by_cases hfree : s.os.desc newFd = none
        · rw [if_pos hfree]
          have hnew : newDesc newFd .socket (s.withDesc fd (some (.listener pending))) =
              (.ok (), (s.withDesc fd (some (.listener pending))).withDesc newFd
                (some .socket)) := by
            rw [newDesc, if_pos (hiff.mpr hfree)]
            rfl
          exact Prog.bind_of_ok hnew _
        · rw [if_neg hfree]
          have hnew : newDesc newFd .socket (s.withDesc fd (some (.listener pending))) =
              (.error .disabled, s.withDesc fd (some (.listener pending))) := by
            rw [newDesc, if_neg fun h => hfree (hiff.mp h)]
          exact Prog.bind_of_error hnew _

end MyFtp.Server
