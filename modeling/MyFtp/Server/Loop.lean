import MyFtp.Prog.Machine
import MyFtp.Posix.Stdio
import MyFtp.Server.Sessions

/-!
# The main loop

`process_connections` of `connection.c`, with `client_handler.c` and
`destroy_server`: two parallel arrays, one of descriptors that are polled and one of
connection records, and a cycle of polling them, accepting a client and handling a
line of each client that is reported.

The loop stops where it can wait for somebody else: in `poll`, before each slot, and
each time a stream is read. Between two steps of the server anything else can happen:
bytes arrive, a client is gone, a child runs, a signal is caught. A step that would wait
is `blocked` until then.
-/

namespace MyFtp.Server

open MyFtp.Posix

/-! ## The two arrays -/

/-- An index of the arrays: 0 is the socket clients connect to. -/
abbrev SlotIndex := Fin (maxClients + 1)

instance (priority := 1100) : @NeZero Nat Zero.ofOfNat0 (maxClients + 1) := ⟨Nat.succ_ne_zero _⟩

/-- `struct pollfd`, where `events` is `POLLIN` throughout: the descriptor, or `none` for
`-1`, and whether `POLLIN` is set in `revents`. -/
structure PollFd where
  fd : Option Fd
  revents : Bool
  deriving DecidableEq

/-- An entry of `connections` that was initialised: the record, and what its stream holds
that was read and not used. -/
structure Client where
  id : ConnId
  connection : Connection
  buffer : List Byte
  deriving DecidableEq

/-- Where the loop is. -/
inductive Phase
  /-- At the test of the `while`. -/
  | polling
  /-- `poll` has returned. -/
  | accepting
  /-- In `process_client_events`, before the slot. -/
  | serving (i : Nat)
  /-- In the `getline` of `handle_connection` for the slot, with what it has taken. -/
  | reading (i : SlotIndex) (taken : List Byte)
  /-- `read_socket` has returned. -/
  | executing (i : SlotIndex) (buffer : Option CStr)
  /-- In `destroy_server`, before the slot. -/
  | stopping (i : Nat)
  | stopped
  deriving DecidableEq

/-- The server process in its main loop. An entry of `connections` that is zeroed, or was
never set, or is destroyed is `none`. `received` is what waits in the kernel. -/
structure Loop where
  world : World
  fds : SlotIndex → PollFd
  connections : SlotIndex → Option Client
  received : ConnId → List Byte
  stopServer : Bool
  phase : Phase

/-- A server that is set up, and the size of a stream's buffer. -/
structure Settings extends Setup where
  bufsiz : Nat
  bufsiz_pos : 0 < bufsiz

/-- The outcomes of the system calls in one step of the loop: what `poll` reports, or that
it fails; what `accept` returns; whether `fdopen` succeeds; whether a `read` is interrupted;
and those of the handlers. -/
structure Calls where
  poll : Option (SlotIndex → Bool)
  accept : Option (Fd × SockAddr)
  fdopen : Bool
  interrupted : Bool
  line : Answers

/-- What can happen next. -/
inductive LoopEvent
  /-- The server goes on. -/
  | server (calls : Calls)
  /-- Bytes of a client arrive. -/
  | arrive (id : ConnId) (bytes : List Byte)
  /-- A client closes its control connection, or resets it, and what waits is lost. -/
  | hangup (id : ConnId) (reset : Bool)
  /-- A client connects to a data socket. -/
  | dataConnect (fd : Fd)
  /-- A child runs. -/
  | child (k : Nat) (cans : ChildAnswers)
  /-- `SIGINT` or `SIGTERM` is caught. -/
  | signal

/-- The first slot from `i` on, and not the server's, of which `p` holds. -/
def findSlot (i : Nat) (p : SlotIndex → Bool) : Option SlotIndex :=
  (List.finRange (maxClients + 1)).find? fun j => decide (1 ≤ j.val ∧ i ≤ j.val) && p j

/-! ## `connection.c` -/

/-- `init_poll_fds`. -/
def initPollFds (sockfd : Fd) (i : SlotIndex) : PollFd :=
  if i = 0 then ⟨some sockfd, false⟩ else ⟨none, false⟩

/-- `accept_new_connection`. `init_connection` closes the descriptor when `fdopen` fails,
and returns a zeroed structure; the slot is taken all the same. -/
def acceptNewConnection (server : ServerT) (calls : Calls) (w : Loop) : Except Halt Loop :=
  match calls.accept with
  | none => .ok w
  | some (fd, addr) =>
    (w.world.accept server fd addr).map fun (connection, world) =>
      match findSlot 1 fun i => (w.fds i).fd.isNone with
      | none => { w with world }
      | some i =>
        { w with
          world := if calls.fdopen then world
            else { world with os := { world.os with
              desc := Function.update world.os.desc fd none } }
          connections := Function.update w.connections i
            (if calls.fdopen then some ⟨w.world.nextId, connection, []⟩ else none)
          fds := Function.update w.fds i { w.fds i with fd := some fd } }

/-- The next slot `process_client_events` handles, from `i` on. -/
def nextReady (fds : SlotIndex → PollFd) (i : Nat) : Option SlotIndex :=
  findSlot i fun j => (fds j).fd.isSome && (fds j).revents

/-- `poll`: it sets `revents` of every entry, and that of an unused one to 0. -/
def pollFds (fds : SlotIndex → PollFd) (ready : SlotIndex → Bool) (i : SlotIndex) : PollFd :=
  { fds i with revents := (fds i).fd.isSome && ready i }

/-! ## `client_handler.c` -/

/-- What `read_socket` makes of the bytes `getline` has read: none are the end of the
stream. -/
def readSocket (bytes : List Byte) : Option CStr :=
  if bytes = [] then none
  else some (cstr (if bytes.getLast? = some newline then bytes.dropLast else bytes))

/-- A turn of the `getline` in `read_socket`. -/
def readTurn (u : Settings) (calls : Calls) (w : Loop) (i : SlotIndex) (taken : List Byte) :
    Except Halt Loop :=
  match w.connections i with
  | none => .error .undefined
  | some c =>
    let ended := w.world.os.hungup c.id || (calls.interrupted && w.stopServer)
    match getlineTurn u.bufsiz taken c.buffer (w.received c.id) ended with
    | .line bytes rest => .ok { w with
        connections := Function.update w.connections i (some { c with buffer := rest })
        phase := .executing i (readSocket bytes) }
    | .more taken buffer waiting => .ok { w with
        connections := Function.update w.connections i (some { c with buffer })
        received := Function.update w.received c.id waiting
        phase := .reading i taken }
    | .ended bytes => .ok { w with
        connections := Function.update w.connections i (some { c with buffer := [] })
        phase := .executing i (readSocket bytes) }
    | .blocked => .error .blocked

/-- The rest of `handle_connection`. -/
def executeTurn (u : Settings) (calls : Calls) (w : Loop) (i : SlotIndex) (buffer : Option CStr) :
    Except Halt Loop :=
  match w.connections i, (w.fds i).fd with
  | some c, some fd =>
    (w.world.exec c.id c.connection (handleConnection u.server calls.line fd buffer)).map
      fun (stays, connection, world) =>
        { w with
          world
          connections := Function.update w.connections i
            (if stays then some { c with connection } else none)
          fds := if stays then w.fds else Function.update w.fds i { w.fds i with fd := none }
          phase := .serving (i.val + 1) }
  | _, _ => .error .undefined

/-- `destroy_server`, for one slot: the descriptor stays in the array, which nobody looks
at again. -/
def destroyTurn (w : Loop) (i : SlotIndex) : Except Halt Loop :=
  match w.connections i, (w.fds i).fd with
  | some c, some fd =>
    (w.world.exec c.id c.connection (do
      dprintf fd .serviceClosing
      destroyConnection
      close fd)).map fun (_, _, world) =>
        { w with
          world
          connections := Function.update w.connections i none
          phase := .stopping (i.val + 1) }
  | _, _ => .error .undefined

/-! ## The loop -/

/-- The server goes on: the body of `process_connections` from where it is to where it
can wait next. -/
def Loop.server (u : Settings) (w : Loop) (calls : Calls) : Except Halt Loop :=
  match w.phase with
  | .polling =>
    if w.stopServer then .ok { w with phase := .stopping 1 }
    else
      match calls.poll with
      | none => .ok { w with phase := .stopping 1 }
      | some ready => .ok { w with fds := pollFds w.fds ready, phase := .accepting }
  | .accepting =>
    (if (w.fds 0).revents then acceptNewConnection u.server calls w else .ok w).map fun w =>
      { w with phase := .serving 1 }
  | .serving i =>
    match nextReady w.fds i with
    | none => .ok { w with phase := .polling }
    | some j => .ok { w with phase := .reading j [] }
  | .reading i taken => readTurn u calls w i taken
  | .executing i buffer => executeTurn u calls w i buffer
  | .stopping i =>
    match findSlot i fun j => (w.fds j).fd.isSome with
    | some j => destroyTurn w j
    | none => .ok { w with
        world := { w.world with os := { w.world.os with
          desc := Function.update w.world.os.desc u.server.sockfd none } }
        phase := .stopped }
  | .stopped => .error .disabled

/-- One event. -/
def Loop.step (u : Settings) (w : Loop) : LoopEvent → Except Halt Loop
  | .server calls => w.server u calls
  | .arrive id bytes =>
    if w.world.os.hungup id then .error .disabled
    else .ok { w with received := Function.update w.received id (w.received id ++ bytes) }
  | .hangup id reset => .ok { w with
      world := w.world.hangup id
      received := if reset then Function.update w.received id [] else w.received }
  | .dataConnect fd => (w.world.dataConnect fd).map fun world => { w with world }
  | .child k cans => (w.world.runChild u.server k cans).map fun world => { w with world }
  | .signal => .ok { w with stopServer := true }

/-- The server's main loop as a machine. -/
def loop (u : Settings) : Machine Loop LoopEvent Halt :=
  { init :=
      { world := u.world, fds := initPollFds u.server.sockfd, connections := fun _ => none
        received := fun _ => [], stopServer := false, phase := .polling }
    step := Loop.step u }

/-- The server of `smallSetup`, with the buffers of glibc. -/
def smallSettings : Settings := { smallSetup with bufsiz := 4096, bufsiz_pos := by decide }

/-- Nothing fails: `poll` reports some of the slots, and a client that connects gets the
descriptor `fd`. -/
def Calls.fine (ready : List SlotIndex) (fd : Fd) : Calls :=
  { poll := some fun i => i ∈ ready, accept := some (fd, ⟨inaddrLoopback, 4000⟩), fdopen := true
    interrupted := false, line := .fine 7 }

/-- A cycle of the loop in which a client is accepted. -/
def acceptOn (fd : Fd) : List LoopEvent :=
  [.server (.fine [0] fd), .server (.fine [] fd), .server (.fine [] fd)]

/-- A cycle in which the slot `i` has a turn, which takes `n` more steps. -/
def turnOf (i : SlotIndex) (n : Nat) : List LoopEvent :=
  List.replicate (n + 3) (.server (.fine [i] 0))

/-! ## What a step of the server can be -/

/-- The server goes on. -/
inductive ServerStep (u : Settings) (w : Loop) (calls : Calls) : Loop → Prop
  | leave (hphase : w.phase = .polling) (h : w.stopServer = true ∨ calls.poll = none) :
      ServerStep u w calls { w with phase := .stopping 1 }
  | poll (ready : SlotIndex → Bool) (hphase : w.phase = .polling) (hstop : w.stopServer = false)
      (hpoll : calls.poll = some ready) :
      ServerStep u w calls { w with fds := pollFds w.fds ready, phase := .accepting }
  | nobody (hphase : w.phase = .accepting) (h : (w.fds 0).revents = false ∨ calls.accept = none) :
      ServerStep u w calls { w with phase := .serving 1 }
  | full (fd : Fd) (addr : SockAddr) (connection : Connection) (world : World)
      (hphase : w.phase = .accepting) (hready : (w.fds 0).revents = true)
      (haccept : calls.accept = some (fd, addr))
      (hworld : w.world.accept u.server fd addr = .ok (connection, world))
      (hfull : findSlot 1 (fun i => (w.fds i).fd.isNone) = none) :
      ServerStep u w calls { w with world, phase := .serving 1 }
  | accepted (fd : Fd) (addr : SockAddr) (connection : Connection) (world : World) (i : SlotIndex)
      (hphase : w.phase = .accepting) (hready : (w.fds 0).revents = true)
      (haccept : calls.accept = some (fd, addr))
      (hworld : w.world.accept u.server fd addr = .ok (connection, world))
      (hfree : findSlot 1 (fun i => (w.fds i).fd.isNone) = some i) :
      ServerStep u w calls { w with
        world := if calls.fdopen then world
          else { world with os := { world.os with
            desc := Function.update world.os.desc fd none } }
        connections := Function.update w.connections i
          (if calls.fdopen then some ⟨w.world.nextId, connection, []⟩ else none)
        fds := Function.update w.fds i { w.fds i with fd := some fd }
        phase := .serving 1 }
  | served (k : Nat) (hphase : w.phase = .serving k) (hnone : nextReady w.fds k = none) :
      ServerStep u w calls { w with phase := .polling }
  | enter (k : Nat) (i : SlotIndex) (hphase : w.phase = .serving k)
      (hnext : nextReady w.fds k = some i) :
      ServerStep u w calls { w with phase := .reading i [] }
  | line (i : SlotIndex) (taken bytes rest : List Byte) (c : Client)
      (hphase : w.phase = .reading i taken) (hc : w.connections i = some c)
      (hturn : getlineTurn u.bufsiz taken c.buffer (w.received c.id)
        (w.world.os.hungup c.id || (calls.interrupted && w.stopServer)) = .line bytes rest) :
      ServerStep u w calls { w with
        connections := Function.update w.connections i (some { c with buffer := rest })
        phase := .executing i (readSocket bytes) }
  | more (i : SlotIndex) (taken taken' buffer waiting : List Byte) (c : Client)
      (hphase : w.phase = .reading i taken) (hc : w.connections i = some c)
      (hturn : getlineTurn u.bufsiz taken c.buffer (w.received c.id)
        (w.world.os.hungup c.id || (calls.interrupted && w.stopServer)) =
          .more taken' buffer waiting) :
      ServerStep u w calls { w with
        connections := Function.update w.connections i (some { c with buffer })
        received := Function.update w.received c.id waiting
        phase := .reading i taken' }
  | ended (i : SlotIndex) (taken bytes : List Byte) (c : Client)
      (hphase : w.phase = .reading i taken) (hc : w.connections i = some c)
      (hturn : getlineTurn u.bufsiz taken c.buffer (w.received c.id)
        (w.world.os.hungup c.id || (calls.interrupted && w.stopServer)) = .ended bytes) :
      ServerStep u w calls { w with
        connections := Function.update w.connections i (some { c with buffer := [] })
        phase := .executing i (readSocket bytes) }
  | execute (i : SlotIndex) (buffer : Option CStr) (c : Client) (fd : Fd) (stays : Bool)
      (connection : Connection) (world : World)
      (hphase : w.phase = .executing i buffer) (hc : w.connections i = some c)
      (hfd : (w.fds i).fd = some fd)
      (hexec : w.world.exec c.id c.connection
        (handleConnection u.server calls.line fd buffer) = .ok (stays, connection, world)) :
      ServerStep u w calls { w with
        world
        connections := Function.update w.connections i
          (if stays then some { c with connection } else none)
        fds := if stays then w.fds else Function.update w.fds i { w.fds i with fd := none }
        phase := .serving (i.val + 1) }
  | destroy (k : Nat) (i : SlotIndex) (c : Client) (fd : Fd) (connection : Connection)
      (world : World) (hphase : w.phase = .stopping k)
      (hnext : findSlot k (fun j => (w.fds j).fd.isSome) = some i) (hc : w.connections i = some c)
      (hfd : (w.fds i).fd = some fd)
      (hexec : w.world.exec c.id c.connection (do
        dprintf fd .serviceClosing
        destroyConnection
        close fd) = .ok ((), connection, world)) :
      ServerStep u w calls { w with
        world
        connections := Function.update w.connections i none
        phase := .stopping (i.val + 1) }
  | stop (k : Nat) (hphase : w.phase = .stopping k)
      (hnone : findSlot k (fun j => (w.fds j).fd.isSome) = none) :
      ServerStep u w calls { w with
        world := { w.world with os := { w.world.os with
          desc := Function.update w.world.os.desc u.server.sockfd none } }
        phase := .stopped }

section

variable {u : Settings} {w w' : Loop} {calls : Calls} {i : SlotIndex} {k : Nat}
  {p : SlotIndex → Bool}

/-- The clients' slots are those from 1 on. -/
theorem one_le_of_ne_zero (hi : i ≠ 0) : 1 ≤ i.val :=
  Nat.one_le_iff_ne_zero.mpr fun h0 => hi (Fin.ext h0)

/-- A slot that is found is not the server's, and has what was looked for. -/
theorem findSlot_eq_some (h : findSlot k p = some i) : i ≠ 0 ∧ k ≤ i.val ∧ p i = true := by
  have hp := List.find?_some h
  rw [Bool.and_eq_true, decide_eq_true_iff] at hp
  obtain ⟨⟨hone, hk⟩, hi⟩ := hp
  refine ⟨?_, hk, hi⟩
  rintro rfl
  exact absurd hone (by decide)

/-- None is found when none from there on has it. -/
theorem findSlot_eq_none (h : findSlot k p = none) (hi : i ≠ 0) (hk : k ≤ i.val) : p i = false := by
  have hp := List.find?_eq_none.mp h i (List.mem_finRange i)
  rw [decide_eq_true ⟨one_le_of_ne_zero hi, hk⟩, Bool.true_and] at hp
  exact Bool.eq_false_iff.mpr hp

theorem findSlot_isSome_iff : (findSlot k p).isSome ↔ ∃ i, i ≠ 0 ∧ k ≤ i.val ∧ p i = true := by
  constructor
  · intro h
    obtain ⟨i, hi⟩ := Option.isSome_iff_exists.mp h
    exact ⟨i, findSlot_eq_some hi⟩
  · rintro ⟨i, hi, hk, hp⟩
    by_contra hnone
    rw [Option.not_isSome_iff_eq_none] at hnone
    rw [findSlot_eq_none hnone hi hk] at hp
    cases hp

/-- What `accept_new_connection` can do. -/
theorem acceptNewConnection_eq_ok {server : ServerT}
    (h : acceptNewConnection server calls w = .ok w') :
    (calls.accept = none ∧ w' = w) ∨
      ∃ fd addr connection world, calls.accept = some (fd, addr) ∧
        w.world.accept server fd addr = .ok (connection, world) ∧
          ((findSlot 1 (fun i => (w.fds i).fd.isNone) = none ∧ w' = { w with world }) ∨
            ∃ i, findSlot 1 (fun i => (w.fds i).fd.isNone) = some i ∧ w' = { w with
              world := if calls.fdopen then world
                else { world with os := { world.os with
                  desc := Function.update world.os.desc fd none } }
              connections := Function.update w.connections i
                (if calls.fdopen then some ⟨w.world.nextId, connection, []⟩ else none)
              fds := Function.update w.fds i { w.fds i with fd := some fd } }) := by
  unfold acceptNewConnection at h
  cases haccept : calls.accept with
  | none =>
    rw [haccept] at h
    cases h
    exact .inl ⟨rfl, rfl⟩
  | some x =>
    obtain ⟨fd, addr⟩ := x
    rw [haccept] at h
    obtain ⟨⟨connection, world⟩, hworld, rfl⟩ := map_eq_ok h
    refine .inr ⟨fd, addr, connection, world, rfl, hworld, ?_⟩
    cases hslot : findSlot 1 fun i => (w.fds i).fd.isNone with
    | none => exact .inl ⟨rfl, rfl⟩
    | some i => exact .inr ⟨i, rfl, rfl⟩

/-- The step after `poll` has returned. -/
theorem accepting_eq_ok (hphase : w.phase = .accepting) (h : w.server u calls = .ok w') :
    ∃ w₁, w' = { w₁ with phase := .serving 1 } ∧
      (((w.fds 0).revents = false ∧ w₁ = w) ∨
        ((w.fds 0).revents = true ∧ acceptNewConnection u.server calls w = .ok w₁)) := by
  unfold Loop.server at h
  rw [hphase] at h
  dsimp only at h
  obtain ⟨w₁, hw, rfl⟩ := map_eq_ok h
  refine ⟨w₁, rfl, ?_⟩
  by_cases hready : (w.fds 0).revents = true
  · rw [if_pos hready] at hw
    exact .inr ⟨hready, hw⟩
  · rw [if_neg hready] at hw
    cases hw
    exact .inl ⟨by simpa using hready, rfl⟩

theorem accepting_step (hphase : w.phase = .accepting)
    (h : w.server u calls = .ok w') : ServerStep u w calls w' := by
  obtain ⟨w₁, rfl, ⟨hready, rfl⟩ | ⟨hready, hw⟩⟩ := accepting_eq_ok hphase h
  · exact .nobody hphase (.inl hready)
  · obtain ⟨haccept, rfl⟩ | ⟨fd, addr, connection, world, haccept, hworld, ⟨hslot, rfl⟩ |
      ⟨i, hslot, rfl⟩⟩ := acceptNewConnection_eq_ok hw
    · exact .nobody hphase (.inr haccept)
    · exact .full fd addr connection world hphase hready haccept hworld hslot
    · exact .accepted fd addr connection world i hphase hready haccept hworld hslot

/-- What a turn of `getline` can do. -/
theorem reading_step {taken : List Byte} (hphase : w.phase = .reading i taken)
    (h : w.server u calls = .ok w') : ServerStep u w calls w' := by
  unfold Loop.server at h
  rw [hphase] at h
  dsimp only at h
  unfold readTurn at h
  cases hc : w.connections i with
  | none =>
    rw [hc] at h
    cases h
  | some c =>
    rw [hc] at h
    dsimp only at h
    cases hturn : getlineTurn u.bufsiz taken c.buffer (w.received c.id)
      (w.world.os.hungup c.id || (calls.interrupted && w.stopServer)) with
    | line bytes rest =>
      rw [hturn] at h
      cases h
      exact .line i taken bytes rest c hphase hc hturn
    | more taken' buffer waiting =>
      rw [hturn] at h
      cases h
      exact .more i taken taken' buffer waiting c hphase hc hturn
    | ended bytes =>
      rw [hturn] at h
      cases h
      exact .ended i taken bytes c hphase hc hturn
    | blocked =>
      rw [hturn] at h
      cases h

/-- What `handle_connection` can do with a line. -/
theorem executing_step {buffer : Option CStr} (hphase : w.phase = .executing i buffer)
    (h : w.server u calls = .ok w') : ServerStep u w calls w' := by
  unfold Loop.server at h
  rw [hphase] at h
  dsimp only at h
  unfold executeTurn at h
  cases hc : w.connections i with
  | none =>
    rw [hc] at h
    cases h
  | some c =>
    cases hfd : (w.fds i).fd with
    | none =>
      rw [hc, hfd] at h
      cases h
    | some fd =>
      rw [hc, hfd] at h
      obtain ⟨⟨stays, connection, world⟩, hexec, rfl⟩ := map_eq_ok h
      exact .execute i buffer c fd stays connection world hphase hc hfd hexec

/-- What `destroy_server` can do. -/
theorem stopping_step (hphase : w.phase = .stopping k)
    (h : w.server u calls = .ok w') : ServerStep u w calls w' := by
  unfold Loop.server at h
  rw [hphase] at h
  dsimp only at h
  cases hslot : findSlot k fun j => (w.fds j).fd.isSome with
  | none =>
    rw [hslot] at h
    cases h
    exact .stop k hphase hslot
  | some i =>
    rw [hslot] at h
    dsimp only at h
    unfold destroyTurn at h
    cases hc : w.connections i with
    | none =>
      rw [hc] at h
      cases h
    | some c =>
      cases hfd : (w.fds i).fd with
      | none =>
        rw [hc, hfd] at h
        cases h
      | some fd =>
        rw [hc, hfd] at h
        obtain ⟨⟨_, connection, world⟩, hexec, rfl⟩ := map_eq_ok h
        exact .destroy k i c fd connection world hphase hslot hc hfd hexec

/-- **What a step of the server can be.** -/
theorem server_step (h : w.server u calls = .ok w') : ServerStep u w calls w' := by
  cases hphase : w.phase with
  | polling =>
    unfold Loop.server at h
    rw [hphase] at h
    dsimp only at h
    split at h
    next hstop =>
      cases h
      exact .leave hphase (.inl hstop)
    next hstop =>
      cases hpoll : calls.poll with
      | none =>
        rw [hpoll] at h
        cases h
        exact .leave hphase (.inr hpoll)
      | some ready =>
        rw [hpoll] at h
        cases h
        exact .poll ready hphase (by simpa using hstop) hpoll
  | accepting => exact accepting_step hphase h
  | serving k =>
    unfold Loop.server at h
    rw [hphase] at h
    dsimp only at h
    cases hnext : nextReady w.fds k with
    | none =>
      rw [hnext] at h
      cases h
      exact .served k hphase hnext
    | some i =>
      rw [hnext] at h
      cases h
      exact .enter k i hphase hnext
  | reading i taken => exact reading_step hphase h
  | executing i buffer => exact executing_step hphase h
  | stopping k => exact stopping_step hphase h
  | stopped =>
    unfold Loop.server at h
    rw [hphase] at h
    cases h

end

end MyFtp.Server
