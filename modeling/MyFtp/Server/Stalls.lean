import MyFtp.Server.LostDirectory
import MyFtp.Server.Turns

/-!
# When a client holds the server up

The loop serves one client after the other, so that a client it waits for keeps all others
waiting. There are two such places: `getline`, for the rest of a line, and `accept`, for the
data connection of a passive transfer.

> `blocked_iff`: in every state the loop can reach these are the only ones.

> `held_up_of_run`: while it does wait for a client, the server serves nobody.
-/

namespace MyFtp.Server

open MyFtp.Posix
open Prog

/-! ## Waiting -/

/-- `accept` waits for the data connection of the transfer that a command begins. -/
def AwaitsPeer (server : ServerT) (ans : Answers) (command : Command) (s : Ctx) : Prop :=
  transferOf server s command ≠ none ∧
    (∀ W ∈ s.conn.workingDirectory, command.FindsDirectory s W) ∧ ans.accept ≠ none ∧
      ∃ d ∈ s.conn.dataSocket, d.dataSocketMode = .passive ∧
        ∃ l ∈ d.dataSockfd, s.os.desc l = some (.listener 0)

instance (server : ServerT) (ans : Answers) (command : Command) (s : Ctx) :
    Decidable (AwaitsPeer server ans command s) :=
  inferInstanceAs (Decidable (_ ∧ _ ∧ _ ∧ _))

/-- The line, once it is parsed, begins a transfer that waits. -/
def LineAwaits (server : ServerT) (ans : Answers) (line : CStr) (s : Ctx) : Prop :=
  ∃ command ∈ commandOf line, AwaitsPeer server ans command s

instance (server : ServerT) (ans : Answers) (line : CStr) (s : Ctx) :
    Decidable (LineAwaits server ans line s) :=
  inferInstanceAs (Decidable (∃ command ∈ commandOf line, AwaitsPeer server ans command s))

/-- The next step of the server waits for a client. -/
def Loop.Stalls (u : Settings) (w : Loop) (calls : Calls) : Prop :=
  match w.phase with
  | .reading i _ => ∃ c ∈ w.connections i, newline ∉ c.buffer ∧ w.received c.id = [] ∧
      (w.world.os.hungup c.id || (calls.interrupted && w.stopServer)) = false
  | .executing i (some line) => ∃ c ∈ w.connections i,
      LineAwaits u.server calls.line line (Ctx.start w.world.os c.connection)
  | _ => False

/-! ## Where a line waits -/

/-- A program that never waits. -/
def Unblocked {α : Type} (p : M α) : Prop := Safe (fun _ => True) (· ≠ .blocked) p

section

variable {server : ServerT} {ans : Answers} {command : Command} {body : TransferBody} {s s' : Ctx}
  {W : Path} {parsed : Option Command}

theorem follows_unblocked : Follows Unblocked := ⟨modular_safe, safe_fail (by simp)⟩

theorem unblocked_dprintf (fd : Fd) (r : Reply) : Unblocked (dprintf fd r) := by
  refine fun s _ => ⟨fun e s' h => ?_, fun _ _ _ => trivial⟩
  rw [dprintf_apply] at h
  split at h
  next =>
    cases h
    simp
  next => cases h

theorem unblocked_reply (r : Reply) : Unblocked (reply r) :=
  follows_unblocked.bind follows_unblocked.conn fun _ => unblocked_dprintf _ r

theorem unblocked_modify (f : Ctx → Ctx) : Unblocked (modify f : M Unit) :=
  safe_modify fun _ _ => trivial

theorem unblocked_chdir (path : CStr) : Unblocked (chdir path) := by
  refine fun s _ => ⟨fun e s' h => ?_, fun _ _ _ => trivial⟩
  rw [chdir_apply] at h
  cases h

theorem unblocked_remove (path : CStr) : Unblocked (remove path) := by
  refine fun s _ => ⟨fun e s' h => ?_, fun _ _ _ => trivial⟩
  unfold remove at h
  split at h <;> cases h

/-- All handlers but those of the three transfers. -/
theorem frame_unblocked (server : ServerT) (ans : Answers) :
    Frame server ans [lit "LIST", lit "RETR", lit "STOR"] Unblocked := by
  refine follows_unblocked.frame unblocked_reply (fun _ => unblocked_chdir)
    (fun _ => unblocked_remove) (fun _ => unblocked_modify _) (fun _ => unblocked_modify _)
    (safe_fail (by simp)) (fun _ _ _ => unblocked_modify _) fun body command hbody => ?_
  cases body with
  | executeLsCommand => exact absurd (by simp [TransferBody.word]) hbody
  | executeRetrCommand => exact absurd (by simp [TransferBody.word]) hbody
  | executeStorCommand => exact absurd (by simp [TransferBody.word]) hbody

/-- A line that asks for no transfer does not wait. -/
theorem unblocked_executeCommand
    (hbody : ∀ command, parsed = some command → bodyOf command.word = none) :
    Unblocked (executeCommand server ans parsed) := by
  have hown : ∀ command, parsed = some command →
      command.word ∉ [lit "LIST", lit "RETR", lit "STOR"] := by
    intro command hcommand hmem
    have hnone := hbody command hcommand
    simp only [List.mem_cons, List.not_mem_nil, or_false] at hmem
    rcases hmem with hword | hword | hword
    all_goals
      rw [hword] at hnone
      exact absurd hnone (by decide)
  rcases word_cases parsed with hr | ⟨command, rfl, hw⟩ | ⟨command, rfl, hw⟩
  · exact (frame_unblocked server ans).executeCommand fun command hcommand =>
      ⟨hr command hcommand, hown command hcommand⟩
  · exact follows_unblocked.changes unblocked_reply unblocked_chdir (fun _ => unblocked_modify _) hw
  · exact follows_unblocked.logs (fun r _ => unblocked_reply r) (fun _ _ => unblocked_modify _) hw

/-- `establish_data_socket_connection` waits where nobody has connected to the passive
socket. -/
theorem establish_blocked_iff {d : DataSocket} (hd : s.conn.dataSocket = some d) :
    (∃ s', establishDataSocketConnection ans s = (.error .blocked, s')) ↔
      d.dataSocketMode = .passive ∧ ans.accept ≠ none ∧
        ∃ l ∈ d.dataSockfd, s.os.desc l = some (.listener 0) := by
  unfold establishDataSocketConnection
  rw [conn_bind_apply, hd, deref_some, pure_bind_apply]
  cases hmode : d.dataSocketMode with
  | active =>
    constructor
    · rintro ⟨s', h⟩
      cases h
    · intro h
      cases h.1
  | passive =>
    dsimp only
    rcases acceptData_cases ans d.dataSockfd s with hacc | ⟨hacc, l, hl, hgiven, hpending⟩ |
      ⟨l, pending, newFd, peer, hl, hpending, haccept, ⟨hopen, hacc⟩ | ⟨hfree, hacc⟩⟩
    · rw [acceptConnection_of_none hacc]
      constructor
      · rintro ⟨s', h⟩
        cases h
      rintro ⟨-, hgiven, l, hl, hpending⟩
      rw [acceptData_apply, Option.mem_def.mp hl] at hacc
      cases haccept : ans.accept with
      | none => exact absurd haccept hgiven
      | some x =>
        rw [haccept] at hacc
        dsimp only [Option.bind_some] at hacc
        rw [hpending] at hacc
        cases hacc
    · rw [acceptConnection, bind_of_error hacc]
      exact ⟨fun _ => ⟨rfl, hgiven, l, hl, hpending⟩, fun _ => ⟨s, rfl⟩⟩
    · rw [acceptConnection, bind_of_error hacc]
      constructor
      · rintro ⟨s', h⟩
        cases h
      rintro ⟨-, -, l', hl', hnone⟩
      obtain rfl : l = l' := Option.some.inj (hl.symm.trans hl')
      cases hpending.symm.trans hnone
    · rw [acceptConnection_of_some hacc]
      constructor
      · rintro ⟨s', h⟩
        cases h
      rintro ⟨-, -, l', hl', hnone⟩
      obtain rfl : l = l' := Option.some.inj (hl.symm.trans hl')
      cases hpending.symm.trans hnone

/-- A transfer waits for its connection, and for nothing after that. -/
theorem transfer_blocked_iff :
    (∃ s', executeDataSocketCommand ans body command s = (.error .blocked, s')) ↔
      ∃ s', establishDataSocketConnection ans s = (.error .blocked, s') := by
  have hgiveUp : ∀ status : CommandStatus, Unblocked (do
      let c ← conn
      destroyDataSocket c.dataSocket
      setDataSocket none
      return status) := fun status =>
    follows_unblocked.destroy (fun _ => unblocked_modify _) (fun _ => unblocked_modify _) status
  have hrest : ∀ connected : Bool, Unblocked (if connected = false then (do
        reply .failedToEstablish
        let c ← conn
        destroyDataSocket c.dataSocket
        setDataSocket none
        return CommandStatus.failure)
      else (do
        if (← forkExecution ans body command) = .failure then
          reply .localError
        let c ← conn
        destroyDataSocket c.dataSocket
        setDataSocket none
        return .success) : M CommandStatus) := by
    intro connected
    refine prop_ite (fun _ => ?_) fun _ => ?_
    · exact follows_unblocked.bind (unblocked_reply _) fun _ => hgiveUp _
    · refine follows_unblocked.bind ?_ fun _ => ?_
      · exact prop_ite (fun _ => follows_unblocked.bind (unblocked_modify _) fun _ =>
          follows_unblocked.pure _) fun _ => follows_unblocked.pure _
      · exact prop_ite (fun _ => follows_unblocked.bind (unblocked_reply _) fun _ => hgiveUp _)
          fun _ => hgiveUp _
  unfold executeDataSocketCommand
  constructor
  · rintro ⟨s', h⟩
    rcases hest : establishDataSocketConnection ans s with ⟨e | connected, s₁⟩
    · rw [bind_of_error hest] at h
      cases h
      exact ⟨_, rfl⟩
    · rw [bind_of_ok hest] at h
      exact absurd rfl ((hrest connected s₁ trivial).1 _ _ h)
  · rintro ⟨s', h⟩
    exact ⟨s', bind_of_error h _⟩

/-- What the tests of a transfer come to, in the state they leave. -/
theorem transferOf_ne_none_iff (hW : s.conn.workingDirectory = some W)
    (hbody : bodyOf command.word = some body) :
    transferOf server s command ≠ none ↔ (transferTests server s W command body).1 = none := by
  unfold transferOf
  rw [hbody, Option.bind_some, hW, Option.bind_some]
  by_cases hnone : (transferTests server s W command body).1 = none
  · rw [if_pos hnone]
    exact ⟨fun _ => hnone, fun _ => by simp⟩
  · rw [if_neg hnone]
    exact ⟨fun h => absurd rfl h, fun h => absurd h hnone⟩

/-- **Where a line waits**: in the `accept` of a transfer, and nowhere else. -/
theorem executeCommand_blocked_iff (hW : s.conn.workingDirectory = some W) :
    (∃ s', executeCommand server ans parsed s = (.error .blocked, s')) ↔
      ∃ command ∈ parsed, AwaitsPeer server ans command s := by
  have hother : (∀ command, parsed = some command → bodyOf command.word = none) →
      ((∃ s', executeCommand server ans parsed s = (.error .blocked, s')) ↔
        ∃ command ∈ parsed, AwaitsPeer server ans command s) := by
    intro hbody
    refine ⟨fun ⟨s', h⟩ => ?_, fun ⟨command, hcommand, hawaits⟩ => ?_⟩
    · exact absurd rfl ((unblocked_executeCommand hbody s trivial).1 _ _ h)
    · exact absurd (transferOf_of_word (hbody command hcommand)) hawaits.1
  cases parsed with
  | none => exact hother fun _ h => (by cases h)
  | some command =>
    cases hbody : bodyOf command.word with
    | none => exact hother fun _ h => by rwa [← Option.some.inj h]
    | some body =>
      by_cases hfinds : command.FindsDirectory s W
      · have hlist : body = .executeLsCommand → ListFinds s W command := by
          rintro rfl
          exact hfinds.2 (bodyOf_eq_some.mp hbody).symm
        rw [transferCommand_tests hW hbody hlist]
        have hne : transferOf server s command ≠ none ↔ _ := transferOf_ne_none_iff hW hbody
        rcases ht : transferTests server s W command body with ⟨_ | r, cwd⟩
        · rw [ht] at hne
          have hbegins := hne.mpr rfl
          obtain ⟨body', hbody'⟩ := Option.ne_none_iff_exists'.mp hbegins
          obtain ⟨-, -, d, hd⟩ := transferOf_eq_some hbody'
          have hd' : (s.inDir cwd).conn.dataSocket = some d := hd
          dsimp only
          rw [transfer_blocked_iff, establish_blocked_iff hd']
          constructor
          · rintro ⟨hmode, hgiven, hpending⟩
            refine ⟨command, rfl, hbegins, fun W' hW' => ?_, hgiven, d, hd, hmode, hpending⟩
            rwa [← Option.some.inj (hW.symm.trans hW')]
          · rintro ⟨command', hcommand, -, -, hgiven, d', hd'', hmode, hpending⟩
            obtain rfl := Option.some.inj (hd.symm.trans hd'')
            exact ⟨hmode, hgiven, hpending⟩
        · rw [ht] at hne
          refine ⟨fun ⟨s', h⟩ => ?_, fun ⟨command', hcommand, hawaits⟩ => ?_⟩
          · have hsafe := follows_unblocked.refuse unblocked_reply r (s.inDir cwd) trivial
            exact absurd rfl (hsafe.1 _ _ h)
          · obtain rfl := Option.some.inj hcommand
            cases hne.mp hawaits.1
      · obtain ⟨s₁, hs₁⟩ : ∃ s₁, executeCommand server ans (some command) s =
          (.error .undefined, s₁) :=
          executeCommand_lost hW hfinds
        refine ⟨fun ⟨s', h⟩ => ?_, fun ⟨command', hcommand, hawaits⟩ => ?_⟩
        · cases hs₁.symm.trans h
        · obtain rfl := Option.some.inj hcommand
          exact absurd (hawaits.2.1 W hW) hfinds

/-- The parser fails in one way only. -/
theorem parse_error {line : CStr} {e : Halt} (h : parseBuffer line = .error e) :
    e = .undefined := by
  by_cases hs : SingleSpaced line
  · by_cases hne : trim line = []
    · rw [(parseBuffer_eq_none_iff hs).mpr (trim_eq_nil_iff.mp hne)] at h
      cases h
    · obtain ⟨command, hp⟩ := parsedAs_of_singleSpaced hne hs
      cases hp.result.symm.trans h
  · cases (parseBuffer_undefined hs).symm.trans h
    rfl

/-- What follows the command in `handle_connection` waits for nobody. -/
theorem unblocked_leave (fd : Fd) (status : CommandStatus) :
    Unblocked (if status = .quit then (do
        dprintf fd .serviceClosing
        destroyConnection
        close fd
        return false)
      else return true : M Bool) := by
  have hdestroy : Unblocked destroyConnection := by
    refine fun s _ => ⟨fun e s' h => ?_, fun _ _ _ => trivial⟩
    rw [destroyConnection_apply] at h
    cases h
  exact prop_ite (fun _ => follows_unblocked.bind (unblocked_dprintf _ _) fun _ =>
    follows_unblocked.bind hdestroy fun _ => follows_unblocked.bind (unblocked_modify _) fun _ =>
      follows_unblocked.pure _) fun _ => follows_unblocked.pure _

theorem handleConnection_blocked_iff {fd : Fd} {line : CStr}
    (hW : s.conn.workingDirectory = some W) :
    (∃ s', handleConnection server ans fd (some line) s = (.error .blocked, s')) ↔
      LineAwaits server ans line s := by
  have hclient : handleClientCommand server ans (some line) =
      (lift (parseBuffer line) >>= fun command => executeCommand server ans command) := rfl
  unfold handleConnection LineAwaits
  rw [hclient]
  cases hparse : parseBuffer line with
  | error e =>
    obtain rfl := parse_error hparse
    have hnone : commandOf line = none := by
      rw [commandOf, hparse]
    have hstop : (lift (.error .undefined) >>= fun command => executeCommand server ans command)
        s = (.error .undefined, s) := rfl
    rw [hnone, bind_of_error hstop]
    constructor
    · rintro ⟨s', h⟩
      cases h
    · rintro ⟨command, h, -⟩
      cases h
  | ok parsed =>
    rw [commandOf_of_parse hparse, ← executeCommand_blocked_iff hW, lift_ok, pure_bind]
    rcases hx : executeCommand server ans parsed s with ⟨e | status, s₁⟩
    · rw [bind_of_error hx]
      constructor
      · rintro ⟨s', h⟩
        cases h
        exact ⟨_, rfl⟩
      · rintro ⟨s', h⟩
        cases h
        exact ⟨_, rfl⟩
    · rw [bind_of_ok hx]
      constructor
      · rintro ⟨s', h⟩
        exact absurd rfl ((unblocked_leave fd status s₁ trivial).1 _ _ h)
      · rintro ⟨s', h⟩
        cases h

/-- A part of the server that never waits. -/
theorem World.exec_unblocked {α : Type} {p : M α} (hp : Unblocked p) (w : World) (id : ConnId)
    (c : Connection) : w.exec id c p ≠ .error .blocked := by
  intro h
  unfold World.exec at h
  split at h
  next => cases h
  next e s' hx =>
    cases h
    exact (hp _ trivial).1 _ s' hx rfl

theorem World.exec_blocked_iff {α : Type} {p : M α} {w : World} {id : ConnId} {c : Connection} :
    w.exec id c p = .error .blocked ↔ ∃ s', p (Ctx.start w.os c) = (.error .blocked, s') := by
  unfold World.exec
  rcases p (Ctx.start w.os c) with ⟨e | a, s'⟩
  · exact ⟨fun h => (by cases h; exact ⟨s', rfl⟩), fun ⟨_, h⟩ => (by cases h; rfl)⟩
  · exact ⟨fun h => (by cases h), fun ⟨_, h⟩ => (by cases h)⟩

/-- A client is greeted without waiting. -/
theorem World.accept_unblocked (w : World) (server : ServerT) (fd : Fd) (addr : SockAddr) :
    w.accept server fd addr ≠ .error .blocked := by
  have hgreet : Unblocked (greet fd w.nextId) := by
    refine follows_unblocked.bind ?_ fun _ => unblocked_dprintf _ _
    rw [newDesc_eq]
    exact follows_unblocked.bind (follows_unblocked.gets _) fun _ =>
      prop_ite (fun _ => unblocked_modify _) fun _ => safe_fail (by simp)
  intro h
  unfold World.accept at h
  split at h
  next => cases h
  next e hexec =>
    cases h
    exact World.exec_unblocked hgreet _ _ _ hexec

end

/-! ## Where the loop waits -/

section

variable {u : Settings} {w w' : Loop} {events : List LoopEvent} {e : LoopEvent} {calls : Calls}
  {i : SlotIndex} {c : Client}

/-- The records in the slots have a working directory. -/
theorem directory_of_run (hrun : (loop u).run events = .ok w)
    (hopens : (loop u).Meets StreamOpens events) (hc : w.connections i = some c) :
    ∃ W, c.connection.workingDirectory = some W := by
  obtain ⟨S, hS, hT⟩ := tracks_of_run hrun hopens
  exact (speaks_of_run hS (hT.record i c hc)).2

/-- A turn of `getline` that has to wait. -/
theorem getlineTurn_blocked_iff {n : Nat} {taken buffer waiting : List Byte} {ended : Bool} :
    getlineTurn n taken buffer waiting ended = .blocked ↔
      newline ∉ buffer ∧ waiting = [] ∧ ended = false := by
  unfold getlineTurn
  by_cases hbuffer : newline ∈ buffer
  · rw [if_pos hbuffer]
    exact ⟨fun h => (by cases h), fun h => absurd hbuffer h.1⟩
  rw [if_neg hbuffer]
  by_cases hwaiting : waiting = []
  · rw [if_neg (not_not.mpr hwaiting)]
    cases ended with
    | false => exact ⟨fun _ => ⟨hbuffer, hwaiting, rfl⟩, fun _ => rfl⟩
    | true => exact ⟨fun h => (by cases h), fun h => (by cases h.2.2)⟩
  · rw [if_pos hwaiting]
    exact ⟨fun h => (by cases h), fun h => absurd h.2.1 hwaiting⟩

theorem map_error_iff {ε α β : Type} {x : Except ε α} {f : α → β} {e : ε} :
    x.map f = .error e ↔ x = .error e := by
  cases x with
  | ok a => exact ⟨fun h => (by cases h), fun h => (by cases h)⟩
  | error e' => exact ⟨fun h => (by cases h; rfl), fun h => (by cases h; rfl)⟩

/-- **Where the loop waits**, in the states it can reach: for the rest of a line, or for the
data connection of a transfer. -/
theorem blocked_iff (hrun : (loop u).run events = .ok w)
    (hopens : (loop u).Meets StreamOpens events) :
    w.server u calls = .error .blocked ↔ w.Stalls u calls := by
  unfold Loop.server Loop.Stalls
  cases hphase : w.phase with
  | polling =>
    dsimp only
    refine ⟨fun h => ?_, False.elim⟩
    split at h
    next => cases h
    next => split at h <;> cases h
  | accepting =>
    dsimp only
    refine ⟨fun h => ?_, False.elim⟩
    rw [map_error_iff] at h
    split at h
    next =>
      unfold acceptNewConnection at h
      split at h
      next => cases h
      next => exact World.accept_unblocked _ _ _ _ (map_eq_error h)
    next => cases h
  | serving k =>
    dsimp only
    refine ⟨fun h => ?_, False.elim⟩
    split at h <;> cases h
  | reading i taken =>
    dsimp only
    unfold readTurn
    cases hc : w.connections i with
    | none => exact ⟨fun h => (by cases h), fun ⟨c, h, _⟩ => (by cases h)⟩
    | some c =>
      dsimp only
      rcases hturn : getlineTurn u.bufsiz taken c.buffer (w.received c.id)
        (w.world.os.hungup c.id || (calls.interrupted && w.stopServer)) with
        ⟨bytes, rest⟩ | ⟨taken', buffer, waiting⟩ | bytes | _
      all_goals
        refine ⟨fun h => ?_, fun ⟨c', h, hstall⟩ => ?_⟩
      · cases h
      · cases h
        cases hturn.symm.trans (getlineTurn_blocked_iff.mpr hstall)
      · cases h
      · cases h
        cases hturn.symm.trans (getlineTurn_blocked_iff.mpr hstall)
      · cases h
      · cases h
        cases hturn.symm.trans (getlineTurn_blocked_iff.mpr hstall)
      · exact ⟨c, rfl, getlineTurn_blocked_iff.mp hturn⟩
      · rfl
  | executing i buffer =>
    dsimp only
    unfold executeTurn
    cases hc : w.connections i with
    | none =>
      cases buffer with
      | none => exact ⟨fun h => (by cases h), False.elim⟩
      | some line => exact ⟨fun h => (by cases h), fun ⟨c, h, _⟩ => (by cases hc.symm.trans h)⟩
    | some c =>
      obtain ⟨S, hS, hT⟩ := tracks_of_run hrun hopens
      obtain ⟨W, hW⟩ := directory_of_run hrun hopens hc
      rw [(hT.slot i c hc).2]
      dsimp only
      rw [map_error_iff, World.exec_blocked_iff]
      cases buffer with
      | none => exact ⟨fun ⟨s', h⟩ => (by cases h), False.elim⟩
      | some line =>
        rw [handleConnection_blocked_iff hW]
        refine ⟨fun h => ⟨c, hc, h⟩, fun ⟨c', hc', h⟩ => ?_⟩
        rwa [Option.some.inj (hc.symm.trans hc')]
  | stopping k =>
    dsimp only
    refine ⟨fun h => ?_, False.elim⟩
    split at h
    next i _ =>
      unfold destroyTurn at h
      cases hc : w.connections i with
      | none =>
        rw [hc] at h
        cases h
      | some c =>
        obtain ⟨S, hS, hT⟩ := tracks_of_run hrun hopens
        rw [hc, (hT.slot i c hc).2] at h
        have hexec := World.exec_blocked_iff.mp (map_eq_error h)
        obtain ⟨s', hs'⟩ := hexec
        have happly := serviceClosing_apply (Ctx.start w.world.os c.connection)
        rw [show (do
          dprintf c.connection.clientSockfd .serviceClosing
          destroyConnection
          close c.connection.clientSockfd : M Unit) _ = _ from happly] at hs'
        split at hs'
        next => cases hs'
        next => cases hs'
    next => cases h
  | stopped => exact ⟨fun h => (by cases h), False.elim⟩

/-! ## Held up -/

/-- A client that is waited for does nothing that would end the waiting. -/
def Idles (id : ConnId) : LoopEvent → Prop
  | .arrive id' bytes => id' = id → bytes = []
  | .hangup id' _ => id' ≠ id
  | .signal => False
  | _ => True

instance (id : ConnId) : ∀ e, Decidable (Idles id e)
  | .arrive .. => inferInstanceAs (Decidable (_ → _))
  | .hangup .. => inferInstanceAs (Decidable (¬ _))
  | .signal => .isFalse fun h => h
  | .server _ | .dataConnect _ | .child .. => .isTrue trivial

/-- The server is in the middle of a line of the client in the slot, and there is no more. -/
structure Loop.HeldUp (w : Loop) (i : SlotIndex) (taken : List Byte) (c : Client) : Prop where
  phase : w.phase = .reading i taken
  entry : w.connections i = some c
  buffer : newline ∉ c.buffer
  received : w.received c.id = []
  here : w.world.os.hungup c.id = false
  running : w.stopServer = false

/-- No step of the server is possible. -/
theorem Loop.HeldUp.blocked {taken : List Byte} (h : w.HeldUp i taken c) (calls : Calls) :
    w.step u (.server calls) = .error .blocked := by
  show w.server u calls = _
  unfold Loop.server
  rw [h.phase]
  dsimp only
  unfold readTurn
  rw [h.entry]
  dsimp only
  rw [getlineTurn_blocked_iff.mpr ⟨h.buffer, h.received, by rw [h.here, h.running]; simp⟩]

/-- Anything else leaves it at that. -/
theorem Loop.HeldUp.step {taken : List Byte} (h : w.HeldUp i taken c) (hidle : Idles c.id e)
    (hstep : w.step u e = .ok w') :
    (∀ calls, e ≠ .server calls) ∧ w'.HeldUp i taken c ∧ w'.connections = w.connections := by
  have hserver : ∀ calls, e ≠ .server calls := by
    rintro calls rfl
    cases (h.blocked calls).symm.trans hstep
  obtain ⟨-, hconns, hphase⟩ := arrays_elsewhere hserver hstep
  have hrunning : w'.stopServer = false ∧ w'.world.os.hungup c.id = false := by
    cases e with
    | server calls => exact absurd rfl (hserver calls)
    | arrive id bytes =>
      unfold Loop.step at hstep
      dsimp only at hstep
      split at hstep
      next => cases hstep
      next =>
        cases hstep
        exact ⟨h.running, h.here⟩
    | hangup id reset =>
      cases hstep
      exact ⟨h.running, (Function.update_of_ne hidle.symm ..).trans h.here⟩
    | dataConnect fd =>
      obtain ⟨world, hworld, rfl⟩ := map_eq_ok hstep
      obtain ⟨pending, -, rfl⟩ := World.dataConnect_eq_ok hworld
      exact ⟨h.running, h.here⟩
    | child k cans =>
      obtain ⟨world, hworld, rfl⟩ := map_eq_ok hstep
      obtain ⟨id, child, s, -, -, rfl⟩ := World.runChild_eq_ok hworld
      exact ⟨h.running, h.here⟩
    | signal => exact hidle.elim
  have hnothing : arrived c.id [e] = [] := by
    cases e with
    | arrive id bytes =>
      show (if id = c.id then bytes else []) ++ [] = []
      rw [List.append_nil]
      split
      next hid => exact hidle hid
      next => rfl
    | _ => rfl
  refine ⟨hserver, ⟨hphase.trans h.phase, ?_, h.buffer, ?_, hrunning.2, hrunning.1⟩, hconns⟩
  · rw [hconns]
    exact h.entry
  · rw [(received_elsewhere hserver hstep hrunning.2).2, h.received, hnothing]
    rfl

end

/-- **The server waits for one client only.** While it is in the middle of a client's line, and
that client sends nothing, stays, and no signal is caught, the server does not get any further,
whatever all the others do: no step of it is possible, no client's line is executed, nobody is
accepted. -/
theorem held_up_of_run (u : Settings) (events later : List LoopEvent) (w w' : Loop)
    (i : SlotIndex) (taken : List Byte) (c : Client) (hrun : (loop u).run events = .ok w)
    (hheld : w.HeldUp i taken c) (hidle : ∀ e ∈ later, Idles c.id e)
    (hrun' : (loop u).run (events ++ later) = .ok w') :
    (∀ calls, LoopEvent.server calls ∉ later) ∧ w'.phase = .reading i taken ∧
      w'.connections = w.connections ∧
      (∀ id, executed u id (events ++ later) = executed u id events) ∧
        ∀ calls, w'.step u (.server calls) = .error .blocked := by
  have key : (∀ calls, LoopEvent.server calls ∉ later) ∧ w'.HeldUp i taken c ∧
      w'.connections = w.connections ∧
        ∀ id, executed u id (events ++ later) = executed u id events := by
    induction later using List.reverseRecOn generalizing w' with
    | nil =>
      rw [List.append_nil] at hrun'
      obtain rfl := Except.ok.inj (hrun.symm.trans hrun')
      exact ⟨fun _ => List.not_mem_nil, hheld, rfl, fun id => by rw [List.append_nil]⟩
    | append_singleton later e ih =>
      rw [← List.append_assoc] at hrun' ⊢
      obtain ⟨w₀, hrun₀, hrest⟩ := Machine.runFrom_append_ok.mp hrun'
      obtain ⟨w₂, hstep, hend⟩ := Machine.runFrom_cons_ok hrest
      cases hend
      obtain ⟨hnone, hheld₀, hconns₀, hexec₀⟩ :=
        ih w₀ (fun e' he' => hidle e' (List.mem_append_left _ he')) hrun₀
      obtain ⟨hserver, hheld', hconns'⟩ := hheld₀.step (hidle e (by simp)) hstep
      refine ⟨fun calls hmem => ?_, hheld', hconns'.trans hconns₀, fun id => ?_⟩
      · rcases List.mem_append.mp hmem with hmem | hmem
        · exact hnone calls hmem
        · exact hserver calls (List.mem_singleton.mp hmem).symm
      · have hquiet : executedLine id w₀ e = none :=
          executedLine_eq_none fun j line => by rw [hheld₀.phase]; simp
        rw [executed_append hrun₀ hstep, hquiet, hexec₀]
        exact List.append_nil _
  exact ⟨key.1, key.2.1.phase, key.2.2.1, key.2.2.2, key.2.1.blocked⟩

/-- A client has sent half a word, and the server waits for the rest of it. -/
theorem held_up_first :
    ∃ w', (loop smallSettings).run (acceptOn 4 ++ [.arrive 0 (lit "NO")] ++
        List.replicate 4 (.server (.fine [1] 0)) ++ [.arrive 1 (lit "USER anonymous\r\n")]) =
          .ok w' ∧ ∀ calls, w'.step smallSettings (.server calls) = .error .blocked := by
  obtain ⟨w, hrun, hphase, hentry, hreceived, hhere, hstop⟩ : ∃ w, (loop smallSettings).run
      (acceptOn 4 ++ [.arrive 0 (lit "NO")] ++ List.replicate 4 (.server (.fine [1] 0))) = .ok w ∧
        (w.phase = .reading 1 [] ∧ w.connections 1 = some { firstClient with buffer := lit "NO" } ∧
          w.received 0 = [] ∧ w.world.os.hungup 0 = false ∧ w.stopServer = false) :=
    Machine.exists_of_run (by decide +kernel)
  obtain ⟨w', hrun', -⟩ : ∃ w', (loop smallSettings).run (acceptOn 4 ++ [.arrive 0 (lit "NO")] ++
      List.replicate 4 (.server (.fine [1] 0)) ++ [.arrive 1 (lit "USER anonymous\r\n")]) =
        .ok w' ∧ True := Machine.exists_of_run (by decide +kernel)
  refine ⟨w', hrun', (held_up_of_run smallSettings _ _ w w' 1 [] _ hrun
    ⟨hphase, hentry, by decide, hreceived, hhere, hstop⟩ ?_ hrun').2.2.2.2⟩
  intro e he
  obtain rfl := List.mem_singleton.mp he
  exact fun h => absurd h (by decide)

end MyFtp.Server
