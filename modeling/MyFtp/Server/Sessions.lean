import MyFtp.Prog.Machine
import MyFtp.Server.World

/-!
# The server, line by line

The machine the properties of the commands are stated on. Its events are what
can happen in any order: a client is accepted, a line of some client is
handled, a child runs, a client hangs up, a client connects to a data socket.
How bytes become lines, and in which order the main loop serves its slots, is
left open here, so what holds of every run of this machine holds whatever that
order is.

A step that does not end with the server ready for the next one — because the
handling of a line blocks, kills the process or is undefined — is not part of a
run.
-/

namespace MyFtp.Server

open MyFtp.Posix

/-- What can happen next. -/
inductive SessionEvent
  /-- The next client is accepted; `served` tells whether there is a slot left
  for it. -/
  | accept (fd : Fd) (addr : SockAddr) (served : Bool)
  /-- A line of a client is handled. -/
  | line (id : ConnId) (line : CStr) (ans : Answers)
  /-- A child runs. -/
  | child (k : Nat) (cans : ChildAnswers)
  /-- A client closes or resets its control connection. -/
  | hangup (id : ConnId)
  /-- A client connects to a data socket. -/
  | dataConnect (fd : Fd)

/-- The world and the record of every client that is served. -/
structure Sessions where
  world : World
  conns : ConnId → Option Connection

/-- The state after a line of the client `id` was handled. -/
def Sessions.handled (S : Sessions) (id : ConnId) : Bool × Connection × World → Sessions
  | (stays, c, w) =>
    { world := w, conns := Function.update S.conns id (if stays then some c else none) }

theorem handled_stays (S : Sessions) (id : ConnId) (c : Connection) (w : World) :
    (S.handled id (true, c, w)).conns id = some c := Function.update_self ..

theorem handled_leaves (S : Sessions) (id : ConnId) (c : Connection) (w : World) :
    (S.handled id (false, c, w)).conns id = none := Function.update_self ..

theorem handled_of_ne {id id' : ConnId} (h : id' ≠ id) (S : Sessions)
    (r : Bool × Connection × World) :
    (S.handled id r).conns id' = S.conns id' := Function.update_of_ne h ..

/-- Handle a line of the client `id`. -/
def Sessions.handleLine (server : ServerT) (S : Sessions) (id : ConnId) (line : CStr)
    (ans : Answers) : Except Halt Sessions :=
  match S.conns id with
  | none => .error .disabled
  | some c =>
    (S.world.exec id c (handleConnection server ans c.clientSockfd (some line))).map (S.handled id)

/-- One event. -/
def Sessions.step (server : ServerT) (S : Sessions) : SessionEvent → Except Halt Sessions
  | .accept fd addr served =>
    (S.world.accept server fd addr).map fun r =>
      { world := r.2
        conns := if served then Function.update S.conns S.world.nextId (some r.1) else S.conns }
  | .line id line ans => S.handleLine server id line ans
  | .child k cans =>
    (S.world.runChild server k cans).map fun world => { S with world }
  | .hangup id => .ok { S with world := S.world.hangup id }
  | .dataConnect fd => (S.world.dataConnect fd).map fun world => { S with world }

/-- The server as a machine. -/
def sessions (u : Setup) : Machine Sessions SessionEvent Halt :=
  { init := { world := u.world, conns := fun _ => none }
    step := Sessions.step u.server }

/-- The lines of one client, in the order they are handled. -/
def linesOf (id : ConnId) : List SessionEvent → List CStr
  | [] => []
  | .line id' line _ :: l => if id' = id then line :: linesOf id l else linesOf id l
  | _ :: l => linesOf id l

theorem linesOf_append (id : ConnId) (l l' : List SessionEvent) :
    linesOf id (l ++ l') = linesOf id l ++ linesOf id l' := by
  induction l with
  | nil => rfl
  | cons e l ih =>
    cases e with
    | line id' line ans =>
      rw [List.cons_append, linesOf, linesOf]
      split
      next => rw [ih, List.cons_append]
      next => exact ih
    | _ => exact ih

/-- A client is accepted on the descriptor 4 and sends some lines. -/
def oneClient (lines : List String) : List SessionEvent :=
  .accept 4 ⟨inaddrLoopback, 4000⟩ true :: lines.map fun l => .line 0 (lit l) (.fine 7)

/-! ## What a step can be -/

theorem map_eq_ok {ε α β : Type} {x : Except ε α} {f : α → β} {b : β} (h : x.map f = .ok b) :
    ∃ a, x = .ok a ∧ f a = b := by
  cases x with
  | ok a =>
    injection h with h
    exact ⟨a, rfl, h⟩
  | error e => cases h

theorem map_eq_error {ε α β : Type} {x : Except ε α} {f : α → β} {e : ε}
    (h : x.map f = .error e) : x = .error e := by
  cases x with
  | ok a => cases h
  | error e' =>
    injection h with h
    rw [h]

/-- The handling of a line, taken apart: the command was executed and the client
stays, or it was `QUIT` and the session is torn down. -/
theorem handleLine_eq_ok {server : ServerT} {S S' : Sessions} {id : ConnId} {line : CStr}
    {ans : Answers} (h : S.handleLine server id line ans = .ok S') :
    ∃ c parsed, S.conns id = some c ∧ parseBuffer line = .ok parsed ∧
      ((∃ status s, executeCommand server ans parsed (Ctx.start S.world.os c) = (.ok status, s) ∧
          status ≠ .quit ∧ S' = S.handled id (true, s.conn, S.world.merge id s)) ∨
        ∃ command, parsed = some command ∧ command.word = lit "QUIT" ∧
          S' = S.handled id (false, c, S.world.merge id (Ctx.start S.world.os c).goodbye)) := by
  unfold Sessions.handleLine at h
  split at h
  next => cases h
  next c hc =>
    obtain ⟨⟨stays, c', w'⟩, hexec, rfl⟩ := map_eq_ok h
    obtain ⟨s, hp, rfl, rfl⟩ := World.exec_eq_ok hexec
    obtain ⟨parsed, status, s₁, hparse, hx, ⟨hq, rfl, rfl⟩ | ⟨rfl, rfl, hs⟩⟩ :=
      handleConnection_eq_ok hp
    · exact ⟨c, parsed, hc, hparse, .inl ⟨status, s, hx, hq, rfl⟩⟩
    · obtain ⟨rfl, command, hcommand, hword⟩ := executeCommand_quit hx
      rw [hs rfl]
      exact ⟨c, parsed, hc, hparse, .inr ⟨command, hcommand, hword, rfl⟩⟩

/-- A line that is not `QUIT` is the execution of its command. -/
theorem handleLine_of_executeCommand {server : ServerT} {S : Sessions} {id : ConnId}
    {c : Connection} {line : CStr} {ans : Answers} {parsed : Option Command}
    (hc : S.conns id = some c) (hparse : parseBuffer line = .ok parsed)
    (hquit : ∀ command, parsed = some command → command.word ≠ lit "QUIT") :
    S.handleLine server id line ans =
      match executeCommand server ans parsed (Ctx.start S.world.os c) with
      | (.ok _, s) => .ok (S.handled id (true, s.conn, S.world.merge id s))
      | (.error e, _) => .error e := by
  have hcommand : handleClientCommand server ans (some line) =
      executeCommand server ans parsed := by
    show (Prog.lift (parseBuffer line) >>= fun command => executeCommand server ans command) = _
    rw [hparse, Prog.lift_ok, pure_bind]
  rw [Sessions.handleLine, hc]
  dsimp only
  match hx : executeCommand server ans parsed (Ctx.start S.world.os c) with
  | (.error e, s) =>
    have hline : handleConnection server ans c.clientSockfd (some line) (Ctx.start S.world.os c) =
        (.error e, s) := by
      rw [handleConnection, hcommand, Prog.bind_of_error hx]
    rw [World.exec, hline]
    rfl
  | (.ok status, s) =>
    have hstatus : status ≠ .quit := by
      rintro rfl
      obtain ⟨-, command, hcom, hword⟩ := executeCommand_quit hx
      exact hquit command hcom hword
    have hline : handleConnection server ans c.clientSockfd (some line) (Ctx.start S.world.os c) =
        (.ok true, s) := by
      rw [handleConnection, hcommand, Prog.bind_of_ok hx, if_neg hstatus]
      rfl
    rw [World.exec_of_ok hline]
    rfl

/-- A line whose parsing is undefined. -/
theorem handleLine_of_undefined {server : ServerT} {S : Sessions} {id : ConnId} {c : Connection}
    {line : CStr} {ans : Answers} {e : Halt} (hc : S.conns id = some c)
    (hparse : parseBuffer line = .error e) : S.handleLine server id line ans = .error e := by
  have hline : handleConnection server ans c.clientSockfd (some line) (Ctx.start S.world.os c) =
      (.error e, Ctx.start S.world.os c) := by
    rw [handleConnection]
    refine Prog.bind_of_error ?_ _
    show (Prog.lift (parseBuffer line) >>= fun command => executeCommand server ans command) _ = _
    rw [hparse]
    rfl
  rw [Sessions.handleLine, hc]
  dsimp only
  rw [World.exec, hline]
  rfl

/-- What `QUIT` does. -/
theorem handleLine_quit {server : ServerT} {S : Sessions} {id : ConnId} {c : Connection}
    {line : CStr} {ans : Answers} {command : Command} (hc : S.conns id = some c)
    (hparse : parseBuffer line = .ok (some command)) (hword : command.word = lit "QUIT") :
    S.handleLine server id line ans =
      if S.world.os.kills c.clientSockfd then .error .sigpipe
      else .ok (S.handled id (false, c, S.world.merge id (Ctx.start S.world.os c).goodbye)) := by
  have hx : handleConnection server ans c.clientSockfd (some line) (Ctx.start S.world.os c) =
      if S.world.os.kills c.clientSockfd then (.error .sigpipe, Ctx.start S.world.os c)
      else (.ok false, (Ctx.start S.world.os c).goodbye) := handleConnection_quit hparse hword _
  rw [Sessions.handleLine, hc]
  dsimp only
  by_cases hk : S.world.os.kills c.clientSockfd = true
  · rw [if_pos hk] at hx ⊢
    rw [World.exec, hx]
    rfl
  · rw [if_neg hk] at hx ⊢
    rw [World.exec_of_ok hx]
    rfl

/-- Where a record comes from: it was there and no line of its client was
handled, its client was just accepted, or a line of its client left it. -/
theorem record_cases {server : ServerT} {S S' : Sessions} {e : SessionEvent}
    (h : S.step server e = .ok S') {id : ConnId} {c : Connection} (hc : S'.conns id = some c) :
    (S.conns id = some c ∧ ∀ line ans, e ≠ .line id line ans) ∨
      (id = S.world.nextId ∧ ∃ fd addr, e = .accept fd addr true ∧
        c = initConnection server fd addr) ∨
      ∃ line ans c₀ parsed status s, e = .line id line ans ∧ S.conns id = some c₀ ∧
        parseBuffer line = .ok parsed ∧
        executeCommand server ans parsed (Ctx.start S.world.os c₀) = (.ok status, s) ∧
        c = s.conn ∧ S'.world = S.world.merge id s := by
  cases e with
  | accept fd addr served =>
    obtain ⟨⟨c₁, w⟩, hacc, rfl⟩ := map_eq_ok h
    obtain ⟨-, rfl, -⟩ := World.accept_eq_ok hacc
    cases served with
    | false => exact .inl ⟨hc, fun _ _ he => by cases he⟩
    | true =>
      dsimp only [if_true] at hc
      by_cases hid : id = S.world.nextId
      · rw [if_pos rfl, hid, Function.update_self] at hc
        exact .inr (.inl ⟨hid, fd, addr, rfl, (Option.some.inj hc).symm⟩)
      · rw [if_pos rfl, Function.update_of_ne hid] at hc
        exact .inl ⟨hc, fun _ _ he => by cases he⟩
  | line id' line ans =>
    obtain ⟨c₀, parsed, hc₀, hp, ⟨status, s, hx, -, rfl⟩ | ⟨command, -, -, rfl⟩⟩ :=
      handleLine_eq_ok h
    · by_cases hid : id = id'
      · subst hid
        simp only [Sessions.handled, Function.update_self, if_true] at hc
        exact .inr (.inr ⟨line, ans, c₀, parsed, status, s, rfl, hc₀, hp, hx,
          (Option.some.inj hc).symm, rfl⟩)
      · simp only [Sessions.handled, Function.update_of_ne hid] at hc
        exact .inl ⟨hc, fun _ _ he => hid (by cases he; rfl)⟩
    · by_cases hid : id = id'
      · subst hid
        simp [Sessions.handled] at hc
      · simp only [Sessions.handled, Function.update_of_ne hid] at hc
        exact .inl ⟨hc, fun _ _ he => hid (by cases he; rfl)⟩
  | child k cans =>
    obtain ⟨w, -, rfl⟩ := map_eq_ok h
    exact .inl ⟨hc, fun _ _ he => by cases he⟩
  | hangup id' =>
    injection h with h
    subst h
    exact .inl ⟨hc, fun _ _ he => by cases he⟩
  | dataConnect fd =>
    obtain ⟨w, -, rfl⟩ := map_eq_ok h
    exact .inl ⟨hc, fun _ _ he => by cases he⟩

/-- Clients are numbered as they are accepted. -/
theorem nextId_step {server : ServerT} {S S' : Sessions} {e : SessionEvent}
    (h : S.step server e = .ok S') :
    S.world.nextId ≤ S'.world.nextId ∧
      ∀ fd addr served, e = .accept fd addr served → S'.world.nextId = S.world.nextId + 1 := by
  cases e with
  | accept fd addr served =>
    obtain ⟨⟨c₁, w⟩, hacc, rfl⟩ := map_eq_ok h
    obtain ⟨-, -, rfl⟩ := World.accept_eq_ok hacc
    exact ⟨Nat.le_succ _, fun _ _ _ _ => rfl⟩
  | line id line ans =>
    obtain ⟨c, parsed, -, -, ⟨status, s, -, -, rfl⟩ | ⟨command, -, -, rfl⟩⟩ := handleLine_eq_ok h
    · exact ⟨Nat.le_refl _, fun _ _ _ he => by cases he⟩
    · exact ⟨Nat.le_refl _, fun _ _ _ he => by cases he⟩
  | child k cans =>
    obtain ⟨w, hw, rfl⟩ := map_eq_ok h
    obtain ⟨id, child, s, -, -, rfl⟩ := World.runChild_eq_ok hw
    exact ⟨Nat.le_refl _, fun _ _ _ he => by cases he⟩
  | hangup id =>
    injection h with h
    subst h
    exact ⟨Nat.le_refl _, fun _ _ _ he => by cases he⟩
  | dataConnect fd =>
    obtain ⟨w, hw, rfl⟩ := map_eq_ok h
    obtain ⟨pending, -, rfl⟩ := World.dataConnect_eq_ok hw
    exact ⟨Nat.le_refl _, fun _ _ _ he => by cases he⟩

theorem linesOf_singleton (id : ConnId) (e : SessionEvent) :
    (∃ line ans, e = .line id line ans ∧ linesOf id [e] = [line]) ∨
      ((∀ line ans, e ≠ .line id line ans) ∧ linesOf id [e] = []) := by
  cases e with
  | line id' line ans =>
    by_cases hid : id' = id
    · exact .inl ⟨line, ans, by rw [hid], by rw [linesOf, if_pos hid, linesOf]⟩
    · exact .inr ⟨fun _ _ he => hid (by cases he; rfl), by rw [linesOf, if_neg hid, linesOf]⟩
  | _ => exact .inr ⟨fun _ _ he => by simp at he, rfl⟩

/-- A client that was not accepted yet has no record and sent no line. -/
theorem fresh_of_run {u : Setup} {events : List SessionEvent} {S : Sessions}
    (h : (sessions u).run events = .ok S) :
    ∀ id, S.world.nextId ≤ id → S.conns id = none ∧ linesOf id events = [] := by
  refine Machine.run_invariant (m := sessions u)
    (I := fun events S => ∀ id, S.world.nextId ≤ id → S.conns id = none ∧ linesOf id events = [])
    (fun _ _ => ⟨rfl, rfl⟩) ?_ events S h
  intro events S e S' hI hstep id hid
  obtain ⟨hmono, hnext⟩ := nextId_step hstep
  obtain ⟨hnone, hlines⟩ := hI id (Nat.le_trans hmono hid)
  have hline : ∀ line ans, e ≠ .line id line ans := by
    rintro line ans rfl
    obtain ⟨c₀, -, hc₀, -⟩ := handleLine_eq_ok hstep
    rw [hnone] at hc₀
    cases hc₀
  refine ⟨?_, ?_⟩
  · by_contra hsome
    obtain ⟨c, hc⟩ := Option.ne_none_iff_exists'.mp hsome
    rcases record_cases hstep hc with ⟨hc', -⟩ | ⟨rfl, fd, addr, rfl, -⟩ | ⟨line, ans, _, _, _,
      _, he, _⟩
    · rw [hnone] at hc'
      cases hc'
    · rw [hnext fd addr true rfl] at hid
      exact absurd hid (Nat.not_succ_le_self _)
    · exact hline line ans he
  · rw [linesOf_append, hlines]
    rcases linesOf_singleton id e with ⟨line, ans, he, -⟩ | ⟨-, hl⟩
    · exact absurd he (hline line ans)
    · rw [hl, List.nil_append]

end MyFtp.Server
