import MyFtp.Server.Leaks

/-!
# Connections that end

A child gets a copy of every open descriptor, and keeps it until it exits. A
connection is over when no process has a descriptor for it, so what a client sees
depends on the children of the others. Here every descriptor carries the moment at
which it was opened, and a child the moment of its fork.

> `released_of_run`: a client that left and a transfer that is done are let go by
> every process, as long as no child of another client is running that was forked
> since the descriptor was opened.
-/

namespace MyFtp.Server

open MyFtp.Posix
open Prog

/-! ## Who has which descriptor -/

/-- An open file: the descriptor the server process got for it, and when. -/
structure File where
  fd : Fd
  openedAt : Nat
  deriving DecidableEq

/-- A child that is running: when it was forked, and when the descriptors of its copy
were opened. -/
structure Running where
  client : ConnId
  child : Child
  forkedAt : Nat
  opened : Fd → Nat

/-- A transfer: when its child was forked, and its data connection. -/
structure Transfer where
  forkedAt : Nat
  file : File

/-- The server, with the descriptors of all its processes. -/
structure Tables where
  sessions : Sessions
  /-- The number of the next step; what is open at the start was opened by the step 0. -/
  clock : Nat
  opened : Fd → Nat
  running : List Running
  /-- The client sent `QUIT`. -/
  quit : ConnId → Bool
  transfers : List Transfer

/-- A table has a descriptor for the open file. -/
def Holds (desc : DescTable) (opened : Fd → Nat) (f : File) : Prop :=
  desc f.fd ≠ none ∧ opened f.fd = f.openedAt

instance (desc : DescTable) (opened : Fd → Nat) (f : File) : Decidable (Holds desc opened f) :=
  inferInstanceAs (Decidable (_ ∧ _))

/-- The children that a step forks. -/
def forkedIn (S S' : Sessions) : List (ConnId × Child) :=
  S'.world.children.drop S.world.children.length

/-- When the descriptors were opened, after a step that opens those that are free. -/
def Tables.openedIn (w : Tables) (fd : Fd) : Nat :=
  if w.sessions.world.os.desc fd = none then w.clock else w.opened fd

/-- The children that are left when one of them exits. -/
def Tables.remaining (w : Tables) : SessionEvent → List Running
  | .child k _ => w.running.eraseIdx k
  | _ => w.running

/-- The descriptor of the data connection a child was given. -/
def Child.dataFd (child : Child) : Option Fd :=
  child.connection.dataSocket.bind DataSocket.clientSockfd

/-- All descriptors after a step of the server. -/
def Tables.after (w : Tables) (e : SessionEvent) (S' : Sessions) : Tables :=
  { sessions := S'
    clock := w.clock + 1
    opened := w.openedIn
    running := w.remaining e ++
      (forkedIn w.sessions S').map fun x => ⟨x.1, x.2, w.clock, w.openedIn⟩
    quit := fun id => w.quit id || ((w.sessions.conns id).isSome && (S'.conns id).isNone)
    transfers := w.transfers ++ (forkedIn w.sessions S').filterMap fun x =>
      x.2.dataFd.map fun fd => ⟨w.clock, fd, w.openedIn fd⟩ }

/-- No child of another client is running that was forked since the descriptor was
opened. -/
def Tables.Alone (w : Tables) (id : ConnId) (fd : Fd) : Prop :=
  ∀ r ∈ w.running, r.client ≠ id → r.forkedAt ≤ w.opened fd

/-- The line gives up a connection that no child of another client has a copy of: `QUIT`
the control connection, a transfer that forks a child an active data connection. -/
def GivesUpAlone (server : ServerT) (w : Tables) : SessionEvent → Prop
  | .line id line ans => ∀ c ∈ w.sessions.conns id, ∀ command ∈ commandOf line,
      (command.word = lit "QUIT" → w.Alone id c.clientSockfd) ∧
      (transferOf server (Ctx.start w.sessions.world.os c) command ≠ none → ans.connect = true →
        ans.fork = true → ∀ d ∈ c.dataSocket, ∀ fd ∈ d.clientSockfd, w.Alone id fd)
  | _ => True

instance (w : Tables) (id : ConnId) (fd : Fd) : Decidable (w.Alone id fd) :=
  inferInstanceAs (Decidable (∀ r ∈ w.running, _))

instance (server : ServerT) (w : Tables) : ∀ e, Decidable (GivesUpAlone server w e)
  | .line id .. => inferInstanceAs (Decidable (∀ c ∈ w.sessions.conns id, _))
  | .accept .. | .child .. | .hangup _ | .dataConnect _ => .isTrue trivial

/-! ## What a step forks -/

section

variable {u : Setup} {S S' : Sessions} {events : List SessionEvent} {id : ConnId} {line : CStr}
  {ans : Answers} {e : SessionEvent}

/-- A data connection: the socket of an active data socket, or a new descriptor. -/
theorem Reached.fd {desc desc₁ : DescTable} {d d₁ : DataSocket} {connected : Bool}
    (h : Reached ans desc d connected d₁ desc₁) (hunused : d.Unused) (hconn : connected = true) :
    ∃ fd, d₁.clientSockfd = some fd ∧
      (desc fd = none ∨ ans.connect = true ∧ d.clientSockfd = some fd) ∧
        ∀ fd', (desc₁ fd' ≠ none → desc fd' ≠ none ∨ fd' = fd) ∧
          ∀ id, desc₁ fd' = some (.control id) → desc fd' = some (.control id) := by
  cases h with
  | active hmode =>
    unfold DataSocket.Unused at hunused
    rw [hmode] at hunused
    obtain ⟨-, fd, hfd⟩ := hunused
    exact ⟨fd, hfd, .inr ⟨hconn, hfd⟩, fun fd' => ⟨fun h => .inl h, fun id h => h⟩⟩
  | refused => cases hconn
  | accepted l newFd pending peer hmode hl hpending hfree haccept =>
    refine ⟨newFd, rfl, .inl hfree, fun fd' => ?_⟩
    by_cases hnew : fd' = newFd
    · rw [hnew, Function.update_self]
      exact ⟨fun _ => .inr rfl, fun id h => (by cases h)⟩
    rw [Function.update_of_ne hnew]
    by_cases hlis : fd' = l
    · rw [hlis, Function.update_self, hpending]
      exact ⟨fun _ => .inl (by simp), fun id h => (by cases h)⟩
    · rw [Function.update_of_ne hlis]
      exact ⟨fun h => .inl h, fun id h => h⟩

/-- A line forks one child for the client `id`, with `fd` for its data connection. -/
structure Forks (server : ServerT) (S S' : Sessions) (id : ConnId) (line : CStr) (ans : Answers)
    (child : Child) (fd : Fd) : Prop where
  children : S'.world.children = S.world.children ++ [(id, child)]
  dataFd : child.dataFd = some fd
  given : S.world.os.desc fd = none ∨ ∃ c command d, S.conns id = some c ∧
    commandOf line = some command ∧
      transferOf server (Ctx.start S.world.os c) command ≠ none ∧ ans.connect = true ∧
        ans.fork = true ∧ c.dataSocket = some d ∧ d.clientSockfd = some fd
  closed : S'.world.os.desc fd = none
  dropped : ∀ c', S'.conns id = some c' → c'.dataSocket = none
  copies : ∀ fd', child.desc fd' ≠ none → S.world.os.desc fd' ≠ none ∨ fd' = fd
  control : ∀ fd' id', child.desc fd' = some (.control id') →
    S.world.os.desc fd' = some (.control id')

/-- A line of a client: what was forked, if it forks. -/
theorem line_forks (hrun : (sessions u).run events = .ok S)
    (h : S.step u.server (.line id line ans) = .ok S') :
    S'.world.children = S.world.children ∨ ∃ child fd,
      Forks u.server S S' id line ans child fd := by
  obtain ⟨c, status, s, hc, -, hout, rfl⟩ := line_outcome hrun h
  obtain ⟨hspeaks, -⟩ := speaks_of_run hrun hc
  by_cases hquit : status = .quit
  · rw [hquit, after_of_quit]
    exact .inl (List.append_nil _)
  rw [after_of_ne hquit]
  obtain ⟨l, -, ⟨-, hforked⟩ |
    ⟨command, body, cwd, d, d₁, desc₁, hparsed, hbody, -, hd, hreach, hfork, rfl⟩⟩ :=
      hout.said hspeaks hquit
  · left
    show S.world.children ++ s.forked.map (id, ·) = _
    rw [hforked]
    exact List.append_nil _
  · right
    have hchildren : (Ctx.transferred ((Ctx.start S.world.os c).inDir cwd) id ans body command true
        d₁ desc₁).forked.map (id, ·) =
          [(id, ⟨body, command, { c with dataSocket := some d₁ }, cwd, desc₁⟩)] := by
      simp [Ctx.transferred, transferChildren, hfork, Ctx.start]
    have hunused := unused_of_run hrun id c d hc hd
    obtain ⟨fd, hfd, hgiven, hcopies⟩ := hreach.fd hunused rfl
    refine ⟨⟨body, command, { c with dataSocket := some d₁ }, cwd, desc₁⟩, fd, ?_, hfd, ?_, ?_, ?_,
      fun fd' => (hcopies fd').1, fun fd' id' => (hcopies fd').2 id'⟩
    · exact congrArg (S.world.children ++ ·) hchildren
    · refine hgiven.imp_right fun hforks => ?_
      obtain ⟨hconnect, hgive⟩ := hforks
      refine ⟨c, command, d, hc, hparsed, ?_, hconnect, hfork, hd, hgive⟩
      rw [hbody]
      simp
    · show d₁.destroyed desc₁ fd = none
      rw [d₁.destroyed_of_some hfd]
      exact Function.update_self ..
    · intro c' hc'
      rw [handled_stays] at hc'
      obtain rfl := Option.some.inj hc'
      rfl

/-- What a step forks: nothing, or a line forks one child. -/
theorem forkedIn_cases (hrun : (sessions u).run events = .ok S)
    (h : S.step u.server e = .ok S') :
    forkedIn S S' = [] ∨ ∃ id line ans child fd, e = .line id line ans ∧
      forkedIn S S' = [(id, child)] ∧ Forks u.server S S' id line ans child fd := by
  have hsame : S'.world.children = S.world.children → forkedIn S S' = [] := by
    intro hc
    unfold forkedIn
    rw [hc, List.drop_length]
  cases e with
  | accept fd addr served =>
    obtain ⟨⟨c, w⟩, hacc, rfl⟩ := map_eq_ok h
    obtain ⟨-, -, rfl⟩ := World.accept_eq_ok hacc
    exact .inl (hsame rfl)
  | line id line ans =>
    rcases line_forks hrun h with hnone | ⟨child, fd, hf⟩
    · exact .inl (hsame hnone)
    · refine .inr ⟨id, line, ans, child, fd, rfl, ?_, hf⟩
      unfold forkedIn
      rw [hf.children, List.drop_left]
  | child k cans =>
    obtain ⟨w, hw, rfl⟩ := map_eq_ok h
    obtain ⟨id, child, s, -, -, rfl⟩ := World.runChild_eq_ok hw
    left
    unfold forkedIn
    dsimp only
    exact List.drop_eq_nil_of_le (List.length_eraseIdx_le ..)
  | hangup id =>
    cases h
    exact .inl (hsame rfl)
  | dataConnect fd =>
    obtain ⟨w, hw, rfl⟩ := map_eq_ok h
    obtain ⟨pending, -, rfl⟩ := World.dataConnect_eq_ok hw
    exact .inl (hsame rfl)

/-- A client loses its record to `QUIT`. -/
theorem quit_of_leaves {c : Connection} (h : S.step u.server e = .ok S')
    (hc : S.conns id = some c) (hnone : S'.conns id = none) :
    ∃ line ans command, e = .line id line ans ∧ commandOf line = some command ∧
      command.word = lit "QUIT" := by
  cases e with
  | accept fd addr served =>
    obtain ⟨⟨c', w⟩, hacc, rfl⟩ := map_eq_ok h
    dsimp only at hnone
    split at hnone
    next =>
      by_cases hid : id = S.world.nextId
      · rw [hid, Function.update_self] at hnone
        cases hnone
      · rw [Function.update_of_ne hid, hc] at hnone
        cases hnone
    next =>
      rw [hc] at hnone
      cases hnone
  | line id' line ans =>
    obtain ⟨c', parsed, hc', hparse, ⟨status, s, -, -, rfl⟩ | ⟨command, rfl, hword, rfl⟩⟩ :=
      handleLine_eq_ok h
    · by_cases hid : id = id'
      · rw [hid, handled_stays] at hnone
        cases hnone
      · rw [handled_of_ne hid, hc] at hnone
        cases hnone
    · by_cases hid : id = id'
      · exact ⟨line, ans, command, by rw [hid], commandOf_of_parse hparse, hword⟩
      · rw [handled_of_ne hid, hc] at hnone
        cases hnone
  | child k cans =>
    obtain ⟨w, hw, rfl⟩ := map_eq_ok h
    rw [hc] at hnone
    cases hnone
  | hangup id' =>
    cases h
    rw [hc] at hnone
    cases hnone
  | dataConnect fd =>
    obtain ⟨w, hw, rfl⟩ := map_eq_ok h
    rw [hc] at hnone
    cases hnone

/-- What a record stores after a step: descriptors it stored before, or new ones. -/
theorem dataFds_step {c' : Connection} {fd : Fd} (hrun : (sessions u).run events = .ok S)
    (h : S.step u.server e = .ok S') (hc' : S'.conns id = some c') (hfd : fd ∈ c'.dataFds) :
    (∃ c, S.conns id = some c ∧ fd ∈ c.dataFds) ∨ S.world.os.desc fd = none := by
  rcases record_cases h hc' with ⟨hsame, -⟩ | ⟨-, fd', addr, -, rfl⟩ |
    ⟨line, ans, c, parsed, status, s, -, hc, -, hx, rfl, -⟩
  · exact .inl ⟨c', hsame, hfd⟩
  · obtain ⟨d, hd, -⟩ := mem_dataFds.mp hfd
    cases hd
  · have hown : OwnStep id (Ctx.start S.world.os c) s :=
      executeCommand_keepsToItself hx ((sound_of_run hrun).owns id c hc)
    exact (hown.taken fd hfd).imp_left fun hmem => ⟨c, hc, hmem⟩

/-- A control connection in the server process belongs to a client that is served, or was
turned away; the client is known either way. -/
theorem control_known {fd : Fd} (hrun : (sessions u).run events = .ok S)
    (hfd : S.world.os.desc fd = some (.control id)) : id < S.world.nextId := by
  rcases (controls_of_run hrun).control fd id hfd with ⟨c, hc, -⟩ | ⟨S₁, addr, S₂, htook⟩
  · by_contra hnot
    rw [(fresh_of_run hrun id (Nat.le_of_not_lt hnot)).1] at hc
    cases hc
  · obtain ⟨hctl, -, hlt⟩ := (controls_of_run hrun).refused S₁ fd addr S₂ htook
    rw [hfd] at hctl
    cases hctl
    exact hlt

/-- A client that is served has one descriptor for its control connection. -/
theorem control_unique {fd : Fd} {c : Connection} (hrun : (sessions u).run events = .ok S)
    (hc : S.conns id = some c) (hfd : S.world.os.desc fd = some (.control id)) :
    fd = c.clientSockfd := by
  rcases (controls_of_run hrun).control fd id hfd with ⟨c', hc', rfl⟩ | ⟨S₁, addr, S₂, htook⟩
  · obtain rfl : c = c' := Option.some.inj (hc.symm.trans hc')
    rfl
  · obtain ⟨hctl, hnone, -⟩ := (controls_of_run hrun).refused S₁ fd addr S₂ htook
    rw [hfd] at hctl
    cases hctl
    rw [hc] at hnone
    cases hnone

end

/-! ## What the copies have in common with the server's own descriptors -/

/-- A running child against the server process: what it has copied was open when it was
forked. A file the server process still has was opened before; so was a control
connection of a client that is served. What is stored for the child's client is newer
than the child. -/
structure Running.Tracked (w : Tables) (r : Running) : Prop where
  past : r.forkedAt < w.clock
  copied : ∀ fd, r.child.desc fd ≠ none → r.opened fd ≤ r.forkedAt
  shared : ∀ fd, r.child.desc fd ≠ none → w.sessions.world.os.desc fd ≠ none →
    r.opened fd = w.opened fd → r.opened fd < r.forkedAt
  known : ∀ fd id, r.child.desc fd = some (.control id) → id < w.sessions.world.nextId
  served : ∀ fd id c, r.child.desc fd = some (.control id) → w.sessions.conns id = some c →
    fd = c.clientSockfd ∧ w.opened fd < r.forkedAt
  stored : ∀ c fd, w.sessions.conns r.client = some c → fd ∈ c.dataFds →
    ¬ Holds r.child.desc r.opened ⟨fd, w.opened fd⟩

/-- All running children, and the descriptors of the server process. -/
structure Tables.Tracked (u : Setup) (w : Tables) : Prop where
  reachable : ∃ events, (MyFtp.Server.sessions u).run events = .ok w.sessions
  opened : ∀ fd, w.sessions.world.os.desc fd ≠ none → w.opened fd < w.clock
  running : ∀ r ∈ w.running, r.Tracked w

section

variable {u : Setup} {w : Tables} {S' : Sessions} {e : SessionEvent} {id : ConnId} {r : Running}
  {fd : Fd}

theorem openedIn_of_open (h : w.sessions.world.os.desc fd ≠ none) : w.openedIn fd = w.opened fd :=
  if_neg h

theorem openedIn_of_free (h : w.sessions.world.os.desc fd = none) : w.openedIn fd = w.clock :=
  if_pos h

theorem Tables.Tracked.openedIn_lt (hI : w.Tracked u) (h : w.sessions.world.os.desc fd ≠ none) :
    w.openedIn fd < w.clock := by
  rw [openedIn_of_open h]
  exact hI.opened fd h

theorem mem_remaining (h : r ∈ w.remaining e) : r ∈ w.running := by
  cases e with
  | child k cans => exact List.mem_of_mem_eraseIdx h
  | _ => exact h

/-- A child does not hold what is opened after its fork. -/
theorem Running.Tracked.not_holds_new (hr : r.Tracked w) (h : w.sessions.world.os.desc fd = none) :
    ¬ Holds r.child.desc r.opened ⟨fd, w.openedIn fd⟩ := by
  rintro ⟨hopen, hsame⟩
  have hle := hr.copied fd hopen
  have hlt := hr.past
  have hsame' : r.opened fd = w.openedIn fd := hsame
  rw [openedIn_of_free h] at hsame'
  omega

/-- A child that was there before the step. -/
theorem Running.Tracked.step {events : List SessionEvent} (hr : r.Tracked w)
    (hrun : (sessions u).run events = .ok w.sessions)
    (h : w.sessions.step u.server e = .ok S') : r.Tracked (w.after e S') := by
  have hmono : w.sessions.world.nextId ≤ S'.world.nextId := (nextId_step h).1
  refine ⟨Nat.lt_succ_of_lt hr.past, hr.copied, fun fd hopen hopen' hsame => ?_,
    fun fd id hctl => Nat.lt_of_lt_of_le (hr.known fd id hctl) hmono, fun fd id c' hctl hc' => ?_,
    fun c' fd hc' hfd hholds => ?_⟩
  · have hsame' : r.opened fd = w.openedIn fd := hsame
    by_cases hfree : w.sessions.world.os.desc fd = none
    · exact absurd ⟨hopen, hsame'⟩ (hr.not_holds_new hfree)
    · rw [openedIn_of_open hfree] at hsame'
      exact hr.shared fd hopen hfree hsame'
  · have hc'' : S'.conns id = some c' := hc'
    cases hc : w.sessions.conns id with
    | none =>
      -- a client that was accepted in this step is not the one the child knows
      have hlt := hr.known fd id hctl
      rcases record_cases h hc'' with ⟨hsome, -⟩ | ⟨hid, -⟩ | ⟨_, _, c, _, _, _, -, hsome, -⟩
      · cases hc.symm.trans hsome
      · exact absurd hid (Nat.ne_of_lt hlt)
      · cases hc.symm.trans hsome
    | some c =>
      obtain ⟨hfd, hlt⟩ := hr.served fd id c hctl hc
      have hctl' := ((sound_of_run hrun).owns id c hc).control
      have hopen : w.sessions.world.os.desc fd ≠ none := by
        rw [hfd, hctl']
        simp
      refine ⟨?_, ?_⟩
      · rw [control_step hrun h hc hc'']
        exact hfd
      · show w.openedIn fd < r.forkedAt
        rw [openedIn_of_open hopen]
        exact hlt
  · have hholds' : Holds r.child.desc r.opened ⟨fd, w.openedIn fd⟩ := hholds
    rcases dataFds_step hrun h hc' hfd with ⟨c, hc, hmem⟩ | hfree
    · have hopen := ((sound_of_run hrun).owns r.client c hc).isOpen (.inr hmem)
      rw [openedIn_of_open hopen] at hholds'
      exact hr.stored c fd hc hmem hholds'
    · exact hr.not_holds_new hfree hholds'

/-- A child that is forked in the step. -/
theorem Forks.tracked {line : CStr} {ans : Answers} {child : Child} {events : List SessionEvent}
    (hf : Forks u.server w.sessions S' id line ans child fd) (hI : w.Tracked u)
    (hrun : (sessions u).run events = .ok w.sessions)
    (h : w.sessions.step u.server e = .ok S') :
    Running.Tracked (w.after e S') ⟨id, child, w.clock, w.openedIn⟩ := by
  refine ⟨Nat.lt_succ_self _, fun fd' hopen => ?_, fun fd' hopen hopen' _ => ?_,
    fun fd' id' hctl => ?_, fun fd' id' c' hctl hc' => ?_, fun c' fd' hc' hfd' => ?_⟩
  · show w.openedIn fd' ≤ w.clock
    by_cases hfree : w.sessions.world.os.desc fd' = none
    · exact Nat.le_of_eq (openedIn_of_free hfree)
    · exact Nat.le_of_lt (hI.openedIn_lt hfree)
  · show w.openedIn fd' < w.clock
    rcases hf.copies fd' hopen with hold | rfl
    · exact hI.openedIn_lt hold
    · exact absurd hf.closed hopen'
  · exact Nat.lt_of_lt_of_le (control_known hrun (hf.control fd' id' hctl)) (nextId_step h).1
  · have hctl' := hf.control fd' id' hctl
    have hopen : w.sessions.world.os.desc fd' ≠ none := by
      rw [hctl']
      simp
    refine ⟨?_, hI.openedIn_lt hopen⟩
    cases hc : w.sessions.conns id' with
    | none =>
      have hlt := control_known hrun hctl'
      rcases record_cases h hc' with ⟨hsome, -⟩ | ⟨hid, -⟩ | ⟨_, _, c, _, _, _, -, hsome, -⟩
      · cases hc.symm.trans hsome
      · exact absurd hid (Nat.ne_of_lt hlt)
      · cases hc.symm.trans hsome
    | some c =>
      rw [control_step hrun h hc hc']
      exact control_unique hrun hc hctl'
  · obtain ⟨d, hd, -⟩ := mem_dataFds.mp hfd'
    rw [hf.dropped c' hc'] at hd
    cases hd

theorem Tables.Tracked.step (hI : w.Tracked u) (h : w.sessions.step u.server e = .ok S') :
    (w.after e S').Tracked u := by
  obtain ⟨events, hrun⟩ := hI.reachable
  refine ⟨⟨events ++ [e], Machine.run_append_step hrun h⟩, fun fd _ => ?_, fun r hr => ?_⟩
  · show w.openedIn fd < w.clock + 1
    by_cases hfree : w.sessions.world.os.desc fd = none
    · rw [openedIn_of_free hfree]
      omega
    · exact Nat.lt_succ_of_lt (hI.openedIn_lt hfree)
  · have hr' : r ∈ w.remaining e ++
      (forkedIn w.sessions S').map fun x => ⟨x.1, x.2, w.clock, w.openedIn⟩ := hr
    rcases List.mem_append.mp hr' with hold | hnew
    · exact (hI.running r (mem_remaining hold)).step hrun h
    · rcases forkedIn_cases hrun h with hnone | ⟨id, line, ans, child, fd, -, hone, hf⟩
      · rw [hnone] at hnew
        cases hnew
      · rw [hone] at hnew
        obtain rfl := List.mem_singleton.mp hnew
        exact hf.tracked hI hrun h

/-! ## Letting go -/

/-- A client that left is known to its own children only. -/
structure Tables.Left (w : Tables) (id : ConnId) : Prop where
  record : w.sessions.conns id = none
  known : id < w.sessions.world.nextId
  parent : ∀ fd, w.sessions.world.os.desc fd ≠ some (.control id)
  children : ∀ r ∈ w.running, ∀ fd, r.child.desc fd = some (.control id) → r.client = id

/-- A data connection is held by the child of its transfer only. -/
structure Tables.HasTransfer (w : Tables) (t : Transfer) : Prop where
  order : t.file.openedAt ≤ t.forkedAt
  past : t.forkedAt < w.clock
  parent : ¬ Holds w.sessions.world.os.desc w.opened t.file
  children : ∀ r ∈ w.running, Holds r.child.desc r.opened t.file → r.forkedAt = t.forkedAt

/-- A child is one that was running before, or the one that a line forked. -/
theorem running_after {events : List SessionEvent} (hrun : (sessions u).run events = .ok w.sessions)
    (h : w.sessions.step u.server e = .ok S') (hr : r ∈ (w.after e S').running) :
    r ∈ w.running ∨ ∃ id line ans child fd, e = .line id line ans ∧
      r = ⟨id, child, w.clock, w.openedIn⟩ ∧
        Forks u.server w.sessions S' id line ans child fd := by
  have hr' : r ∈ w.remaining e ++
    (forkedIn w.sessions S').map fun x => ⟨x.1, x.2, w.clock, w.openedIn⟩ := hr
  rcases List.mem_append.mp hr' with hold | hnew
  · exact .inl (mem_remaining hold)
  · right
    rcases forkedIn_cases hrun h with hnone | ⟨id, line, ans, child, fd, he, hone, hf⟩
    · rw [hnone] at hnew
      cases hnew
    · rw [hone] at hnew
      exact ⟨id, line, ans, child, fd, he, List.mem_singleton.mp hnew, hf⟩

/-- Nobody finds the control connection of a client that left again. -/
theorem left_later {events : List SessionEvent} (hL : w.Left id)
    (hrun : (sessions u).run events = .ok w.sessions)
    (h : w.sessions.step u.server e = .ok S') : (w.after e S').Left id := by
  have hmono : w.sessions.world.nextId ≤ S'.world.nextId := (nextId_step h).1
  refine ⟨?_, Nat.lt_of_lt_of_le hL.known hmono, fun fd hfd => ?_, fun r hr fd hfd => ?_⟩
  · by_contra hsome
    obtain ⟨c, hc⟩ := Option.ne_none_iff_exists'.mp hsome
    rcases record_cases h hc with ⟨hc', -⟩ | ⟨hid, -⟩ | ⟨_, _, c₀, _, _, _, -, hc', -⟩
    · cases hL.record.symm.trans hc'
    · exact absurd hid (Nat.ne_of_lt hL.known)
    · cases hL.record.symm.trans hc'
  · rcases (plain_step hrun h rfl fd).mp hfd with ⟨hold, -⟩ | ⟨_, _, -, hid⟩
    · exact hL.parent fd hold
    · cases hid
      exact Nat.lt_irrefl _ hL.known
  · rcases running_after hrun h hr with hold | ⟨id', line, ans, child, fd', -, rfl, hf⟩
    · exact hL.children r hold fd hfd
    · exact absurd (hf.control fd id hfd) (hL.parent fd)

/-- A client leaves. Its control connection is closed, and no child of another client
has a copy of it. -/
theorem left_of_quit {events : List SessionEvent} {c : Connection} (hI : w.Tracked u)
    (hC : GivesUpAlone u.server w e) (hrun : (sessions u).run events = .ok w.sessions)
    (h : w.sessions.step u.server e = .ok S') (hc : w.sessions.conns id = some c)
    (hnone : S'.conns id = none) : (w.after e S').Left id := by
  obtain ⟨line, ans, command, rfl, hparsed, hword⟩ := quit_of_leaves h hc hnone
  have halone : w.Alone id c.clientSockfd := (hC c hc command hparsed).1 hword
  have hknown : id < w.sessions.world.nextId := by
    by_contra hnot
    rw [(fresh_of_run hrun id (Nat.le_of_not_lt hnot)).1] at hc
    cases hc
  refine ⟨hnone, Nat.lt_of_lt_of_le hknown (nextId_step h).1, fun fd hfd => ?_,
    fun r hr fd hfd => ?_⟩
  · rcases (plain_step hrun h rfl fd).mp hfd with ⟨hold, hends⟩ | ⟨_, _, he, -⟩
    · exact hends id c hc hnone (control_unique hrun hc hold)
    · cases he
  · rcases running_after hrun h hr with hold | ⟨id', line', ans', child, fd', he, rfl, -⟩
    · obtain ⟨hctl, hlt⟩ := (hI.running r hold).served fd id c hfd hc
      by_contra hother
      rw [hctl] at hlt
      exact absurd (halone r hold hother) (Nat.not_le_of_lt hlt)
    · cases he
      rfl

/-- Nobody finds the data connection of a transfer again. -/
theorem hasTransfer_later {events : List SessionEvent} {t : Transfer} (hT : w.HasTransfer t)
    (hrun : (sessions u).run events = .ok w.sessions)
    (h : w.sessions.step u.server e = .ok S') : (w.after e S').HasTransfer t := by
  have horder := hT.order
  have hpast := hT.past
  have hnot : ∀ desc : DescTable, ¬ Holds desc w.openedIn t.file := by
    rintro desc ⟨-, hsame⟩
    by_cases hfree : w.sessions.world.os.desc t.file.fd = none
    · -- what was opened in this step is a file of its own
      rw [openedIn_of_free hfree] at hsame
      omega
    · rw [openedIn_of_open hfree] at hsame
      exact hT.parent ⟨hfree, hsame⟩
  refine ⟨horder, Nat.lt_succ_of_lt hpast, hnot _, fun r hr hholds => ?_⟩
  rcases running_after hrun h hr with hold | ⟨id, line, ans, child, fd, -, rfl, -⟩
  · exact hT.children r hold hholds
  · exact absurd hholds (hnot _)

/-- A transfer begins: the server process closes the data connection, and no child that
was running has a copy of it. -/
theorem Forks.hasTransfer {line : CStr} {ans : Answers} {child : Child}
    {events : List SessionEvent}
    (hf : Forks u.server w.sessions S' id line ans child fd) (hI : w.Tracked u)
    (hC : GivesUpAlone u.server w (.line id line ans))
    (hrun : (sessions u).run events = .ok w.sessions)
    (h : w.sessions.step u.server (.line id line ans) = .ok S') :
    (w.after (.line id line ans) S').HasTransfer ⟨w.clock, fd, w.openedIn fd⟩ := by
  refine ⟨?_, Nat.lt_succ_self _, fun hholds => hholds.1 hf.closed, fun r hr hholds => ?_⟩
  · show w.openedIn fd ≤ w.clock
    by_cases hfree : w.sessions.world.os.desc fd = none
    · exact Nat.le_of_eq (openedIn_of_free hfree)
    · exact Nat.le_of_lt (hI.openedIn_lt hfree)
  · rcases running_after hrun h hr with hold | ⟨id', line', ans', child', fd', -, rfl, -⟩
    · exfalso
      have hr' := hI.running r hold
      rcases hf.given with hfree | ⟨c, command, d, hc, hparsed, hbody, hconnect, hfork, hd, hfd⟩
      · exact hr'.not_holds_new hfree hholds
      · have hmem : fd ∈ c.dataFds := mem_dataFds.mpr ⟨d, hd, .inr hfd⟩
        have hopen := ((sound_of_run hrun).owns id c hc).isOpen (.inr hmem)
        have halone : w.Alone id fd := (hC c hc command hparsed).2 hbody hconnect hfork d hd fd hfd
        rw [openedIn_of_open hopen] at hholds
        have hlt : r.opened fd < r.forkedAt := hr'.shared fd hholds.1 hopen hholds.2
        by_cases hown : r.client = id
        · subst hown
          exact hr'.stored c fd hc hmem hholds
        · have hle := halone r hold hown
          have hsame : r.opened fd = w.opened fd := hholds.2
          omega
    · rfl

/-- Everything that was given up is let go. -/
structure Tables.Settled (w : Tables) : Prop where
  left : ∀ id, w.quit id = true → w.Left id
  transfers : ∀ t ∈ w.transfers, w.HasTransfer t

theorem Tables.Settled.step (hI : w.Tracked u) (hS : w.Settled) (hC : GivesUpAlone u.server w e)
    (h : w.sessions.step u.server e = .ok S') : (w.after e S').Settled := by
  obtain ⟨events, hrun⟩ := hI.reachable
  refine ⟨fun id hquit => ?_, fun t ht => ?_⟩
  · have hquit' : (w.quit id || ((w.sessions.conns id).isSome && (S'.conns id).isNone)) =
      true := hquit
    rw [Bool.or_eq_true, Bool.and_eq_true] at hquit'
    rcases hquit' with hbefore | ⟨hsome, hnone⟩
    · exact left_later (hS.left id hbefore) hrun h
    · obtain ⟨c, hc⟩ := Option.isSome_iff_exists.mp hsome
      exact left_of_quit hI hC hrun h hc (Option.isNone_iff_eq_none.mp hnone)
  · have ht' : t ∈ w.transfers ++ (forkedIn w.sessions S').filterMap fun x =>
      x.2.dataFd.map fun fd => ⟨w.clock, fd, w.openedIn fd⟩ := ht
    rcases List.mem_append.mp ht' with hold | hnew
    · exact hasTransfer_later (hS.transfers t hold) hrun h
    · rcases forkedIn_cases hrun h with hnone | ⟨id, line, ans, child, fd, rfl, hone, hf⟩
      · rw [hnone] at hnew
        cases hnew
      · rw [hone, List.filterMap_cons, hf.dataFd] at hnew
        obtain rfl := List.mem_singleton.mp hnew
        exact hf.hasTransfer hI hC hrun h

end

end MyFtp.Server
