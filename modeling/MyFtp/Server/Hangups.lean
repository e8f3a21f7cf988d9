import MyFtp.Server.Interference
import MyFtp.Server.Prompt

/-!
# Clients that hang up

Nothing in the server catches `SIGPIPE`, so what it prints to a client that is gone is the end
of it. `Outlives` says of a step that it prints to clients that are there: a client is still
connected when it is greeted, the line of one that is gone is handled only if it hands a
transfer over to a child, and at the end everybody is still there.

> `outlives_of_run`: a run of such steps is not ended by a client that hangs up. The loop is
> left after a signal, or when `poll` fails, and to any other client it makes no difference
> who is gone.
-/

namespace MyFtp.Server

open MyFtp.Posix
open Prog

/-! ## Handing over -/

/-- The attempt to connect the data socket succeeds. -/
def Connects (ans : Answers) (desc : DescTable) (d : DataSocket) : Prop :=
  match d.dataSocketMode with
  | .active => ans.connect = true
  | .passive => (∃ l ∈ d.dataSockfd, 0 < pendingAt desc l) ∧ ∃ x ∈ ans.accept, desc x.1 = none

instance (ans : Answers) (desc : DescTable) (d : DataSocket) : Decidable (Connects ans desc d) := by
  unfold Connects
  split
  next => infer_instance
  next => infer_instance

/-- The line begins a transfer that gets its connection and a child. -/
def HandsOver (server : ServerT) (ans : Answers) (line : CStr) (s : Ctx) : Prop :=
  ans.fork = true ∧ (∃ d ∈ s.conn.dataSocket, Connects ans s.os.desc d) ∧
    ∃ command ∈ commandOf line, transferOf server s command ≠ none

instance (server : ServerT) (ans : Answers) (line : CStr) (s : Ctx) :
    Decidable (HandsOver server ans line s) :=
  inferInstanceAs (Decidable (_ ∧ _ ∧ _))

section

variable {server : ServerT} {ans : Answers} {command : Command} {body : TransferBody} {s s' : Ctx}
  {d d₁ : DataSocket} {desc desc₁ : DescTable} {connected : Bool}

theorem pendingAt_eq_succ {l : Fd} {n : Nat} : pendingAt desc l = n + 1 ↔
    desc l = some (.listener (n + 1)) := by
  unfold pendingAt
  constructor
  · intro h
    split at h
    next n' hl => rw [hl, h]
    next => cases h
  · intro h
    rw [h]

/-- Where there is a connection the attempt succeeds. -/
theorem Reached.connects (h : Reached ans desc d true d₁ desc₁) : Connects ans desc d := by
  generalize hb : true = connected at h
  unfold Connects
  cases h with
  | active hmode =>
    rw [hmode]
    exact hb.symm
  | refused => cases hb
  | accepted l newFd pending peer hmode hl hpending hfree haccept =>
    rw [hmode]
    refine ⟨⟨l, hl, ?_⟩, (newFd, peer), haccept, hfree⟩
    rw [pendingAt_eq_succ.mpr hpending]
    exact Nat.succ_pos _

/-- And there is one where it does. -/
theorem establish_of_connects (hd : s.conn.dataSocket = some d) (h : Connects ans s.os.desc d) :
    ∃ d₁ desc₁, establishDataSocketConnection ans s = (.ok true, s.withData desc₁ (some d₁)) := by
  unfold establishDataSocketConnection
  rw [conn_bind_apply, hd, deref_some, pure_bind_apply]
  unfold Connects at h
  cases hmode : d.dataSocketMode with
  | active =>
    rw [hmode] at h
    refine ⟨d, s.os.desc, ?_⟩
    dsimp only at h ⊢
    rw [h, ← hd]
    rfl
  | passive =>
    rw [hmode] at h
    obtain ⟨⟨l, hl, hpending⟩, ⟨fd, peer⟩, haccept, hfree⟩ := h
    obtain ⟨n, hn⟩ := Nat.exists_eq_succ_of_ne_zero (Nat.pos_iff_ne_zero.mp hpending)
    have hacc : acceptData ans d.dataSockfd s = _ := acceptData_apply ans d.dataSockfd s
    rw [haccept, hl, Option.bind_some, pendingAt_eq_succ.mp hn] at hacc
    dsimp only at hacc hfree
    rw [if_pos hfree, ← hl] at hacc
    dsimp only
    rw [acceptConnection_of_some hacc]
    exact ⟨_, _, rfl⟩

/-- A transfer that is handed over prints nothing. -/
theorem transfer_hands_over (body : TransferBody) (command : Command)
    (hd : s.conn.dataSocket = some d) (h : Connects ans s.os.desc d) (hfork : ans.fork = true) :
    ∃ s', executeDataSocketCommand ans body command s = (.ok .success, s') := by
  obtain ⟨d₁, desc₁, hest⟩ := establish_of_connects hd h
  have hforked := forkExecution_apply ans body command (s.withData desc₁ (some d₁))
  rw [if_pos hfork] at hforked
  unfold executeDataSocketCommand
  rw [bind_of_ok hest, if_neg (by simp), bind_of_ok hforked, if_neg (by simp)]
  exact ⟨_, giveUp_apply rfl .success⟩

end

/-! ## A line -/

section

variable {u : Setup} {events : List SessionEvent} {S S' : Sessions} {id : ConnId} {c : Connection}
  {line : CStr} {ans : Answers} {fd : Fd} {addr : SockAddr}

/-- A line that is handed over is handled. -/
theorem line_handed_over (hrun : (sessions u).run events = .ok S) (hc : S.conns id = some c)
    (hfinds : FindsDirectory S (.line id line ans))
    (h : HandsOver u.server ans line (Ctx.start S.world.os c)) :
    ∃ S', S.step u.server (.line id line ans) = .ok S' := by
  obtain ⟨-, W, hW⟩ := speaks_of_run hrun hc
  obtain ⟨hfork, ⟨d, hd, hcon⟩, command, hcommand, hbegins⟩ := h
  have hparse := parse_of_commandOf hcommand
  cases hbody : bodyOf command.word with
  | none => exact absurd (transferOf_of_word hbody) hbegins
  | some body =>
    have hword := bodyOf_eq_some.mp hbody
    have hlist : body = .executeLsCommand → ListFinds (Ctx.start S.world.os c) W command := by
      rintro rfl
      exact (hfinds c hc W hW command hcommand).2 hword.symm
    have hline : S.step u.server (.line id line ans) = _ :=
      handleLine_of_executeCommand hc hparse fun command' hp hquit => by
        rw [← Option.some.inj hp, ← hword] at hquit
        cases body <;> exact absurd hquit (by decide)
    have htests : executeCommand u.server ans (some command) (Ctx.start S.world.os c) = _ :=
      transferCommand_tests hW hbody hlist
    have hnone := (transferOf_ne_none_iff hW hbody).mp hbegins
    rcases ht : transferTests u.server (Ctx.start S.world.os c) W command body with ⟨_ | r, cwd⟩
    · rw [ht] at htests
      obtain ⟨s', hs'⟩ := transfer_hands_over (s := (Ctx.start S.world.os c).inDir cwd) body command
        hd hcon hfork
      rw [hline, htests]
      dsimp only
      rw [hs']
      exact ⟨_, rfl⟩
    · rw [ht] at hnone
      cases hnone

/-- A line at which the server is killed is one of a client that is gone, and is not handed
over. -/
theorem line_killed (hrun : (sessions u).run events = .ok S) (hc : S.conns id = some c)
    (h : S.step u.server (.line id line ans) = .error .sigpipe) :
    S.world.os.hungup id = true ∧ ¬ HandsOver u.server ans line (Ctx.start S.world.os c) := by
  cases hparse : parseBuffer line with
  | error e =>
    -- the server crashes on such a line, it is not killed
    obtain rfl := parse_error hparse
    have hline : S.step u.server (.line id line ans) = _ := handleLine_of_undefined hc hparse
    cases hline.symm.trans h
  | ok parsed =>
    have hfinds : FindsDirectory S (.line id line ans) := by
      by_contra hlost
      have hparses : Parses (.line id line ans) := ⟨parsed, hparse⟩
      cases h.symm.trans ((step_undefined_iff hrun hparses).mpr hlost)
    refine ⟨?_, fun hhands => ?_⟩
    · obtain ⟨hspeaks, -⟩ := speaks_of_run hrun hc
      cases line_stops hrun hc hparse hfinds h with
      | gone hkills =>
        rw [kills_eq hspeaks.owns.control, Bool.and_eq_true] at hkills
        exact hkills.1
    · obtain ⟨S', hS'⟩ := line_handed_over hrun hc hfinds hhands
      cases h.symm.trans hS'

/-- A line of a client that is gone is handled only by handing it over. -/
theorem line_survives (hrun : (sessions u).run events = .ok S) (hc : S.conns id = some c)
    (h : S.step u.server (.line id line ans) = .ok S') (hgone : S.world.os.hungup id = true) :
    HandsOver u.server ans line (Ctx.start S.world.os c) := by
  obtain ⟨c', status, s, hc', hparse, hout, -⟩ := line_outcome hrun h
  obtain rfl := Option.some.inj (hc.symm.trans hc')
  obtain ⟨hspeaks, -⟩ := speaks_of_run hrun hc
  have hnot : S.world.os.hungup id = false → False := fun hup => by
    rw [hgone] at hup
    cases hup
  -- all that is not handed over is answered in the parent, which shows that the client is there
  cases hout with
  | answered l hstatus hfinal htold hword =>
    refine (hnot ((htold.sent hspeaks).2 ?_)).elim
    rintro rfl
    rcases hfinal with ⟨r, hr, -⟩ | hr <;> cases hr
  | quit command hparsed hword =>
    rw [hparsed] at hparse
    have hline : S.step u.server (.line id line ans) = _ := handleLine_quit hc hparse hword
    rw [h] at hline
    split at hline
    next => cases hline
    next hkills =>
      refine (hnot ?_).elim
      exact (delivered hspeaks.owns.control hspeaks.sigpipe (Bool.eq_false_iff.mpr hkills)
        .noopOk).2
  | declined command r hparsed hword hstatus hr htold =>
    exact (hnot ((htold.sent hspeaks).2 (by simp))).elim
  | setUp command hparsed hword hstatus hlog hoffer hup => exact (hnot hup).elim
  | transfer command body cwd hparsed hbody hrun' =>
    obtain ⟨-, -, d, hd⟩ := transferOf_eq_some hbody
    obtain ⟨-, connected, d₁, desc₁, hreach, hup, -⟩ :=
      transfer_outcome (hspeaks.inDir cwd) hd hrun'
    have hsilent : transferReplies connected ans.fork = [] := by
      by_contra hsaid
      exact hnot (hup hsaid)
    cases connected with
    | false => cases hsilent
    | true =>
      cases hfork : ans.fork with
      | false =>
        rw [hfork] at hsilent
        cases hsilent
      | true => exact ⟨hfork, ⟨d, hd, hreach.connects⟩, command, hparsed, by rw [hbody]; simp⟩

/-- A client is accepted. -/
theorem World.accept_cases {w : World} (server : ServerT) (fd : Fd) (addr : SockAddr)
    (hsig : w.os.signals .sigpipe = .default) :
    (w.os.desc fd ≠ none ∧ w.accept server fd addr = .error .disabled) ∨
      (w.os.desc fd = none ∧ w.os.hungup w.nextId = true ∧
        w.accept server fd addr = .error .sigpipe) ∨
      (w.os.desc fd = none ∧ w.os.hungup w.nextId = false ∧
        ∃ r, w.accept server fd addr = .ok r) := by
  unfold World.accept World.exec greet
  by_cases hfree : w.os.desc fd = none
  · right
    have hnew : newDesc fd (.control w.nextId) (Ctx.start w.os (initConnection server fd addr)) =
        (.ok (), (Ctx.start w.os (initConnection server fd addr)).withDesc fd
          (some (.control w.nextId))) := by
      rw [newDesc, if_pos (by exact hfree)]
      rfl
    have hctl : ((Ctx.start w.os (initConnection server fd addr)).withDesc fd
        (some (.control w.nextId))).os.desc fd = some (.control w.nextId) := by
      rw [Ctx.withDesc_desc, Function.update_self]
    rw [bind_of_ok hnew, dprintf_apply]
    cases hup : w.os.hungup w.nextId with
    | true =>
      have hkills : ((Ctx.start w.os (initConnection server fd addr)).withDesc fd
          (some (.control w.nextId))).os.kills fd = true := by
        rw [kills_eq hctl, Bool.and_eq_true]
        exact ⟨hup, by rw [beq_iff_eq]; exact hsig⟩
      rw [if_pos hkills]
      exact .inl ⟨hfree, rfl, rfl⟩
    | false =>
      rw [if_neg (by rw [kills_of_control hctl hup]; simp)]
      exact .inr ⟨hfree, rfl, _, rfl⟩
  · left
    refine ⟨hfree, ?_⟩
    have hnew : newDesc fd (.control w.nextId) (Ctx.start w.os (initConnection server fd addr)) =
        (.error .disabled, Ctx.start w.os (initConnection server fd addr)) := by
      rw [newDesc, if_neg (by exact hfree)]
    rw [bind_of_error hnew]

end

/-! ## A step of the loop -/

/-- The step prints to clients that are there. -/
def OutlivesIn (u : Settings) (w : Loop) (calls : Calls) : Phase → Prop
  | .accepting => (w.fds 0).revents = true → ∀ x ∈ calls.accept, w.world.os.desc x.1 = none →
      w.world.os.hungup w.world.nextId = false
  | .executing i (some line) => ∀ c ∈ w.connections i, w.world.os.hungup c.id = true →
      HandsOver u.server calls.line line (Ctx.start w.world.os c.connection)
  | .stopping k => ∀ i ∈ findSlot k fun j => (w.fds j).fd.isSome, ∀ c ∈ w.connections i,
      w.world.os.hungup c.id = false
  | _ => True

instance (u : Settings) (w : Loop) (calls : Calls) : ∀ p, Decidable (OutlivesIn u w calls p)
  | .accepting => inferInstanceAs (Decidable (_ → ∀ x ∈ calls.accept, _ → _ = false))
  | .executing i (some line) => inferInstanceAs (Decidable (∀ c ∈ w.connections i,
      w.world.os.hungup c.id = true →
        HandsOver u.server calls.line line (Ctx.start w.world.os c.connection)))
  | .stopping k => inferInstanceAs (Decidable (∀ i ∈ findSlot k fun j => (w.fds j).fd.isSome,
      ∀ c ∈ w.connections i, w.world.os.hungup c.id = false))
  | .executing _ none | .polling | .serving _ | .reading .. | .stopped => .isTrue trivial

/-- The server's step does so. -/
def Outlives (u : Settings) (w : Loop) : LoopEvent → Prop
  | .server calls => OutlivesIn u w calls w.phase
  | _ => True

instance (u : Settings) (w : Loop) : ∀ e, Decidable (Outlives u w e)
  | .server calls => inferInstanceAs (Decidable (OutlivesIn u w calls w.phase))
  | .arrive .. | .hangup .. | .dataConnect _ | .child .. | .signal => .isTrue trivial

/-- It is the client's turn, or the client hangs up. -/
def About (w : Loop) (id : ConnId) : LoopEvent → Prop
  | .server _ => ∃ i ∈ w.phase.slot, ∃ c ∈ w.connections i, c.id = id
  | .hangup id' _ => id' = id
  | _ => False

/-- Nothing has happened to the client: its entries, its descriptors, what waits for it and
whether it is there. -/
structure LeftAlone (w w' : Loop) (id : ConnId) : Prop where
  slot : ∀ i c, w.connections i = some c → c.id = id →
    w'.connections i = some c ∧ w'.fds i = w.fds i ∧
      ∀ fd, fd = c.connection.clientSockfd ∨ fd ∈ c.connection.dataFds →
        w'.world.os.desc fd = w.world.os.desc fd
  received : w'.received id = w.received id
  here : w'.world.os.hungup id = w.world.os.hungup id

/-- The same, but for who is gone. -/
def Sessions.withGone (S : Sessions) (gone : ConnId → Bool) : Sessions :=
  { S with world := { S.world with os := { S.world.os with hungup := gone } } }

section

variable {u : Settings} {w w' : Loop} {events : List LoopEvent} {e : LoopEvent} {calls : Calls}
  {i : SlotIndex} {c : Client} {S : Sessions} {line : CStr} {halt : Halt}

/-- There is a client in it. -/
theorem slot_of_run (hrun : (loop u).run events = .ok w)
    (hopens : (loop u).Meets StreamOpens events) :
    ∀ i ∈ w.phase.slot, w.connections i ≠ none := by
  have hboth : (loop u).Meets StreamOpens events ∧ (loop u).run events = .ok w ∧
      ∀ i ∈ w.phase.slot, w.connections i ≠ none := by
    refine Machine.run_invariant_of_meets (m := loop u) (C := StreamOpens)
      (I := fun events w => (loop u).Meets StreamOpens events ∧ (loop u).run events = .ok w ∧
        ∀ i ∈ w.phase.slot, w.connections i ≠ none)
      ⟨trivial, rfl, fun i hi => (by cases hi)⟩ ?_ events w hopens hrun
    rintro events w e w' ⟨hopens, hrun, hI⟩ hopen hstep
    refine ⟨(Machine.meets_concat hrun).mpr ⟨hopens, hopen⟩, Machine.run_append_step hrun hstep, ?_⟩
    by_cases hserver : ∃ calls, e = .server calls
    · obtain ⟨calls, rfl⟩ := hserver
      have hserver : w.server u calls = .ok w' := hstep
      have hentry : ∀ {i j : SlotIndex} {c : Client}, some i = some j →
          Function.update w.connections i (some c) j ≠ none := by
        intro i j c hij
        obtain rfl := Option.some.inj hij
        rw [Function.update_self]
        simp
      cases server_step hserver with
      | enter k i hphase hnext =>
        -- a slot that is open has a client
        intro j hj
        obtain rfl := Option.some.inj hj
        obtain ⟨hi, -, hready⟩ := findSlot_eq_some hnext
        rw [Bool.and_eq_true, Option.isSome_iff_ne_none] at hready
        obtain ⟨S, hS, hT⟩ := tracks_of_run hrun hopens
        exact hT.live _ hi hready.1 (by rw [hphase]; rfl)
      | line i taken bytes rest c => exact fun j hj => hentry hj
      | more i taken taken' buffer waiting c => exact fun j hj => hentry hj
      | ended i taken bytes c => exact fun j hj => hentry hj
      | _ => exact fun j hj => (by cases hj)
    · obtain ⟨-, hconns, hphase⟩ := arrays_elsewhere (fun calls he => hserver ⟨calls, he⟩) hstep
      rw [hphase, hconns]
      exact hI
  exact hboth.2.2

/-- A line in the loop is a line of the client. -/
theorem step_line (hT : Tracks u w S) (hphase : w.phase = .executing i (some line))
    (hc : w.connections i = some c) :
    S.step u.server (.line c.id line calls.line) =
      (w.world.exec c.id c.connection (handleConnection u.server calls.line
        c.connection.clientSockfd (some line))).map (S.handled c.id) := by
  show S.handleLine u.server c.id line calls.line = _
  unfold Sessions.handleLine
  rw [hT.record i c hc, hT.world (by rw [hphase]; simp)]

/-- The line that is handled stops the loop as it stops the client's session. -/
theorem executing_error_iff (hT : Tracks u w S) (hphase : w.phase = .executing i (some line))
    (hc : w.connections i = some c) : w.server u calls = .error halt ↔
      S.step u.server (.line c.id line calls.line) = .error halt := by
  rw [step_line hT hphase hc, map_error_iff]
  unfold Loop.server
  rw [hphase]
  dsimp only
  unfold executeTurn
  rw [hc, (hT.slot i c hc).2]
  dsimp only
  rw [map_error_iff]

/-- And gets through as that does. -/
theorem executing_ok (hT : Tracks u w S) (hphase : w.phase = .executing i (some line))
    (hc : w.connections i = some c) (h : w.server u calls = .ok w') :
    ∃ S', S.step u.server (.line c.id line calls.line) = .ok S' := by
  cases hS : S.step u.server (.line c.id line calls.line) with
  | ok S' => exact ⟨S', rfl⟩
  | error e => cases h.symm.trans ((executing_error_iff hT hphase hc).mpr hS)

/-- The client at the end of the loop. -/
theorem stopping_cases (calls : Calls) (hT : Tracks u w S) {k : Nat}
    (hphase : w.phase = .stopping k)
    (hnext : findSlot k (fun j => (w.fds j).fd.isSome) = some i) (hc : w.connections i = some c) :
    if w.world.os.kills c.connection.clientSockfd then w.server u calls = .error .sigpipe
    else ∃ w', w.server u calls = .ok w' := by
  unfold Loop.server
  rw [hphase]
  dsimp only
  rw [hnext]
  dsimp only
  unfold destroyTurn
  rw [hc, (hT.slot i c hc).2]
  dsimp only
  unfold World.exec
  have happly := serviceClosing_apply (Ctx.start w.world.os c.connection)
  rw [show (do
    dprintf c.connection.clientSockfd .serviceClosing
    destroyConnection
    close c.connection.clientSockfd : M Unit) (Ctx.start w.world.os c.connection) = _ from happly]
  by_cases hk : w.world.os.kills c.connection.clientSockfd = true
  · have hk' : (Ctx.start w.world.os c.connection).os.kills
      (Ctx.start w.world.os c.connection).conn.clientSockfd = true := hk
    rw [if_pos hk, if_pos hk']
    rfl
  · have hk' : ¬ (Ctx.start w.world.os c.connection).os.kills
      (Ctx.start w.world.os c.connection).conn.clientSockfd = true := hk
    rw [if_neg hk, if_neg hk']
    exact ⟨_, rfl⟩

/-- A step that is taken did so. -/
theorem outlives_of_step (hrun : (loop u).run events = .ok w)
    (hopens : (loop u).Meets StreamOpens events) (hstep : w.step u e = .ok w') :
    Outlives u w e := by
  cases e with
  | server calls =>
    have hserver : w.server u calls = .ok w' := hstep
    obtain ⟨S, hS, hT⟩ := tracks_of_run hrun hopens
    unfold Outlives OutlivesIn
    dsimp only
    split
    next hphase =>
      intro hready x hx hfree
      obtain ⟨fd, addr⟩ := x
      unfold Loop.server at hserver
      rw [hphase] at hserver
      dsimp only at hserver
      rw [if_pos hready] at hserver
      obtain ⟨w₁, haccept, -⟩ := map_eq_ok hserver
      unfold acceptNewConnection at haccept
      rw [Option.mem_def.mp hx] at haccept
      obtain ⟨r, hworld, -⟩ := map_eq_ok haccept
      have hsig : w.world.os.signals .sigpipe = .default := by
        rw [← hT.world (by rw [hphase]; simp)]
        exact (sound_of_run hS).sigpipe
      rcases World.accept_cases u.server fd addr hsig with
        ⟨hopen, -⟩ | ⟨-, -, hkilled⟩ | ⟨-, hup, -⟩
      · exact absurd hfree hopen
      · cases hkilled.symm.trans hworld
      · exact hup
    next i line hphase =>
      intro c hc hgone
      obtain ⟨S', hline⟩ := executing_ok hT hphase hc hserver
      rw [← hT.world (by rw [hphase]; simp)] at hgone ⊢
      exact line_survives hS (hT.record i c hc) hline hgone
    next k hphase =>
      intro i hi c hc
      have hcases := stopping_cases calls hT hphase hi hc
      have hworld := hT.world (by rw [hphase]; simp)
      obtain ⟨hspeaks, -⟩ := speaks_of_run hS (hT.record i c hc)
      rw [hworld] at hspeaks
      split at hcases
      next => cases hserver.symm.trans hcases
      next hkills =>
        exact (delivered hspeaks.owns.control hspeaks.sigpipe (Bool.eq_false_iff.mpr hkills)
          .noopOk).2
    next => trivial
  | _ => trivial

/-- Outside a turn the server just goes on. -/
theorem resting_goes_on (hphase : w.phase = .polling ∨ ∃ k, w.phase = .serving k) :
    w.server u calls ≠ .error halt := by
  unfold Loop.server
  rcases hphase with hphase | ⟨k, hphase⟩
  · rw [hphase]
    dsimp only
    split
    next => simp
    next => split <;> simp
  · rw [hphase]
    dsimp only
    split <;> simp

/-- A client that is there is accepted, if it can be. -/
theorem accepting_error (hsig : w.world.os.signals .sigpipe = .default)
    (hphase : w.phase = .accepting) (houtlives : OutlivesIn u w calls .accepting)
    (h : w.server u calls = .error halt) : halt = .disabled := by
  unfold Loop.server at h
  rw [hphase] at h
  dsimp only at h
  rw [map_error_iff] at h
  split at h
  next hready =>
    unfold acceptNewConnection at h
    split at h
    next => cases h
    next fd addr hcall =>
      have hworld := map_eq_error h
      rcases World.accept_cases u.server fd addr hsig with
        ⟨-, hdisabled⟩ | ⟨hfree, hgone, -⟩ | ⟨-, -, r, hr⟩
      · cases hworld.symm.trans hdisabled
        rfl
      · cases hgone.symm.trans (houtlives hready (fd, addr) hcall hfree)
      · cases hworld.symm.trans hr
  next => cases h

/-- `getline` can only wait. -/
theorem reading_error {taken : List Byte} (hphase : w.phase = .reading i taken)
    (hc : w.connections i = some c) (h : w.server u calls = .error halt) : halt = .blocked := by
  unfold Loop.server at h
  rw [hphase] at h
  dsimp only at h
  unfold readTurn at h
  rw [hc] at h
  dsimp only at h
  split at h
  next => cases h
  next => cases h
  next => cases h
  next =>
    cases h
    rfl

/-- At the end of its stream nothing is done for a client. -/
theorem ended_goes_on (hT : Tracks u w S) (hphase : w.phase = .executing i none)
    (hc : w.connections i = some c) : w.server u calls ≠ .error halt := by
  intro h
  unfold Loop.server at h
  rw [hphase] at h
  dsimp only at h
  unfold executeTurn at h
  rw [hc, (hT.slot i c hc).2] at h
  cases h

/-- Clients that are there are told goodbye. -/
theorem stopping_goes_on (hS : (sessions u.toSetup).run (sessionEvents u events) = .ok S)
    (hT : Tracks u w S) {k : Nat} (hphase : w.phase = .stopping k)
    (houtlives : OutlivesIn u w calls (.stopping k)) : w.server u calls ≠ .error halt := by
  intro h
  cases hnext : findSlot k fun j => (w.fds j).fd.isSome with
  | none =>
    unfold Loop.server at h
    rw [hphase] at h
    dsimp only at h
    rw [hnext] at h
    cases h
  | some i =>
    obtain ⟨hi, hk, hopen⟩ := findSlot_eq_some hnext
    obtain ⟨c, hc⟩ := Option.ne_none_iff_exists'.mp
      (hT.live i hi (Option.isSome_iff_ne_none.mp hopen)
        (by rw [hphase]; exact decide_eq_false (Nat.not_lt.mpr hk)))
    have hcases := stopping_cases calls hT hphase hnext hc
    have hup := houtlives i hnext c hc
    have hworld := hT.world (by rw [hphase]; simp)
    obtain ⟨hspeaks, -⟩ := speaks_of_run hS (hT.record i c hc)
    rw [hworld] at hspeaks
    have hkills : w.world.os.kills c.connection.clientSockfd = false :=
      kills_of_control hspeaks.owns.control hup
    rw [if_neg (by rw [hkills]; simp)] at hcases
    obtain ⟨w', hw'⟩ := hcases
    cases h.symm.trans hw'

/-- **A step that fails** while it prints to clients that are there has to wait, or is none, or
handles a line that the server is not made for. -/
theorem error_of_outlives (hrun : (loop u).run events = .ok w)
    (hopens : (loop u).Meets StreamOpens events) (houtlives : Outlives u w e)
    (hstep : w.step u e = .error halt) : halt = .blocked ∨ halt = .disabled ∨
      halt = .undefined ∧ ∃ calls i line, e = .server calls ∧ w.phase =
        .executing i (some line) := by
  cases e with
  | server calls =>
    have hserver : w.server u calls = .error halt := hstep
    have houtlives : OutlivesIn u w calls w.phase := houtlives
    obtain ⟨S, hS, hT⟩ := tracks_of_run hrun hopens
    have hentry : ∀ i ∈ w.phase.slot, ∃ c, w.connections i = some c := fun i hi =>
      Option.ne_none_iff_exists'.mp (slot_of_run hrun hopens i hi)
    cases hphase : w.phase with
    | polling => exact absurd hserver (resting_goes_on (.inl hphase))
    | accepting =>
      have hsig : w.world.os.signals .sigpipe = .default := by
        rw [← hT.world (by rw [hphase]; simp)]
        exact (sound_of_run hS).sigpipe
      exact .inr (.inl (accepting_error hsig hphase (hphase ▸ houtlives) hserver))
    | serving k => exact absurd hserver (resting_goes_on (.inr ⟨k, hphase⟩))
    | reading i taken =>
      obtain ⟨c, hc⟩ := hentry i (by rw [hphase]; rfl)
      exact .inl (reading_error hphase hc hserver)
    | executing i buffer =>
      obtain ⟨c, hc⟩ := hentry i (by rw [hphase]; rfl)
      cases buffer with
      | none => exact absurd hserver (ended_goes_on hT hphase hc)
      | some line =>
        -- only here is anything handled that a client has written
        cases halt with
        | sigpipe =>
          have hline := (executing_error_iff hT hphase hc).mp hserver
          obtain ⟨hgone, hnot⟩ := line_killed hS (hT.record i c hc) hline
          rw [hT.world (by rw [hphase]; simp)] at hgone hnot
          rw [hphase] at houtlives
          exact absurd (houtlives c hc hgone) hnot
        | undefined => exact .inr (.inr ⟨rfl, calls, i, line, rfl, rfl⟩)
        | blocked => exact .inl rfl
        | disabled => exact .inr (.inl rfl)
    | stopping k => exact absurd hserver (stopping_goes_on hS hT hphase (hphase ▸ houtlives))
    | stopped =>
      unfold Loop.server at hserver
      rw [hphase] at hserver
      cases hserver
      exact .inr (.inl rfl)
  | _ => exact .inr (.inl (elsewhere_error (fun calls h => (by cases h)) hstep))

/-- Who leaves the loop was told to. -/
theorem leaving_of_run (hrun : (loop u).run events = .ok w) :
    (w.stopServer = true → .signal ∈ events) ∧
      (w.phase.leaving = true →
        .signal ∈ events ∨ ∃ calls, .server calls ∈ events ∧ calls.poll = none) := by
  refine Machine.run_induction (m := loop u) (I := fun events w =>
    (w.stopServer = true → .signal ∈ events) ∧ (w.phase.leaving = true →
      .signal ∈ events ∨ ∃ calls, .server calls ∈ events ∧ calls.poll = none)) ?_ ?_ events w hrun
  · exact ⟨fun h => (by cases h), fun h => (by cases h)⟩
  intro events w e w' hrun ⟨hstop, hleft⟩ hstep
  have hearlier : w.phase.leaving = true → .signal ∈ events ++ [e] ∨
      ∃ calls, .server calls ∈ events ++ [e] ∧ calls.poll = none := fun hleaving => by
    rcases hleft hleaving with hsignal | ⟨calls, hcalls, hpoll⟩
    · exact .inl (List.mem_append_left _ hsignal)
    · exact .inr ⟨calls, List.mem_append_left _ hcalls, hpoll⟩
  have hstopped : ∀ {w₁ : Loop}, w₁.stopServer = w.stopServer →
      (w₁.stopServer = true → .signal ∈ events ++ [e]) := fun hsame h =>
    List.mem_append_left _ (hstop (hsame ▸ h))
  cases e with
  | server calls =>
    have hserver : w.server u calls = .ok w' := hstep
    cases server_step hserver with
    | leave hphase hwhy =>
      refine ⟨hstopped rfl, fun _ => ?_⟩
      rcases hwhy with htold | hpoll
      · exact .inl (List.mem_append_left _ (hstop htold))
      · exact .inr ⟨calls, List.mem_append_right _ List.mem_cons_self, hpoll⟩
    | full fd addr connection world => exact ⟨hstopped rfl, fun h => (by cases h)⟩
    | accepted fd addr connection world => exact ⟨hstopped rfl, fun h => (by cases h)⟩
    | destroy k i c fd connection world hphase =>
      exact ⟨hstopped rfl, fun _ => hearlier (by rw [hphase]; rfl)⟩
    | stop k hphase => exact ⟨hstopped rfl, fun _ => hearlier (by rw [hphase]; rfl)⟩
    | _ => exact ⟨hstopped rfl, fun h => (by cases h)⟩
  | signal =>
    cases hstep
    exact ⟨fun _ => List.mem_append_right _ List.mem_cons_self, hearlier⟩
  | arrive id bytes =>
    have hstep : w.step u (.arrive id bytes) = .ok w' := hstep
    unfold Loop.step at hstep
    dsimp only at hstep
    split at hstep
    next => cases hstep
    next =>
      cases hstep
      exact ⟨hstopped rfl, hearlier⟩
  | hangup id reset =>
    cases hstep
    exact ⟨hstopped rfl, hearlier⟩
  | dataConnect fd =>
    obtain ⟨world, -, rfl⟩ := map_eq_ok hstep
    exact ⟨hstopped rfl, hearlier⟩
  | child k cans =>
    obtain ⟨world, -, rfl⟩ := map_eq_ok hstep
    exact ⟨hstopped rfl, hearlier⟩

/-! ### The others -/

/-- A step in the client's turn only reads its stream and handles its line; a hangup is known to
nobody until then. -/
theorem leftAlone_of_about {id other : ConnId} (hrun : (loop u).run events = .ok w)
    (hopens : (loop u).Meets StreamOpens events) (hstep : w.step u e = .ok w')
    (habout : About w id e) (hother : other ≠ id) : LeftAlone w w' other := by
  cases e with
  | server calls =>
    have hserver : w.server u calls = .ok w' := hstep
    obtain ⟨i, hi, c₀, hc₀, rfl⟩ := habout
    have hslot : ∀ {j}, w.phase.slot = some j → j = i := fun hj =>
      Option.some.inj (hj.symm.trans hi)
    have hapart : ∀ j c, w.connections j = some c → c.id = other → j ≠ i := by
      rintro j c hc rfl rfl
      exact hother (congrArg Client.id (Option.some.inj (hc.symm.trans hc₀)))
    cases server_step hserver with
    | line j taken bytes rest c hphase hc | ended j taken bytes c hphase hc =>
      obtain rfl := hslot (by rw [hphase]; rfl)
      exact ⟨fun k d hd hid => ⟨(Function.update_of_ne (hapart k d hd hid) ..).trans hd, rfl,
        fun _ _ => rfl⟩, rfl, rfl⟩
    | more j taken taken' buffer waiting c hphase hc =>
      obtain rfl := hslot (by rw [hphase]; rfl)
      obtain rfl := Option.some.inj (hc.symm.trans hc₀)
      exact ⟨fun k d hd hid => ⟨(Function.update_of_ne (hapart k d hd hid) ..).trans hd, rfl,
        fun _ _ => rfl⟩, Function.update_of_ne hother .., rfl⟩
    | execute j buffer c fd stays connection world hphase hc hfd hexec =>
      obtain rfl := hslot (by rw [hphase]; rfl)
      obtain rfl := Option.some.inj (hc.symm.trans hc₀)
      refine ⟨fun k d hd hid => ⟨(Function.update_of_ne (hapart k d hd hid) ..).trans hd, ?_, ?_⟩,
        rfl, ?_⟩
      · dsimp only
        split
        next => rfl
        next => exact Function.update_of_ne (hapart k d hd hid) ..
      · -- a line closes and opens descriptors, but only the client's own
        obtain ⟨S, hS, hT⟩ := tracks_of_run hrun hopens
        rw [(hT.slot j c hc).2] at hfd
        obtain rfl := Option.some.inj hfd
        cases buffer with
        | none =>
          obtain ⟨s, hp, rfl, rfl⟩ := World.exec_eq_ok hexec
          rw [handleConnection_none] at hp
          cases hp
          rw [merge_start]
          exact fun _ _ => rfl
        | some line =>
          have hline : S.step u.server (.line c.id line calls.line) =
              .ok (S.handled c.id (stays, connection, world)) := by
            rw [step_line hT hphase hc, hexec]
            rfl
          have hdesc := (others_of_handleLine (sound_of_run hS) (hid ▸ hother)
            (hT.record k d hd) hline).2.2.2
          rw [hT.world (by rw [hphase]; simp)] at hdesc
          exact hdesc
      · rw [hungup_server hserver]
    | leave hphase | poll ready hphase | nobody hphase | full fd addr connection world hphase
    | accepted fd addr connection world j hphase | served k hphase | enter k j hphase
    | destroy k j c fd connection world hphase | stop k hphase =>
      rw [hphase] at hi
      cases hi
  | hangup id' reset =>
    obtain rfl : id' = id := habout
    cases hstep
    refine ⟨fun k d hd _ => ⟨hd, rfl, fun _ _ => rfl⟩, ?_, Function.update_of_ne hother ..⟩
    dsimp only
    split
    next => exact Function.update_of_ne hother ..
    next => rfl
  | _ => exact habout.elim

/-- A line comes to the same whoever of the others is gone. -/
theorem same_whoever_gone {events : List SessionEvent} {gone : ConnId → Bool} {id : ConnId}
    {ans : Answers} (hrun : (sessions u.toSetup).run events = .ok S)
    (hgone : gone id = S.world.os.hungup id)
    (hdis : S.step u.server (.line id line ans) ≠ .error .disabled)
    (hdis' : (S.withGone gone).step u.server (.line id line ans) ≠ .error .disabled) :
    (S.step u.server (.line id line ans)).map (effectOn u.server id S) =
      ((S.withGone gone).step u.server (.line id line ans)).map
        (effectOn u.server id (S.withGone gone)) := by
  cases hc : S.conns id with
  | none =>
    refine absurd ?_ hdis
    show S.handleLine u.server id line ans = _
    rw [Sessions.handleLine, hc]
  | some c =>
    have hown := (sound_of_run hrun).owns id c hc
    have hsim : Sim id (Ctx.start S.world.os c) (Ctx.start (S.withGone gone).world.os c) :=
      ⟨rfl, rfl, rfl, hgone, ⟨hown, hown, rfl, rfl⟩, rfl, rfl, .nil⟩
    exact effect_of_sim hc hc hsim ⟨rfl, rfl, rfl, rfl, rfl, rfl⟩ hdis hdis'

end

/-- **Clients that hang up.** As long as its streams open and it prints to clients that are there,
the server is not ended by `SIGPIPE`, and in every state on the way

* its main loop is left only after a signal, or when `poll` has failed,
* what happens in a client's turn, or when it hangs up, leaves every other client's entries,
  descriptors and waiting bytes as they are,
* and what a line of a client comes to does not depend on which of the others are gone. -/
theorem outlives_of_run (u : Settings) (events : List LoopEvent)
    (hmeets : (loop u).Meets (fun w e => StreamOpens w e ∧ Outlives u w e) events) :
    (loop u).run events ≠ .error .sigpipe ∧
      ∀ before later w, events = before ++ later → (loop u).run before = .ok w →
        (w.phase.leaving = true →
          .signal ∈ before ∨ ∃ calls, .server calls ∈ before ∧ calls.poll = none) ∧
        (∀ e w' id other, (loop u).step w e = .ok w' → About w id e → other ≠ id →
          LeftAlone w w' other) ∧
        ∃ S, (sessions u.toSetup).run (sessionEvents u before) = .ok S ∧ Tracks u w S ∧
          ∀ gone id line ans, gone id = S.world.os.hungup id →
            S.step u.server (.line id line ans) ≠ .error .disabled →
              (S.withGone gone).step u.server (.line id line ans) ≠ .error .disabled →
                (S.step u.server (.line id line ans)).map (effectOn u.server id S) =
                  ((S.withGone gone).step u.server (.line id line ans)).map
                    (effectOn u.server id (S.withGone gone)) := by
  refine ⟨fun hkilled => ?_, ?_⟩
  · refine Machine.run_error_of_meets (E := (· ≠ .sigpipe)) (fun events w e halt hmeets hrun hC
      hstep => ?_) events _ hmeets hkilled rfl
    rcases error_of_outlives hrun (Machine.meetsFrom_and.mp hmeets).1 hC.2 hstep with
      rfl | rfl | ⟨rfl, -⟩ <;> simp
  rintro before later w rfl hrun
  have hopens := (Machine.meetsFrom_and.mp (Machine.meetsFrom_append.mp hmeets).1).1
  refine ⟨(leaving_of_run hrun).2, fun e w' id other hstep habout hother => ?_, ?_⟩
  · exact leftAlone_of_about hrun hopens hstep habout hother
  · obtain ⟨S, hS, hT⟩ := tracks_of_run hrun hopens
    exact ⟨S, hS, hT, fun gone id line ans hgone hdis hdis' =>
      same_whoever_gone hS hgone hdis hdis'⟩

/-- Two clients; the first hangs up, the server finds the end of its stream and serves the
second. -/
def oneLeft : List LoopEvent :=
  acceptOn 4 ++ acceptOn 5 ++ [.hangup 0 false] ++ turnOf 1 3 ++
    [.arrive 1 (lit "NOOP\r\n")] ++ turnOf 2 4

/-- The second client's line is answered, as it would be if the first one were still there. -/
theorem outlives_of_run_oneLeft :
    ∃ w S, (loop smallSettings).run oneLeft = .ok w ∧ Tracks smallSettings w S ∧
      (S.step smallSettings.server (.line 1 (lit "NOOP") (.fine 7))).isOk = true ∧
        (S.step smallSettings.server (.line 1 (lit "NOOP") (.fine 7))).map
            (effectOn smallSettings.server 1 S) =
          ((S.withGone fun _ => false).step smallSettings.server
            (.line 1 (lit "NOOP") (.fine 7))).map
              (effectOn smallSettings.server 1 (S.withGone fun _ => false)) := by
  obtain ⟨w, hrun, -⟩ : ∃ w, (loop smallSettings).run oneLeft = .ok w ∧ True :=
    Machine.exists_of_run (by decide +kernel)
  obtain ⟨S₀, hS₀, hhere, hok, hok'⟩ : ∃ S,
      (sessions smallSettings.toSetup).run (sessionEvents smallSettings oneLeft) = .ok S ∧
        S.world.os.hungup 1 = false ∧
          (S.step smallSettings.server (.line 1 (lit "NOOP") (.fine 7))).isOk = true ∧
            ((S.withGone fun _ => false).step smallSettings.server
              (.line 1 (lit "NOOP") (.fine 7))).isOk = true :=
    Machine.exists_of_run (by decide +kernel)
  obtain ⟨-, -, S, hS, hT, hsame⟩ := (outlives_of_run smallSettings oneLeft
    (by decide +kernel)).2 oneLeft [] w (List.append_nil _).symm hrun
  obtain rfl := Except.ok.inj (hS₀.symm.trans hS)
  exact ⟨w, S₀, hrun, hT, hok, hsame _ 1 _ _ hhere.symm (ne_disabled_of_isOk hok)
    (ne_disabled_of_isOk hok')⟩

/-- A client that hangs up before it is answered takes the server with it, and everybody else's
sessions: `NOOP` twice, and the peer is gone when the second one is answered. -/
theorem killed_by_hangup :
    (loop smallSettings).run (acceptOn 4 ++ acceptOn 5 ++
      [.arrive 0 (lit "NOOP\r\nNOOP\r\n")] ++ turnOf 1 4 ++ [.hangup 0 true] ++
        turnOf 1 3) = .error .sigpipe :=
  Machine.error_of_run (by decide +kernel)

end MyFtp.Server
