import MyFtp.Server.Leaks
import MyFtp.Server.Loop

/-!
# The main loop and the clients it serves

What the arrays, the streams and the cycle of the main loop come to, for the clients, is
a machine that accepts them and handles their lines one at a time. A client's record in
that machine is the record in its slot.

> `tracks_of_run`: every run of the main loop is a run of that machine, over the lines
> it took from the streams. A client that is closed down at the end is as one that sent
> `QUIT`.
-/

namespace MyFtp.Server

open MyFtp.Posix
open Prog

/-! ## What a step is for the clients -/

/-- `destroy_server` is done with the slot. -/
def Phase.closed : Phase → SlotIndex → Bool
  | .stopping k, i => decide (i.val < k)
  | .stopped, _ => true
  | _, _ => false

/-- What a step of the main loop is for the clients. -/
def sessionEvent (w : Loop) : LoopEvent → Option SessionEvent
  | .server calls =>
    match w.phase with
    | .accepting =>
      if (w.fds 0).revents then
        calls.accept.map fun x =>
          .accept x.1 x.2 (findSlot 1 fun i => (w.fds i).fd.isNone).isSome
      else none
    | .executing i (some line) => (w.connections i).map fun c => .line c.id line calls.line
    | .stopping k =>
      (findSlot k fun j => (w.fds j).fd.isSome).bind fun i =>
        (w.connections i).map fun c => .line c.id (lit "QUIT") calls.line
    | _ => none
  | .hangup id _ => if w.phase = .stopped then none else some (.hangup id)
  | .dataConnect fd => if w.phase = .stopped then none else some (.dataConnect fd)
  | .child k cans => if w.phase = .stopped then none else some (.child k cans)
  | _ => none

/-- What a run of the main loop is for the clients. -/
def sessionEvents (u : Settings) (events : List LoopEvent) : List SessionEvent :=
  (loop u).seen (fun w e _ => sessionEvent w e) events

/-- `fdopen` succeeds if it is called. -/
def StreamOpens (w : Loop) : LoopEvent → Prop
  | .server calls => w.phase = .accepting → (w.fds 0).revents = true → calls.accept ≠ none →
      (findSlot 1 fun i => (w.fds i).fd.isNone) ≠ none → calls.fdopen = true
  | _ => True

instance (w : Loop) : ∀ e, Decidable (StreamOpens w e)
  | .server _ => inferInstanceAs (Decidable (_ → _ → _ → _ → _))
  | .arrive .. | .hangup .. | .dataConnect _ | .child .. | .signal => .isTrue trivial

/-- The records in the slots are the clients' records. -/
structure Tracks (u : Settings) (w : Loop) (S : Sessions) : Prop where
  world : w.phase ≠ .stopped → S.world = w.world
  record : ∀ i c, w.connections i = some c → S.conns c.id = some c.connection
  slot : ∀ i c, w.connections i = some c →
    i ≠ 0 ∧ (w.fds i).fd = some c.connection.clientSockfd
  apart : ∀ i j c c', w.connections i = some c → w.connections j = some c' → c.id = c'.id → i = j
  served : ∀ id, S.conns id ≠ none → ∃ i c, w.connections i = some c ∧ c.id = id
  live : ∀ i, i ≠ 0 → (w.fds i).fd ≠ none → w.phase.closed i = false → w.connections i ≠ none
  listens : (w.fds 0).fd = some u.server.sockfd

section

variable {u : Settings} {w w' : Loop} {S S' : Sessions} {calls : Calls} {e : LoopEvent}
  {i : SlotIndex}

/-- Clients are accepted after `poll`. -/
theorem sessionEvent_accept {fd : Fd} {addr : SockAddr} {served : Bool}
    (h : sessionEvent w e = some (.accept fd addr served)) :
    ∃ calls, e = .server calls ∧ w.phase = .accepting ∧ (w.fds 0).revents = true ∧
      calls.accept = some (fd, addr) ∧
        served = (findSlot 1 fun i => (w.fds i).fd.isNone).isSome := by
  have hother : ∀ e' : SessionEvent, (∀ fd addr served, e' ≠ .accept fd addr served) →
      (if w.phase = .stopped then none else some e') ≠ some (.accept fd addr served) := by
    intro e' he' hsome
    split at hsome
    next => cases hsome
    next => exact he' fd addr served (Option.some.inj hsome)
  cases e with
  | server calls =>
    unfold sessionEvent at h
    dsimp only at h
    cases hphase : w.phase with
    | accepting =>
      rw [hphase] at h
      dsimp only at h
      split at h
      next hready =>
        obtain ⟨⟨fd', addr'⟩, hx, hacc⟩ := Option.map_eq_some_iff.mp h
        cases hacc
        exact ⟨calls, rfl, rfl, hready, hx, rfl⟩
      next => cases h
    | executing i buffer =>
      rw [hphase] at h
      cases buffer with
      | none => cases h
      | some line =>
        obtain ⟨c, -, hline⟩ := Option.map_eq_some_iff.mp h
        cases hline
    | stopping k =>
      rw [hphase] at h
      obtain ⟨i, -, hline⟩ := Option.bind_eq_some_iff.mp h
      obtain ⟨c, -, hline⟩ := Option.map_eq_some_iff.mp hline
      cases hline
    | _ =>
      rw [hphase] at h
      cases h
  | hangup id reset => exact absurd h (hother _ (by simp))
  | dataConnect fd' => exact absurd h (hother _ (by simp))
  | child k cans => exact absurd h (hother _ (by simp))
  | arrive => cases h
  | signal => cases h

/-- A step that changes no record, and moves no client. -/
theorem Tracks.congr (hT : Tracks u w S) (hstopped : w'.phase ≠ .stopped → w.phase ≠ .stopped)
    (hworld : w'.phase ≠ .stopped → w'.world = w.world)
    (hfds : ∀ i, (w'.fds i).fd = (w.fds i).fd)
    (hconns : ∀ i, (w'.connections i).map (fun c => (c.id, c.connection)) =
      (w.connections i).map fun c => (c.id, c.connection))
    (hclosed : ∀ i, w'.phase.closed i = false → w.phase.closed i = false) : Tracks u w' S := by
  have hback : ∀ i c, w'.connections i = some c →
      ∃ c₀, w.connections i = some c₀ ∧ c₀.id = c.id ∧ c₀.connection = c.connection := by
    intro i c hc
    have hi := hconns i
    rw [hc] at hi
    obtain ⟨c₀, hc₀, heq⟩ := Option.map_eq_some_iff.mp hi.symm
    obtain ⟨hid, hrec⟩ := Prod.mk.inj heq
    exact ⟨c₀, hc₀, hid, hrec⟩
  refine ⟨fun h => ?_, fun i c hc => ?_, fun i c hc => ?_, fun i j c c' hc hc' hid => ?_,
    fun id hid => ?_, fun i hi hfd hopen => ?_, ?_⟩
  · rw [hworld h]
    exact hT.world (hstopped h)
  · obtain ⟨c₀, hc₀, hid, hrec⟩ := hback i c hc
    rw [← hid, ← hrec]
    exact hT.record i c₀ hc₀
  · obtain ⟨c₀, hc₀, -, hrec⟩ := hback i c hc
    rw [hfds, ← hrec]
    exact hT.slot i c₀ hc₀
  · obtain ⟨c₀, hc₀, hid₀, -⟩ := hback i c hc
    obtain ⟨c₁, hc₁, hid₁, -⟩ := hback j c' hc'
    exact hT.apart i j c₀ c₁ hc₀ hc₁ (by rw [hid₀, hid₁, hid])
  · obtain ⟨i, c, hc, rfl⟩ := hT.served id hid
    have hi := hconns i
    rw [hc] at hi
    obtain ⟨c', hc', heq⟩ := Option.map_eq_some_iff.mp hi
    exact ⟨i, c', hc', (Prod.mk.inj heq).1⟩
  · intro hnone
    have hi' := hconns i
    rw [hnone] at hi'
    rw [hfds] at hfd
    exact hT.live i hi hfd (hclosed i hopen) (Option.map_eq_none_iff.mp hi'.symm)
  · rw [hfds]
    exact hT.listens

/-- What a turn of `getline` does to the slots. -/
theorem Tracks.rebuffer {c : Client} (hT : Tracks u w S) (hc : w.connections i = some c)
    (buffer : List Byte) (received : ConnId → List Byte) {phase : Phase}
    (hstopped : w.phase ≠ .stopped) (hclosed : ∀ j, phase.closed j = false →
      w.phase.closed j = false) :
    Tracks u { w with
      connections := Function.update w.connections i (some { c with buffer })
      received, phase } S := by
  refine hT.congr (fun _ => hstopped) (fun _ => rfl) (fun _ => rfl) (fun j => ?_) hclosed
  by_cases hj : j = i
  · rw [hj, hc]
    show Option.map _ (Function.update w.connections i (some { c with buffer }) i) = _
    rw [Function.update_self]
    rfl
  · show Option.map _ (Function.update w.connections i (some { c with buffer }) j) = _
    rw [Function.update_of_ne hj]

/-- A client is accepted and gets a slot that is free. -/
theorem Tracks.accepted {fd : Fd} {addr : SockAddr} {connection : Connection} {world : World}
    (hT : Tracks u w S) (hreach : (sessions u.toSetup).Reachable S)
    (hphase : w.phase = .accepting) (hi : i ≠ 0)
    (hfree : (w.fds i).fd = none)
    (hworld : w.world.accept u.server fd addr = .ok (connection, world)) :
    ∃ S', S.step u.server (.accept fd addr true) = .ok S' ∧
      Tracks u { w with
        world
        connections := Function.update w.connections i (some ⟨w.world.nextId, connection, []⟩)
        fds := Function.update w.fds i { w.fds i with fd := some fd }
        phase := .serving 1 } S' := by
  have hsame : S.world = w.world := hT.world (by rw [hphase]; simp)
  obtain ⟨-, hconnection, -⟩ := World.accept_eq_ok hworld
  obtain ⟨events, hrun⟩ := hreach
  have hnew : S.conns w.world.nextId = none := by
    rw [← hsame]
    exact (fresh_of_run hrun _ (Nat.le_refl _)).1
  have hempty : w.connections i = none := by
    by_contra hne
    obtain ⟨c, hc⟩ := Option.ne_none_iff_exists'.mp hne
    rw [(hT.slot i c hc).2] at hfree
    cases hfree
  have hold : ∀ j c, w.connections j = some c → j ≠ i ∧ c.id ≠ w.world.nextId := by
    intro j c hc
    refine ⟨?_, fun hid => ?_⟩
    · rintro rfl
      rw [hempty] at hc
      cases hc
    · have hrec := hT.record j c hc
      rw [hid, hnew] at hrec
      cases hrec
  refine ⟨{ world, conns := Function.update S.conns w.world.nextId (some connection) }, ?_, ?_⟩
  · show (S.world.accept u.server fd addr).map _ = _
    rw [hsame, hworld]
    rfl
  have hcases : ∀ j c, Function.update w.connections i (some ⟨w.world.nextId, connection, []⟩) j =
      some c → (j = i ∧ c = ⟨w.world.nextId, connection, []⟩) ∨
        (j ≠ i ∧ w.connections j = some c) := by
    intro j c hc
    by_cases hj : j = i
    · rw [hj, Function.update_self] at hc
      exact .inl ⟨hj, (Option.some.inj hc).symm⟩
    · rw [Function.update_of_ne hj] at hc
      exact .inr ⟨hj, hc⟩
  refine ⟨fun _ => rfl, fun j c hc => ?_, fun j c hc => ?_, fun j k c c' hc hc' hid => ?_,
    fun id hid => ?_, fun j hj hfd _ => ?_, ?_⟩
  · show Function.update S.conns w.world.nextId (some connection) c.id = some c.connection
    rcases hcases j c hc with ⟨-, rfl⟩ | ⟨-, hc⟩
    · exact Function.update_self ..
    · rw [Function.update_of_ne (hold j c hc).2]
      exact hT.record j c hc
  · show j ≠ 0 ∧ (Function.update w.fds i { w.fds i with fd := some fd } j).fd = _
    rcases hcases j c hc with ⟨rfl, rfl⟩ | ⟨hj, hc⟩
    · rw [Function.update_self, hconnection]
      exact ⟨hi, rfl⟩
    · rw [Function.update_of_ne hj]
      exact hT.slot j c hc
  · rcases hcases j c hc with ⟨rfl, rfl⟩ | ⟨-, hc⟩
    · rcases hcases k c' hc' with ⟨rfl, -⟩ | ⟨-, hc'⟩
      · rfl
      · exact absurd hid.symm (hold k c' hc').2
    · rcases hcases k c' hc' with ⟨-, rfl⟩ | ⟨-, hc'⟩
      · exact absurd hid (hold j c hc).2
      · exact hT.apart j k c c' hc hc' hid
  · by_cases hid' : id = w.world.nextId
    · exact ⟨i, _, Function.update_self .., hid'.symm⟩
    · have hid : Function.update S.conns w.world.nextId (some connection) id ≠ none := hid
      rw [Function.update_of_ne hid'] at hid
      obtain ⟨j, c, hc, rfl⟩ := hT.served id hid
      exact ⟨j, c, (Function.update_of_ne (hold j c hc).1 ..).trans hc, rfl⟩
  · show Function.update w.connections i _ j ≠ none
    have hfd : (Function.update w.fds i { w.fds i with fd := some fd } j).fd ≠ none := hfd
    by_cases hji : j = i
    · rw [hji, Function.update_self]
      simp
    · rw [Function.update_of_ne hji] at hfd ⊢
      exact hT.live j hj hfd (by rw [hphase]; rfl)
  · show (Function.update w.fds i _ 0).fd = _
    rw [Function.update_of_ne hi.symm]
    exact hT.listens

/-- A client is accepted and gets no slot. -/
theorem Tracks.full {fd : Fd} {addr : SockAddr} {connection : Connection} {world : World}
    (hT : Tracks u w S) (hphase : w.phase = .accepting)
    (hworld : w.world.accept u.server fd addr = .ok (connection, world)) :
    ∃ S', S.step u.server (.accept fd addr false) = .ok S' ∧
      Tracks u { w with world, phase := .serving 1 } S' := by
  have hsame : S.world = w.world := hT.world (by rw [hphase]; simp)
  refine ⟨{ world, conns := S.conns }, ?_, ?_⟩
  · show (S.world.accept u.server fd addr).map _ = _
    rw [hsame, hworld]
    rfl
  · exact ⟨fun _ => rfl, hT.record, hT.slot, hT.apart, hT.served,
      fun i hi hfd _ => hT.live i hi hfd (by rw [hphase]; rfl), hT.listens⟩

/-- The client in the slot `i` gets another record, or leaves. -/
theorem Tracks.handled {c : Client} {stays : Bool} {connection : Connection} {world : World}
    {fds : SlotIndex → PollFd} {phase : Phase} (hT : Tracks u w S)
    (hc : w.connections i = some c) (hfds : ∀ j, j ≠ i → fds j = w.fds j)
    (hfd : stays = true → fds i = w.fds i ∧
      connection.clientSockfd = c.connection.clientSockfd)
    (hleft : stays = false → (fds i).fd = none ∨ phase.closed i = true)
    (hclosed : ∀ j, phase.closed j = false → w.phase.closed j = false) :
    Tracks u { w with
      world
      connections := Function.update w.connections i
        (if stays then some { c with connection } else none)
      fds, phase } (S.handled c.id (stays, connection, world)) := by
  have hcases : ∀ j d, Function.update w.connections i
      (if stays then some { c with connection } else none) j = some d →
        (j = i ∧ stays = true ∧ d = { c with connection }) ∨
          (j ≠ i ∧ d.id ≠ c.id ∧ w.connections j = some d) := by
    intro j d hd
    by_cases hj : j = i
    · rw [hj, Function.update_self] at hd
      split at hd
      next hstays => exact .inl ⟨hj, hstays, (Option.some.inj hd).symm⟩
      next => cases hd
    · rw [Function.update_of_ne hj] at hd
      exact .inr ⟨hj, fun hid => hj (hT.apart j i d c hd hc hid), hd⟩
  have hzero : i ≠ 0 := (hT.slot i c hc).1
  refine ⟨fun _ => rfl, fun j d hd => ?_, fun j d hd => ?_, fun j k d d' hd hd' hid => ?_,
    fun id hid => ?_, fun j hj hopen hphase => ?_, ?_⟩
  · rcases hcases j d hd with ⟨-, rfl, rfl⟩ | ⟨-, hid, hd⟩
    · exact handled_stays S c.id connection world
    · rw [handled_of_ne hid]
      exact hT.record j d hd
  · rcases hcases j d hd with ⟨rfl, hstays, rfl⟩ | ⟨hj, -, hd⟩
    · obtain ⟨hsame, hctl⟩ := hfd hstays
      refine ⟨hzero, ?_⟩
      show (fds j).fd = some connection.clientSockfd
      rw [hsame, hctl]
      exact (hT.slot j c hc).2
    · refine ⟨(hT.slot j d hd).1, ?_⟩
      show (fds j).fd = _
      rw [hfds j hj]
      exact (hT.slot j d hd).2
  · rcases hcases j d hd with ⟨rfl, -, rfl⟩ | ⟨-, hne, hd⟩
    · rcases hcases k d' hd' with ⟨rfl, -⟩ | ⟨-, hne', -⟩
      · rfl
      · exact absurd hid.symm hne'
    · rcases hcases k d' hd' with ⟨-, -, rfl⟩ | ⟨-, -, hd'⟩
      · exact absurd hid hne
      · exact hT.apart j k d d' hd hd' hid
  · by_cases hid' : id = c.id
    · subst hid'
      cases stays with
      | false =>
        rw [handled_leaves] at hid
        exact absurd rfl hid
      | true => exact ⟨i, { c with connection }, Function.update_self .., rfl⟩
    · rw [handled_of_ne hid'] at hid
      obtain ⟨j, d, hd, rfl⟩ := hT.served id hid
      have hj : j ≠ i := by
        rintro rfl
        rw [hc] at hd
        exact hid' (congrArg Client.id (Option.some.inj hd)).symm
      exact ⟨j, d, (Function.update_of_ne hj ..).trans hd, rfl⟩
  · show Function.update w.connections i _ j ≠ none
    by_cases hji : j = i
    · subst hji
      rw [Function.update_self]
      cases stays with
      | true => simp
      | false =>
        rcases hleft rfl with hnone | hdone
        · exact absurd hnone hopen
        · rw [hdone] at hphase
          cases hphase
    · rw [Function.update_of_ne hji]
      have hopen' : (fds j).fd ≠ none := hopen
      rw [hfds j hji] at hopen'
      exact hT.live j hj hopen' (hclosed j hphase)
  · show (fds 0).fd = _
    rw [hfds 0 hzero.symm]
    exact hT.listens

/-- Nothing was said or done. -/
theorem merge_start (world : World) (id : ConnId) (c : Connection) :
    world.merge id (Ctx.start world.os c) = world := by
  unfold World.merge Ctx.start
  simp

/-- The end of a stream changes nothing: the 1 that `handle_client_command` returns then is
not `COMMAND_QUIT`. -/
theorem handleConnection_none (server : ServerT) (ans : Answers) (fd : Fd) (s : Ctx) :
    handleConnection server ans fd none s = (.ok true, s) := rfl

/-- A line, or the end of a stream, is handled. -/
theorem Tracks.execute {buffer : Option CStr} {c : Client} {fd : Fd} {stays : Bool}
    {connection : Connection} {world : World} (hT : Tracks u w S)
    (hreach : (sessions u.toSetup).Reachable S) (hphase : w.phase = .executing i buffer)
    (hc : w.connections i = some c) (hfd : (w.fds i).fd = some fd)
    (hexec : w.world.exec c.id c.connection
      (handleConnection u.server calls.line fd buffer) = .ok (stays, connection, world)) :
    match sessionEvent w (.server calls) with
    | some e => ∃ S', S.step u.server e = .ok S' ∧ Tracks u { w with
        world
        connections := Function.update w.connections i
          (if stays then some { c with connection } else none)
        fds := if stays then w.fds else Function.update w.fds i { w.fds i with fd := none }
        phase := .serving (i.val + 1) } S'
    | none => Tracks u { w with
        world
        connections := Function.update w.connections i
          (if stays then some { c with connection } else none)
        fds := if stays then w.fds else Function.update w.fds i { w.fds i with fd := none }
        phase := .serving (i.val + 1) } S := by
  have hsame : S.world = w.world := hT.world (by rw [hphase]; simp)
  have hctl : fd = c.connection.clientSockfd := Option.some.inj (hfd.symm.trans (hT.slot i c hc).2)
  cases buffer with
  | none =>
    have hevent : sessionEvent w (.server calls) = none := by
      unfold sessionEvent
      rw [hphase]
    obtain ⟨s, hp, rfl, rfl⟩ := World.exec_eq_ok hexec
    rw [handleConnection_none] at hp
    cases hp
    rw [hevent, merge_start]
    dsimp only
    refine hT.congr (fun _ => by rw [hphase]; simp) (fun _ => rfl) (fun _ => rfl) (fun j => ?_)
      fun j _ => by rw [hphase]; rfl
    show Option.map _ (Function.update w.connections i _ j) = _
    by_cases hj : j = i
    · rw [hj, Function.update_self, hc]
      rfl
    · rw [Function.update_of_ne hj]
  | some line =>
    have hevent : sessionEvent w (.server calls) = some (.line c.id line calls.line) := by
      unfold sessionEvent
      rw [hphase]
      dsimp only
      rw [hc]
      rfl
    rw [hevent]
    dsimp only
    have hstep : S.step u.server (.line c.id line calls.line) =
        .ok (S.handled c.id (stays, connection, world)) := by
      show S.handleLine u.server c.id line calls.line = _
      unfold Sessions.handleLine
      rw [hT.record i c hc]
      dsimp only
      rw [hsame, ← hctl, hexec]
      rfl
    refine ⟨_, hstep, ?_⟩
    refine hT.handled hc (fun j hj => ?_) (fun hstays => ⟨?_, ?_⟩) (fun hleft => .inl ?_)
      fun j _ => by rw [hphase]; rfl
    · split
      next => rfl
      next => exact Function.update_of_ne hj ..
    · rw [if_pos hstays]
    · obtain ⟨events, hrun⟩ := hreach
      refine control_step hrun hstep (hT.record i c hc) ?_
      rw [hstays]
      exact handled_stays ..
    · rw [hleft, if_neg (by simp), Function.update_self]

/-- What `destroy_server` does with a slot. -/
theorem serviceClosing_apply (s : Ctx) :
    (do
      dprintf s.conn.clientSockfd .serviceClosing
      destroyConnection
      close s.conn.clientSockfd : M Unit) s =
        if s.os.kills s.conn.clientSockfd then (.error .sigpipe, s) else (.ok (), s.goodbye) := by
  rw [dprintf_bind_apply]
  by_cases hk : s.os.kills s.conn.clientSockfd = true
  · rw [if_pos hk, if_pos hk]
  · rw [if_neg hk, if_neg hk, Prog.bind_of_ok (destroyConnection_apply _), close, setDesc_apply]
    simp [Ctx.withDesc, Ctx.goodbye, Connection.tornDown]

/-- A slot is closed down at the end, as if its client had sent `QUIT`. -/
theorem Tracks.destroy {k : Nat} {c : Client} {fd : Fd} {connection : Connection} {world : World}
    (hT : Tracks u w S) (hphase : w.phase = .stopping k) (hk : k ≤ i.val)
    (hc : w.connections i = some c) (hfd : (w.fds i).fd = some fd)
    (hexec : w.world.exec c.id c.connection (do
      dprintf fd .serviceClosing
      destroyConnection
      close fd) = .ok ((), connection, world)) (ans : Answers) :
    ∃ S', S.step u.server (.line c.id (lit "QUIT") ans) = .ok S' ∧ Tracks u { w with
      world
      connections := Function.update w.connections i none
      phase := .stopping (i.val + 1) } S' := by
  have hsame : S.world = w.world := hT.world (by rw [hphase]; simp)
  have hctl : fd = c.connection.clientSockfd := Option.some.inj (hfd.symm.trans (hT.slot i c hc).2)
  obtain ⟨s, hp, rfl, rfl⟩ := World.exec_eq_ok hexec
  have happly := serviceClosing_apply (Ctx.start w.world.os c.connection)
  rw [hctl] at hp
  have hp' := happly.symm.trans hp
  by_cases hkills : w.world.os.kills c.connection.clientSockfd = true
  · have hkills' : (Ctx.start w.world.os c.connection).os.kills
      (Ctx.start w.world.os c.connection).conn.clientSockfd = true := hkills
    rw [if_pos hkills'] at hp'
    cases hp'
  · have hkills' : ¬ (Ctx.start w.world.os c.connection).os.kills
      (Ctx.start w.world.os c.connection).conn.clientSockfd = true := hkills
    rw [if_neg hkills'] at hp'
    cases hp'
    refine ⟨S.handled c.id (false, c.connection,
      w.world.merge c.id (Ctx.start w.world.os c.connection).goodbye), ?_, ?_⟩
    · show S.handleLine u.server c.id (lit "QUIT") ans = _
      have hparse : parseBuffer (lit "QUIT") = .ok (some ⟨lit "QUIT", []⟩) := by decide
      rw [handleLine_quit (hT.record i c hc) hparse (by decide), hsame, if_neg hkills]
    · have hleaves : Tracks u { w with
          world := w.world.merge c.id (Ctx.start w.world.os c.connection).goodbye
          connections := Function.update w.connections i
            (if false = true then some { c with connection := c.connection } else none)
          phase := .stopping (i.val + 1) } (S.handled c.id (false, c.connection,
            w.world.merge c.id (Ctx.start w.world.os c.connection).goodbye)) := by
        refine hT.handled hc (fun _ _ => rfl) (fun h => ?_) (fun _ => .inr ?_) fun j hj => ?_
        · cases h
        · exact decide_eq_true (Nat.lt_succ_self _)
        · rw [hphase]
          have hj' : ¬ j.val < i.val + 1 := of_decide_eq_false hj
          exact decide_eq_false (by omega)
      exact hleaves

/-- A step that is one of the other machine, or none that it sees. -/
def FollowedBy (u : Settings) (S : Sessions) (w' : Loop) : Option SessionEvent → Prop
  | some e => ∃ S', S.step u.server e = .ok S' ∧ Tracks u w' S'
  | none => Tracks u w' S

/-- The server goes on. -/
theorem Tracks.server (hT : Tracks u w S) (hreach : (sessions u.toSetup).Reachable S)
    (hopens : StreamOpens w (.server calls)) (h : w.server u calls = .ok w') :
    FollowedBy u S w' (sessionEvent w (.server calls)) := by
  -- most steps are nothing to the clients
  have hquiet : ∀ {w₁ : Loop}, sessionEvent w (.server calls) = none → Tracks u w₁ S →
      FollowedBy u S w₁ (sessionEvent w (.server calls)) := by
    intro w₁ hnone hT₁
    rw [hnone]
    exact hT₁
  cases server_step h with
  | leave hphase =>
    refine hquiet (by rw [sessionEvent, hphase]) (hT.congr ?_ ?_ ?_ ?_ ?_)
    · exact fun _ => by rw [hphase]; simp
    · exact fun _ => rfl
    · exact fun _ => rfl
    · exact fun _ => rfl
    · exact fun _ _ => by rw [hphase]; rfl
  | poll ready hphase =>
    refine hquiet (by rw [sessionEvent, hphase]) (hT.congr ?_ ?_ ?_ ?_ ?_)
    · exact fun _ => by rw [hphase]; simp
    · exact fun _ => rfl
    · exact fun _ => rfl
    · exact fun _ => rfl
    · exact fun _ _ => by rw [hphase]; rfl
  | nobody hphase hnone =>
    refine hquiet ?_ (hT.congr ?_ ?_ ?_ ?_ ?_)
    · rw [sessionEvent, hphase]
      dsimp only
      rcases hnone with hready | haccept
      · rw [hready, if_neg (by simp)]
      · rw [haccept, Option.map_none, ite_self]
    · exact fun _ => by rw [hphase]; simp
    · exact fun _ => rfl
    · exact fun _ => rfl
    · exact fun _ => rfl
    · exact fun _ _ => by rw [hphase]; rfl
  | full fd addr connection world hphase hready haccept hworld hfull =>
    have hevent : sessionEvent w (.server calls) = some (.accept fd addr false) := by
      rw [sessionEvent, hphase]
      dsimp only
      rw [if_pos hready, haccept, hfull]
      rfl
    rw [hevent]
    exact hT.full hphase hworld
  | accepted fd addr connection world i hphase hready haccept hworld hfree =>
    have hevent : sessionEvent w (.server calls) = some (.accept fd addr true) := by
      rw [sessionEvent, hphase]
      dsimp only
      rw [if_pos hready, haccept, hfree]
      rfl
    obtain ⟨hi, -, hnone⟩ := findSlot_eq_some hfree
    have hopen : calls.fdopen = true :=
      hopens hphase hready (by rw [haccept]; simp) (by rw [hfree]; simp)
    rw [hevent, if_pos hopen, if_pos hopen]
    exact hT.accepted hreach hphase hi (Option.isNone_iff_eq_none.mp hnone) hworld
  | served k hphase =>
    refine hquiet (by rw [sessionEvent, hphase]) (hT.congr ?_ ?_ ?_ ?_ ?_)
    · exact fun _ => by rw [hphase]; simp
    · exact fun _ => rfl
    · exact fun _ => rfl
    · exact fun _ => rfl
    · exact fun _ _ => by rw [hphase]; rfl
  | enter k i hphase =>
    refine hquiet (by rw [sessionEvent, hphase]) (hT.congr ?_ ?_ ?_ ?_ ?_)
    · exact fun _ => by rw [hphase]; simp
    · exact fun _ => rfl
    · exact fun _ => rfl
    · exact fun _ => rfl
    · exact fun _ _ => by rw [hphase]; rfl
  | line i taken bytes rest c hphase hc =>
    refine hquiet (by rw [sessionEvent, hphase]) (hT.rebuffer hc rest w.received ?_ ?_)
    · rw [hphase]
      simp
    · exact fun _ _ => by rw [hphase]; rfl
  | more i taken taken' buffer waiting c hphase hc =>
    refine hquiet (by rw [sessionEvent, hphase]) (hT.rebuffer hc buffer _ ?_ ?_)
    · rw [hphase]
      simp
    · exact fun _ _ => by rw [hphase]; rfl
  | ended i taken bytes c hphase hc =>
    refine hquiet (by rw [sessionEvent, hphase]) (hT.rebuffer hc [] w.received ?_ ?_)
    · rw [hphase]
      simp
    · exact fun _ _ => by rw [hphase]; rfl
  | execute i buffer c fd stays connection world hphase hc hfd hexec =>
    exact hT.execute hreach hphase hc hfd hexec
  | destroy k i c fd connection world hphase hnext hc hfd hexec =>
    have hevent : sessionEvent w (.server calls) = some (.line c.id (lit "QUIT") calls.line) := by
      rw [sessionEvent, hphase]
      dsimp only
      rw [hnext, Option.bind_some, hc]
      rfl
    rw [hevent]
    exact hT.destroy hphase (findSlot_eq_some hnext).2.1 hc hfd hexec calls.line
  | stop k hphase hnone =>
    refine hquiet ?_ (hT.congr ?_ ?_ ?_ ?_ ?_)
    · rw [sessionEvent, hphase]
      dsimp only
      rw [hnone]
      rfl
    · exact fun h => absurd rfl h
    · exact fun h => absurd rfl h
    · exact fun _ => rfl
    · exact fun _ => rfl
    · intro i hi
      cases hi

/-- A step of somebody else. -/
theorem Tracks.elsewhere (hT : Tracks u w S) (world : World) (received : ConnId → List Byte)
    (stopServer : Bool) (hworld : w.phase ≠ .stopped → S'.world = world)
    (hconns : S'.conns = S.conns) : Tracks u { w with world, received, stopServer } S' := by
  refine ⟨hworld, fun i c hc => ?_, hT.slot, hT.apart, fun id hid => ?_, hT.live, hT.listens⟩
  · rw [hconns]
    exact hT.record i c hc
  · rw [hconns] at hid
    exact hT.served id hid

/-- **One step.** -/
theorem Tracks.step (hT : Tracks u w S) (hreach : (sessions u.toSetup).Reachable S)
    (hopens : StreamOpens w e) (h : w.step u e = .ok w') :
      FollowedBy u S w' (sessionEvent w e) := by
  -- once the server has stopped, what happens is nothing to the clients
  have hover : ∀ (world : World) (received : ConnId → List Byte), w.phase = .stopped →
      Tracks u { w with world, received } S := fun world received hstopped =>
    hT.elsewhere world received w.stopServer (fun hne => absurd hstopped hne) rfl
  cases e with
  | server calls => exact hT.server hreach hopens h
  | arrive id bytes =>
    unfold Loop.step at h
    dsimp only at h
    split at h
    next => cases h
    next =>
      cases h
      exact hT.elsewhere w.world _ w.stopServer hT.world rfl
  | hangup id reset =>
    cases h
    by_cases hstopped : w.phase = .stopped
    · rw [sessionEvent, if_pos hstopped]
      exact hover _ _ hstopped
    · rw [sessionEvent, if_neg hstopped]
      refine ⟨{ S with world := S.world.hangup id }, rfl, ?_⟩
      refine hT.elsewhere _ _ w.stopServer (fun hne => ?_) rfl
      exact congrArg (World.hangup · id) (hT.world hne)
  | dataConnect fd =>
    obtain ⟨world, hworld, rfl⟩ := map_eq_ok h
    by_cases hstopped : w.phase = .stopped
    · rw [sessionEvent, if_pos hstopped]
      exact hover _ _ hstopped
    · rw [sessionEvent, if_neg hstopped]
      refine ⟨{ S with world }, ?_, hT.elsewhere world _ w.stopServer (fun _ => rfl) rfl⟩
      show (S.world.dataConnect fd).map _ = _
      rw [hT.world hstopped, hworld]
      rfl
  | child k cans =>
    obtain ⟨world, hworld, rfl⟩ := map_eq_ok h
    by_cases hstopped : w.phase = .stopped
    · rw [sessionEvent, if_pos hstopped]
      exact hover _ _ hstopped
    · rw [sessionEvent, if_neg hstopped]
      refine ⟨{ S with world }, ?_, hT.elsewhere world _ w.stopServer (fun _ => rfl) rfl⟩
      show (S.world.runChild u.server k cans).map _ = _
      rw [hT.world hstopped, hworld]
      rfl
  | signal =>
    cases h
    exact hT.elsewhere w.world w.received true hT.world rfl

end

/-- **The main loop serves its clients.** Every run of the main loop in which `fdopen`
succeeds is a run of the machine that handles their lines, with the records of the slots. -/
theorem tracks_of_run {u : Settings} {events : List LoopEvent} {w : Loop}
    (hrun : (loop u).run events = .ok w) (hopens : (loop u).Meets StreamOpens events) :
    ∃ S, (sessions u.toSetup).run (sessionEvents u events) = .ok S ∧ Tracks u w S := by
  refine Machine.run_simulation (m := loop u) (n := sessions u.toSetup)
    (C := StreamOpens) (R := Tracks u) (f := fun w e _ => sessionEvent w e) ?_ ?_ events w
    hopens hrun
  · refine ⟨fun _ => rfl, fun i c hc => ?_, fun i c hc => ?_, fun i j c c' hc =>
      ?_, fun id hid => ?_,
      fun i hi hfd => ?_, rfl⟩
    · cases hc
    · cases hc
    · cases hc
    · exact absurd rfl hid
    · have hfd' : (initPollFds u.server.sockfd i).fd ≠ none := hfd
      unfold initPollFds at hfd'
      rw [if_neg hi] at hfd'
      exact absurd rfl hfd'
  · intro w S e w' hreach hT hopen hstep
    have hfollowed := hT.step hreach hopen hstep
    cases hevent : sessionEvent w e with
    | none =>
      rw [hevent] at hfollowed
      exact hfollowed
    | some e' =>
      rw [hevent] at hfollowed
      exact hfollowed

end MyFtp.Server
