import MyFtp.Server.SlotTable

/-!
# Clients that are gone

`read_socket` returns a null pointer at the end of a stream, `handle_client_command` then
returns 1, and `handle_connection` closes a connection only on `COMMAND_QUIT`, which is
another number.

> `lost_client_stays`: a client that is gone, and of which everything was read, keeps its
> slot as long as the main loop runs.
-/

namespace MyFtp.Server

open MyFtp.Posix
open Prog

/-- The client in the slot closed its connection, and all it had sent is read. -/
structure Lost (w : Loop) (i : SlotIndex) (c : Client) : Prop where
  entry : w.connections i = some c
  live : (w.fds i).fd ≠ none
  gone : w.world.os.hungup c.id = true
  received : w.received c.id = []
  buffer : c.buffer = []

/-- The loop is not in the middle of a line of the slot, and not at its end. -/
def Phase.idle (i : SlotIndex) : Phase → Prop
  | .reading j taken => j = i → taken = []
  | .executing j line => j = i → line = none
  | .stopping _ | .stopped => False
  | _ => True

/-- The main loop is left. -/
def Phase.leaving : Phase → Bool
  | .stopping _ | .stopped => true
  | _ => false

section

variable {u : Settings} {w w' : Loop} {events : List LoopEvent} {e : LoopEvent} {calls : Calls}
  {i j : SlotIndex} {c c' : Client}

/-- Where the client of an entry comes from in one step. -/
theorem entry_step (h : w.step u e = .ok w') (hc : w'.connections i = some c) :
    (∃ c₀, w.connections i = some c₀ ∧ c₀.id = c.id) ∨
      (c.id = w.world.nextId ∧ findSlot 1 (fun i => (w.fds i).fd.isNone) = some i) := by
  by_cases hserver : ∃ calls, e = .server calls
  · obtain ⟨calls, rfl⟩ := hserver
    cases server_step h with
    | accepted fd addr connection world j hphase hready haccept hworld hfree =>
      rcases update_entry hc with ⟨rfl, hnew⟩ | ⟨-, hold⟩
      · split at hnew
        next => exact .inr ⟨congrArg Client.id (Option.some.inj hnew).symm, hfree⟩
        next => cases hnew
      · exact .inl ⟨c, hold, rfl⟩
    | line j taken bytes rest c₀ hphase hc₀ =>
      rcases update_entry hc with ⟨rfl, hnew⟩ | ⟨-, hold⟩
      · obtain rfl := Option.some.inj hnew
        exact .inl ⟨c₀, hc₀, rfl⟩
      · exact .inl ⟨c, hold, rfl⟩
    | more j taken taken' buffer waiting c₀ hphase hc₀ =>
      rcases update_entry hc with ⟨rfl, hnew⟩ | ⟨-, hold⟩
      · obtain rfl := Option.some.inj hnew
        exact .inl ⟨c₀, hc₀, rfl⟩
      · exact .inl ⟨c, hold, rfl⟩
    | ended j taken bytes c₀ hphase hc₀ =>
      rcases update_entry hc with ⟨rfl, hnew⟩ | ⟨-, hold⟩
      · obtain rfl := Option.some.inj hnew
        exact .inl ⟨c₀, hc₀, rfl⟩
      · exact .inl ⟨c, hold, rfl⟩
    | execute j line c₀ fd stays connection world hphase hc₀ =>
      rcases update_entry hc with ⟨rfl, hnew⟩ | ⟨-, hold⟩
      · split at hnew
        next =>
          obtain rfl := Option.some.inj hnew
          exact .inl ⟨c₀, hc₀, rfl⟩
        next => cases hnew
      · exact .inl ⟨c, hold, rfl⟩
    | destroy k j c₀ fd connection world hphase hnext hc₀ =>
      rcases update_entry hc with ⟨rfl, hnew⟩ | ⟨-, hold⟩
      · cases hnew
      · exact .inl ⟨c, hold, rfl⟩
    | _ => exact .inl ⟨c, hc, rfl⟩
  · obtain ⟨-, hconns, -⟩ := arrays_elsewhere (fun calls he => hserver ⟨calls, he⟩) h
    rw [hconns] at hc
    exact .inl ⟨c, hc, rfl⟩

/-- No two slots have the same client. -/
theorem apart_of_run (hrun : (loop u).run events = .ok w) :
    ∀ i j c c', w.connections i = some c → w.connections j = some c' → c.id = c'.id → i = j := by
  refine Machine.run_induction (m := loop u)
    (I := fun _ w => ∀ i j c c', w.connections i = some c → w.connections j = some c' →
      c.id = c'.id → i = j) ?_ ?_ events w hrun
  · intro i j c c' hc
    cases hc
  intro events w e w' hrun hI hstep i j c c' hc hc' hid
  have hold : ∀ k c₀, w.connections k = some c₀ → c₀.id ≠ w.world.nextId := by
    intro k c₀ hk
    exact Nat.ne_of_lt ((recordOf_of_run hrun k c₀ hk).known hrun)
  rcases entry_step hstep hc with ⟨c₀, hc₀, hid₀⟩ | ⟨hnew, hfree⟩
  · rcases entry_step hstep hc' with ⟨c₁, hc₁, hid₁⟩ | ⟨hnew', -⟩
    · exact hI i j c₀ c₁ hc₀ hc₁ (by rw [hid₀, hid₁, hid])
    · exact absurd (by rw [hid₀, hid, hnew']) (hold i c₀ hc₀)
  · rcases entry_step hstep hc' with ⟨c₁, hc₁, hid₁⟩ | ⟨-, hfree'⟩
    · exact absurd (by rw [hid₁, ← hid, hnew]) (hold j c₁ hc₁)
    · exact Option.some.inj (hfree.symm.trans hfree')

/-- Handling a line brings nobody back. -/
theorem hungup_of_handleConnection {server : ServerT} {ans : Answers} {fd : Fd}
    {buffer : Option CStr} {stays : Bool} {s s' : Ctx}
    (h : handleConnection server ans fd buffer s = (.ok stays, s')) :
    s'.os.hungup = s.os.hungup := by
  cases buffer with
  | none =>
    rw [handleConnection_none] at h
    cases h
    rfl
  | some line =>
    obtain ⟨status, s₁, hcommand, hlast⟩ := bind_eq_ok h
    obtain ⟨parsed, s₂, hparse, hexec⟩ := bind_eq_ok hcommand
    have hs₂ : s₂ = s := by
      cases hp : parseBuffer line with
      | error e =>
        rw [hp, lift_error] at hparse
        cases hparse
      | ok parsed' =>
        rw [hp, lift_ok] at hparse
        cases hparse
        rfl
    have hs₁ : s₁.os.hungup = s.os.hungup := by
      rw [(signals_of_executeCommand hexec).2, hs₂]
    split at hlast
    next =>
      obtain ⟨_, s₃, hprint, hlast⟩ := bind_eq_ok hlast
      obtain ⟨-, rfl⟩ := dprintf_eq_ok hprint
      rw [bind_of_ok (destroyConnection_apply _), close, setDesc_bind_apply, pure_apply] at hlast
      cases hlast
      exact hs₁
    next =>
      rw [pure_apply] at hlast
      cases hlast
      exact hs₁

/-- No step of the server brings a client back. -/
theorem hungup_server (h : w.server u calls = .ok w') :
    w'.world.os.hungup = w.world.os.hungup := by
  cases server_step h with
  | full fd addr connection world hphase hready haccept hworld =>
    obtain ⟨-, -, rfl⟩ := World.accept_eq_ok hworld
    rfl
  | accepted fd addr connection world i hphase hready haccept hworld =>
    obtain ⟨-, -, rfl⟩ := World.accept_eq_ok hworld
    dsimp only
    split
    next => rfl
    next => rfl
  | execute i buffer c fd stays connection world hphase hc hfd hexec =>
    obtain ⟨s, hp, -, rfl⟩ := World.exec_eq_ok hexec
    exact hungup_of_handleConnection hp
  | destroy k i c fd connection world hphase hnext hc hfd hexec =>
    obtain ⟨s, hp, -, rfl⟩ := World.exec_eq_ok hexec
    obtain ⟨_, s₁, hprint, hp⟩ := bind_eq_ok hp
    obtain ⟨-, rfl⟩ := dprintf_eq_ok hprint
    rw [bind_of_ok (destroyConnection_apply _), close, setDesc_apply] at hp
    cases hp
    rfl
  | _ => rfl

/-- One step of somebody else, for a client that is gone. -/
theorem Lost.elsewhere (hL : Lost w i c) (hserver : ∀ calls, e ≠ .server calls)
    (h : w.step u e = .ok w') : Lost w' i c := by
  obtain ⟨hfds, hconns, -⟩ := arrays_elsewhere hserver h
  refine ⟨?_, ?_, ?_, ?_, hL.buffer⟩
  · rw [hconns]
    exact hL.entry
  · rw [hfds]
    exact hL.live
  · cases e with
    | server calls => exact absurd rfl (hserver calls)
    | arrive id bytes =>
      unfold Loop.step at h
      dsimp only at h
      split at h
      next => cases h
      next =>
        cases h
        exact hL.gone
    | hangup id reset =>
      cases h
      show Function.update w.world.os.hungup id true c.id = true
      by_cases hid : c.id = id
      · rw [hid, Function.update_self]
      · rw [Function.update_of_ne hid]
        exact hL.gone
    | dataConnect fd =>
      obtain ⟨world, hworld, rfl⟩ := map_eq_ok h
      obtain ⟨pending, -, rfl⟩ := World.dataConnect_eq_ok hworld
      exact hL.gone
    | child k cans =>
      obtain ⟨world, hworld, rfl⟩ := map_eq_ok h
      obtain ⟨id, child, s, -, -, rfl⟩ := World.runChild_eq_ok hworld
      exact hL.gone
    | signal =>
      cases h
      exact hL.gone
  · cases e with
    | server calls => exact absurd rfl (hserver calls)
    | arrive id bytes =>
      unfold Loop.step at h
      dsimp only at h
      split at h
      next => cases h
      next hup =>
        cases h
        -- nothing arrives from a client that is gone
        have hid : c.id ≠ id := by
          rintro rfl
          exact hup hL.gone
        show Function.update w.received id _ c.id = []
        rw [Function.update_of_ne hid]
        exact hL.received
    | hangup id reset =>
      cases h
      show (if reset then Function.update w.received id [] else w.received) c.id = []
      split
      next =>
        by_cases hid : c.id = id
        · rw [hid, Function.update_self]
        · rw [Function.update_of_ne hid]
          exact hL.received
      next => exact hL.received
    | dataConnect fd =>
      obtain ⟨world, -, rfl⟩ := map_eq_ok h
      exact hL.received
    | child k cans =>
      obtain ⟨world, -, rfl⟩ := map_eq_ok h
      exact hL.received
    | signal =>
      cases h
      exact hL.received

/-- A turn of `getline` that finds nothing, and nobody. -/
theorem Lost.turn (hL : Lost w i c) (ended : Bool) (n : Nat) :
    getlineTurn n [] c.buffer (w.received c.id) (w.world.os.hungup c.id || ended) = .ended [] := by
  rw [hL.gone, hL.received, hL.buffer]
  rfl

/-- A step of the server that leaves the slot alone. -/
theorem Lost.untouched (hL : Lost w i c) (hentry : w'.connections i = w.connections i)
    (hfd : (w'.fds i).fd = (w.fds i).fd) (hhungup : w'.world.os.hungup = w.world.os.hungup)
    (hreceived : w'.received c.id = w.received c.id) : Lost w' i c :=
  ⟨hentry.trans hL.entry, hfd ▸ hL.live, by rw [hhungup, hL.gone],
    hreceived.trans hL.received, hL.buffer⟩

/-- **One step of the server.** A turn of the slot is the end of the stream, and nothing
else. -/
theorem Lost.server (hrun : (loop u).run events = .ok w) (hL : Lost w i c)
    (hidle : w.phase.idle i) (h : w.server u calls = .ok w')
    (hphase' : ∀ k, w'.phase ≠ .stopping k) : Lost w' i c ∧ w'.phase.idle i := by
  have hhungup := hungup_server h
  have hsame : ∀ {j : SlotIndex} {x : Option Client}, j ≠ i →
      Function.update w.connections j x i = w.connections i := fun hj =>
    Function.update_of_ne hj.symm ..
  cases server_step h with
  | leave hphase => exact absurd rfl (hphase' 1)
  | poll ready hphase => exact ⟨hL.untouched rfl rfl rfl rfl, trivial⟩
  | nobody hphase => exact ⟨hL.untouched rfl rfl rfl rfl, trivial⟩
  | full fd addr connection world hphase => exact ⟨hL.untouched rfl rfl hhungup rfl, trivial⟩
  | accepted fd addr connection world j hphase hready haccept hworld hfree =>
    obtain ⟨-, -, hnone⟩ := findSlot_eq_some hfree
    have hj : j ≠ i := by
      rintro rfl
      exact hL.live (Option.isNone_iff_eq_none.mp hnone)
    refine ⟨hL.untouched (hsame hj) ?_ hhungup rfl, trivial⟩
    show (Function.update w.fds j _ i).fd = _
    rw [Function.update_of_ne hj.symm]
  | served k hphase => exact ⟨hL.untouched rfl rfl rfl rfl, trivial⟩
  | enter k j hphase => exact ⟨hL.untouched rfl rfl rfl rfl, fun _ => rfl⟩
  | line j taken bytes rest c₀ hphase hc₀ hturn =>
    have hj : j ≠ i := by
      rintro rfl
      obtain rfl := Option.some.inj (hc₀.symm.trans hL.entry)
      rw [hphase] at hidle
      rw [hidle rfl, hL.turn] at hturn
      cases hturn
    exact ⟨hL.untouched (hsame hj) rfl rfl rfl, fun h => absurd h hj⟩
  | more j taken taken' buffer waiting c₀ hphase hc₀ hturn =>
    have hj : j ≠ i := by
      rintro rfl
      obtain rfl := Option.some.inj (hc₀.symm.trans hL.entry)
      rw [hphase] at hidle
      rw [hidle rfl, hL.turn] at hturn
      cases hturn
    have hid : c.id ≠ c₀.id := fun hid => hj (apart_of_run hrun j i c₀ c hc₀ hL.entry hid.symm)
    refine ⟨hL.untouched (hsame hj) rfl rfl ?_, fun h => absurd h hj⟩
    exact Function.update_of_ne hid ..
  | ended j taken bytes c₀ hphase hc₀ hturn =>
    by_cases hj : j = i
    · subst hj
      obtain rfl := Option.some.inj (hc₀.symm.trans hL.entry)
      rw [hphase] at hidle
      rw [hidle rfl, hL.turn] at hturn
      cases hturn
      -- the stream's buffer was empty, and so the entry is as it was
      have hbuffer : ({ c₀ with buffer := [] } : Client) = c₀ := by
        rw [← hL.buffer]
      refine ⟨hL.untouched ?_ rfl rfl rfl, fun _ => rfl⟩
      show Function.update w.connections j (some { c₀ with buffer := [] }) j = _
      rw [Function.update_self, hbuffer, hL.entry]
    · exact ⟨hL.untouched (hsame hj) rfl rfl rfl, fun h => absurd h hj⟩
  | execute j buffer c₀ fd stays connection world hphase hc₀ hfd hexec =>
    by_cases hj : j = i
    · subst hj
      obtain rfl := Option.some.inj (hc₀.symm.trans hL.entry)
      rw [hphase] at hidle
      rw [hidle rfl] at hexec
      obtain ⟨s, hp, rfl, rfl⟩ := World.exec_eq_ok hexec
      -- the status is 1, which is `COMMAND_FAILURE`
      rw [handleConnection_none] at hp
      cases hp
      refine ⟨hL.untouched ?_ rfl hhungup rfl, trivial⟩
      show Function.update w.connections j (some { c₀ with connection := c₀.connection }) j = _
      rw [Function.update_self, hL.entry]
    · refine ⟨hL.untouched (hsame hj) ?_ hhungup rfl, trivial⟩
      dsimp only
      split
      next => rfl
      next => rw [Function.update_of_ne (Ne.symm hj)]
  | destroy k j c₀ fd connection world hphase =>
    rw [hphase] at hidle
    exact hidle.elim
  | stop k hphase =>
    rw [hphase] at hidle
    exact hidle.elim

/-- **One step.** A client that is gone keeps its slot. -/
theorem Lost.step (hrun : (loop u).run events = .ok w) (hL : Lost w i c) (hidle : w.phase.idle i)
    (h : w.step u e = .ok w') (hphase' : ∀ k, w'.phase ≠ .stopping k) :
    Lost w' i c ∧ w'.phase.idle i := by
  by_cases hserver : ∃ calls, e = .server calls
  · obtain ⟨calls, rfl⟩ := hserver
    exact hL.server hrun hidle h hphase'
  · have hother : ∀ calls, e ≠ .server calls := fun calls he => hserver ⟨calls, he⟩
    refine ⟨hL.elsewhere hother h, ?_⟩
    rw [(arrays_elsewhere hother h).2.2]
    exact hidle

/-! ## Whole runs -/

/-- The main loop is left once. -/
theorem leaves_once (h : w.step u e = .ok w') (hloop : w'.phase.leaving = false) :
    w.phase.leaving = false := by
  by_cases hserver : ∃ calls, e = .server calls
  · obtain ⟨calls, rfl⟩ := hserver
    cases server_step h with
    | leave hphase => rw [hphase]; rfl
    | poll ready hphase => rw [hphase]; rfl
    | nobody hphase => rw [hphase]; rfl
    | full fd addr connection world hphase => rw [hphase]; rfl
    | accepted fd addr connection world j hphase => rw [hphase]; rfl
    | served k hphase => rw [hphase]; rfl
    | enter k j hphase => rw [hphase]; rfl
    | line j taken bytes rest c₀ hphase => rw [hphase]; rfl
    | more j taken taken' buffer waiting c₀ hphase => rw [hphase]; rfl
    | ended j taken bytes c₀ hphase => rw [hphase]; rfl
    | execute j buffer c₀ fd stays connection world hphase => rw [hphase]; rfl
    | destroy => cases hloop
    | stop => cases hloop
  · rw [(arrays_elsewhere (fun calls he => hserver ⟨calls, he⟩) h).2.2] at hloop
    exact hloop

/-- As long as the loop runs, a client that is gone keeps its slot. -/
theorem Lost.later (hrun : (loop u).run events = .ok w) (hL : Lost w i c)
    (hidle : w.phase.idle i) (later : List LoopEvent) :
    ∀ w', (loop u).runFrom w later = .ok w' → w'.phase.leaving = false →
      Lost w' i c ∧ w'.phase.idle i := by
  -- the last step first: the loop was running before it
  induction later using List.reverseRecOn with
  | nil =>
    intro w' hlater _
    cases hlater
    exact ⟨hL, hidle⟩
  | append_singleton later e ih =>
    intro w' hlater hloop
    obtain ⟨w₁, hlater₁, hlast⟩ := Machine.runFrom_append_ok.mp hlater
    obtain ⟨w₂, hstep, hend⟩ := Machine.runFrom_cons_ok hlast
    cases hend
    obtain ⟨hL₁, hidle₁⟩ := ih w₁ hlater₁ (leaves_once hstep hloop)
    have hrun₁ : (loop u).run (events ++ later) = .ok w₁ :=
      Machine.runFrom_append_ok.mpr ⟨w, hrun, hlater₁⟩
    refine hL₁.step hrun₁ hidle₁ hstep fun k hk => ?_
    rw [hk] at hloop
    cases hloop

/-- The server's own slot has no client. -/
theorem RecordOf.ne_zero (h : RecordOf u i events c) : i ≠ 0 := by
  induction h with
  | accepted events w w' calls fd addr hrun hphase haccept hfree => exact hfree.1
  | read events w w' calls c taken buffer h hrun hphase hstep hentry ih => exact ih
  | handled events w w' calls c fd line connection world h hrun hphase hstep hfd hexec hentry ih =>
    exact ih
  | kept events e w w' c h hrun hbefore hstep hentry ih => exact ih

/-- Only the slot `i` is ready. -/
theorem nextReady_polled {ready : SlotIndex → Bool} (hready : ∀ j, ready j = true ↔ j = i)
    (hfd : (w.fds i).fd ≠ none) (hi : i ≠ 0) (k : Nat) :
    nextReady (pollFds w.fds ready) k = if k ≤ i.val then some i else none := by
  have hpolled : ∀ j : SlotIndex, ((pollFds w.fds ready j).fd.isSome &&
      (pollFds w.fds ready j).revents) = decide (j = i) := by
    intro j
    show ((w.fds j).fd.isSome && ((w.fds j).fd.isSome && ready j)) = decide (j = i)
    by_cases hj : j = i
    · subst hj
      rw [Option.isSome_iff_ne_none.mpr hfd, (hready j).mpr rfl, decide_eq_true rfl]
      rfl
    · rw [Bool.eq_false_iff.mpr fun h => hj ((hready j).mp h), decide_eq_false hj]
      simp only [Bool.and_false]
  unfold nextReady
  simp only [hpolled]
  split
  next hk =>
    have hfound : (findSlot k fun j => decide (j = i)).isSome = true :=
      findSlot_isSome_iff.mpr ⟨i, hi, hk, decide_eq_true rfl⟩
    obtain ⟨j, hj⟩ := Option.isSome_iff_exists.mp hfound
    rw [hj, of_decide_eq_true (findSlot_eq_some hj).2.2]
  next hk =>
    rw [← Option.not_isSome_iff_eq_none, findSlot_isSome_iff]
    rintro ⟨j, -, hle, hj⟩
    rw [of_decide_eq_true hj] at hle
    exact hk hle

/-- A cycle in which `poll` reports a client that is gone. -/
theorem Lost.cycle (hi : i ≠ 0) (hL : Lost w i c) (hphase : w.phase = .polling)
    (hstop : w.stopServer = false) :
    ∃ w', (loop u).runFrom w (turnOf i 3) = .ok w' ∧ w'.phase = .polling := by
  obtain ⟨fd, hfd⟩ := Option.ne_none_iff_exists'.mp hL.live
  -- the states of the cycle differ in what was polled and in where they are
  let during (phase : Phase) : Loop :=
    { w with fds := pollFds w.fds (fun j => j ∈ [i]), phase }
  have hpoll : w.step u (.server (.fine [i] 0)) = .ok (during .accepting) := by
    show w.server u (.fine [i] 0) = _
    unfold Loop.server
    rw [hphase]
    dsimp only
    rw [if_neg (by rw [hstop]; simp)]
    rfl
  have haccept : (during .accepting).step u (.server (.fine [i] 0)) =
      .ok (during (.serving 1)) := by
    have hzero : ((during .accepting).fds 0).revents = false := by
      show ((w.fds 0).fd.isSome && decide ((0 : SlotIndex) ∈ [i])) = false
      simp [hi.symm]
    show (during .accepting).server u (.fine [i] 0) = _
    unfold Loop.server
    dsimp only [during]
    rw [if_neg (by rw [hzero]; simp)]
    rfl
  have henter : (during (.serving 1)).step u (.server (.fine [i] 0)) =
      .ok (during (.reading i [])) := by
    have hone : 1 ≤ i.val := one_le_of_ne_zero hi
    show (during (.serving 1)).server u (.fine [i] 0) = _
    unfold Loop.server
    dsimp only [during]
    rw [nextReady_polled (by simp) hL.live hi, if_pos hone]
  have hread : (during (.reading i [])).step u (.server (.fine [i] 0)) =
      .ok (during (.executing i none)) := by
    show readTurn u (.fine [i] 0) (during (.reading i [])) i [] = _
    unfold readTurn
    dsimp only [during]
    rw [hL.entry]
    dsimp only
    rw [hL.turn]
    have hbuffer : ({ c with buffer := [] } : Client) = c := by
      rw [← hL.buffer]
    rw [hbuffer, Function.update_eq_self_iff.mpr hL.entry.symm]
    rfl
  have hexecute : (during (.executing i none)).step u (.server (.fine [i] 0)) =
      .ok (during (.serving (i.val + 1))) := by
    show executeTurn u (.fine [i] 0) (during (.executing i none)) i none = _
    have hrevents : (during (.executing i none)).fds i = ⟨some fd, true⟩ := by
      show PollFd.mk (w.fds i).fd ((w.fds i).fd.isSome && decide (i ∈ [i])) = _
      rw [hfd]
      simp
    have hworld : w.world.merge c.id (Ctx.start w.world.os c.connection) = w.world := by
      simp [World.merge, Ctx.start]
    unfold executeTurn
    rw [hrevents]
    dsimp only [during]
    rw [hL.entry]
    dsimp only
    rw [World.exec_of_ok (handleConnection_none _ _ _ _), hworld]
    show Except.ok { w with
      connections := Function.update w.connections i (some { c with connection := c.connection })
      fds := pollFds w.fds (fun j => j ∈ [i]), phase := .serving (i.val + 1) } = _
    rw [Function.update_eq_self_iff.mpr hL.entry.symm]
  have hserved : (during (.serving (i.val + 1))).step u (.server (.fine [i] 0)) =
      .ok (during .polling) := by
    show (during (.serving (i.val + 1))).server u (.fine [i] 0) = _
    unfold Loop.server
    dsimp only [during]
    rw [nextReady_polled (by simp) hL.live hi, if_neg (Nat.not_succ_le_self _)]
  refine ⟨during .polling, ?_, rfl⟩
  show (loop u).runFrom w [_, _, _, _, _, _] = _
  rw [Machine.runFrom_cons_of_step hpoll, Machine.runFrom_cons_of_step haccept,
    Machine.runFrom_cons_of_step henter, Machine.runFrom_cons_of_step hread,
    Machine.runFrom_cons_of_step hexecute, Machine.runFrom_cons_of_step hserved]
  rfl

end

/-- **A lost client keeps its slot**, and is served for ever. Once a client is gone and
all it sent was read, a cycle in which `poll` reports it takes it to the end of its stream
and back to `poll`; and however the loop goes on, the slot still has the client. -/
theorem lost_client_stays (u : Settings) (events : List LoopEvent) (w : Loop)
    (hrun : (loop u).run events = .ok w) (i : SlotIndex) (c : Client) (hlost : Lost w i c)
    (hphase : w.phase = .polling) (hstop : w.stopServer = false) :
    (∃ w', (loop u).runFrom w (turnOf i 3) = .ok w' ∧ w'.phase = .polling ∧ Lost w' i c) ∧
      ∀ later w', (loop u).runFrom w later = .ok w' → w'.phase.leaving = false → Lost w' i c := by
  have hidle : w.phase.idle i := by
    rw [hphase]
    trivial
  have hlater := fun later w' hrun' hloop => (hlost.later hrun hidle later w' hrun' hloop).1
  refine ⟨?_, hlater⟩
  have hi : i ≠ 0 := (recordOf_of_run hrun i c hlost.entry).ne_zero
  obtain ⟨w', hcycle, hphase'⟩ := hlost.cycle (u := u) hi hphase hstop
  exact ⟨w', hcycle, hphase', hlater _ w' hcycle (by rw [hphase']; rfl)⟩

/-- The record of the first client of `smallSettings`. -/
def firstClient : Client :=
  ⟨0, initConnection smallSettings.server 4 ⟨inaddrLoopback, 4000⟩, []⟩

/-- The first client connects and is gone. -/
theorem first_lost : ∃ w, (loop smallSettings).run (acceptOn 4 ++ [.hangup 0 false]) = .ok w ∧
    Lost w 1 firstClient ∧ w.phase = .polling ∧ w.stopServer = false := by
  obtain ⟨w, hw, hentry, hfd, hgone, hreceived, hphase, hstop⟩ : ∃ w,
      (loop smallSettings).run (acceptOn 4 ++ [.hangup 0 false]) = .ok w ∧
        (w.connections 1 = some firstClient ∧ (w.fds 1).fd ≠ none ∧
          w.world.os.hungup 0 = true ∧ w.received 0 = [] ∧ w.phase = .polling ∧
            w.stopServer = false) :=
    Machine.exists_of_run (by decide +kernel)
  exact ⟨w, hw, ⟨hentry, hfd, hgone, hreceived, rfl⟩, hphase, hstop⟩

/-- The end of its stream is read, and it is still polled. -/
theorem lost_client_unreleased :
    ∃ w w', (loop smallSettings).run (acceptOn 4 ++ [.hangup 0 false]) = .ok w ∧
      Lost w 1 firstClient ∧ (loop smallSettings).runFrom w (turnOf 1 3) = .ok w' ∧
        w'.phase = .polling ∧ (w'.fds 1).fd = some 4 ∧ w'.world.os.hungup 0 = true := by
  obtain ⟨w, hw, hlost, -⟩ := first_lost
  obtain ⟨w', hw', hafter⟩ : ∃ w',
      (loop smallSettings).run ((acceptOn 4 ++ [.hangup 0 false]) ++ turnOf 1 3) = .ok w' ∧
        (w'.phase = .polling ∧ (w'.fds 1).fd = some 4 ∧ w'.world.os.hungup 0 = true) :=
    Machine.exists_of_run (by decide +kernel)
  obtain ⟨w₁, hw₁, hcycle⟩ := Machine.runFrom_append_ok.mp hw'
  obtain rfl : w₁ = w := Except.ok.inj (hw₁.symm.trans hw)
  exact ⟨w₁, w', hw, hlost, hcycle, hafter⟩

/-- It has a turn as often as it is reported. -/
theorem lost_client_stays_first :
    ∃ w w', (loop smallSettings).run (acceptOn 4 ++ [.hangup 0 false]) = .ok w ∧
      (loop smallSettings).runFrom w (turnOf 1 3) = .ok w' ∧ Lost w' 1 firstClient := by
  obtain ⟨w, hw, hlost, hphase, hstop⟩ := first_lost
  obtain ⟨w', hw', -, hlost'⟩ := (lost_client_stays smallSettings _ w hw 1 firstClient hlost hphase
    hstop).1
  exact ⟨w, w', hw, hw', hlost'⟩

end MyFtp.Server
