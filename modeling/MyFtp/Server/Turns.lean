import MyFtp.Server.ReadAhead

/-!
# Whose turn it is

Between two calls of `poll` the loop goes through its slots once. Nobody is passed over and
nobody has two turns, whatever the handlers and everybody else do meanwhile: a client that is
accepted in this cycle waits for the next one, and one that quits frees its slot behind the
loop.

> `turns_of_pass`: a pass gives one turn to each client that `poll` reported, in the order of
> the slots.
-/

namespace MyFtp.Server

open MyFtp.Posix
open Prog

/-- The slot whose turn begins in a step. -/
def turnBegun (w : Loop) : LoopEvent → Option SlotIndex
  | .server _ =>
    match w.phase with
    | .serving k => nextReady w.fds k
    | _ => none
  | _ => none

/-- The turns of a run, in order. -/
def turns (u : Settings) (events : List LoopEvent) : List SlotIndex :=
  (loop u).seen (fun w e _ => turnBegun w e) events

/-- The slots from here on have their turn still to come. -/
def Phase.from : Phase → Nat
  | .serving k => k
  | .reading i _ => i.val + 1
  | .executing i _ => i.val + 1
  | _ => 1

/-- What `poll` reported of a client's slot. -/
def Reported (w₁ : Loop) (ready : SlotIndex → Bool) (i : SlotIndex) : Prop :=
  i ≠ 0 ∧ (w₁.fds i).fd ≠ none ∧ ready i = true

/-- A pass that has come as far as `w`, after some turns. -/
structure Passing (w₁ : Loop) (ready : SlotIndex → Bool) (begun : List SlotIndex) (w : Loop) :
    Prop where
  revents : ∀ i, (w.fds i).revents = ((w₁.fds i).fd.isSome && ready i)
  live : ∀ i, Reported w₁ ready i → w.phase.from ≤ i.val → (w.fds i).fd ≠ none
  ordered : begun.Pairwise (· < ·)
  past : ∀ i, i ∈ begun ↔ Reported w₁ ready i ∧ i.val < w.phase.from

section

variable {u : Settings} {w w' w₁ : Loop} {events : List LoopEvent} {e : LoopEvent} {calls : Calls}
  {i : SlotIndex} {ready : SlotIndex → Bool} {begun : List SlotIndex} {k : Nat}
  {p : SlotIndex → Bool}

/-- What is found is the first. -/
theorem findSlot_first {j : SlotIndex} (h : findSlot k p = some i) (hj : j ≠ 0) (hk : k ≤ j.val)
    (hlt : j.val < i.val) : p j = false := by
  obtain ⟨-, before, after, hsplit, hbefore⟩ := List.find?_eq_some_iff_append.mp h
  have hsorted : (before ++ i :: after).Pairwise (· < ·) := by
    rw [← hsplit]
    exact List.pairwise_lt_finRange _
  have hmem : j ∈ before ++ i :: after := by
    rw [← hsplit]
    exact List.mem_finRange j
  rcases List.mem_append.mp hmem with hmem | hmem
  · have hnot := hbefore j hmem
    rw [decide_eq_true ⟨one_le_of_ne_zero hj, hk⟩, Bool.true_and] at hnot
    simpa using hnot
  · -- the others come behind `i`
    exfalso
    rcases List.mem_cons.mp hmem with rfl | hmem
    · exact Nat.lt_irrefl _ hlt
    · have hbehind := (List.pairwise_cons.mp (List.pairwise_append.mp hsorted).2.1).1 j hmem
      exact Nat.lt_asymm hlt hbehind

/-- A step in which no turn begins, and no slot that waits for its turn is closed. -/
theorem Passing.congr (h : Passing w₁ ready begun w)
    (hrevents : ∀ i, (w'.fds i).revents = (w.fds i).revents)
    (hlive : ∀ i, w.phase.from ≤ i.val → (w.fds i).fd ≠ none → (w'.fds i).fd ≠ none)
    (hfrom : w'.phase.from = w.phase.from) : Passing w₁ ready begun w' := by
  refine ⟨fun i => (hrevents i).trans (h.revents i), fun i hi hbehind => ?_, h.ordered, ?_⟩
  · rw [hfrom] at hbehind
    exact hlive i hbehind (h.live i hi hbehind)
  · rw [hfrom]
    exact h.past

/-- A slot that is open and was reported. -/
theorem Passing.reported (h : Passing w₁ ready begun w) (hi : i ≠ 0)
    (hrevents : (w.fds i).revents = true) : Reported w₁ ready i := by
  rw [h.revents, Bool.and_eq_true, Option.isSome_iff_ne_none] at hrevents
  exact ⟨hi, hrevents⟩

/-- A turn begins. -/
theorem Passing.enter (h : Passing w₁ ready begun w) (hphase : w.phase = .serving k)
    (hnext : nextReady w.fds k = some i) (taken : List Byte) :
    Passing w₁ ready (begun ++ [i]) { w with phase := .reading i taken } := by
  obtain ⟨hi, hk, hready⟩ := findSlot_eq_some hnext
  rw [Bool.and_eq_true] at hready
  have hreported := h.reported hi hready.2
  have hfrom : w.phase.from = k := by
    rw [hphase]
    rfl
  refine ⟨h.revents, fun j hj hbehind => h.live j hj ?_, ?_, fun j => ?_⟩
  · rw [hfrom]
    exact Nat.le_trans hk (Nat.le_of_succ_le hbehind)
  · refine List.pairwise_append.mpr ⟨h.ordered, List.pairwise_singleton _ _, fun j hj l hl => ?_⟩
    obtain rfl := List.mem_singleton.mp hl
    have hpast := ((h.past j).mp hj).2
    rw [hfrom] at hpast
    exact Nat.lt_of_lt_of_le hpast hk
  · show j ∈ begun ++ [i] ↔ Reported w₁ ready j ∧ j.val < i.val + 1
    rw [List.mem_append, List.mem_singleton, h.past, hfrom]
    constructor
    · rintro (⟨hj, hlt⟩ | rfl)
      · exact ⟨hj, by omega⟩
      · exact ⟨hreported, Nat.lt_succ_self _⟩
    · rintro ⟨hj, hlt⟩
      by_cases hjk : j.val < k
      · exact .inl ⟨hj, hjk⟩
      refine .inr (Fin.ext ?_)
      -- a reported slot between `k` and `i` would have been found
      by_contra hne
      have hnot := findSlot_first hnext hj.1 (by omega) (by omega : j.val < i.val)
      have hopen := Option.isSome_iff_ne_none.mpr (h.live j hj (by rw [hfrom]; omega))
      rw [hopen, h.revents, Option.isSome_iff_ne_none.mpr hj.2.1, hj.2.2] at hnot
      cases hnot

/-- The server goes on in a pass. -/
theorem Passing.server (h : Passing w₁ ready begun w) (hpass : w.phase.inPass = true)
    (hstep : w.server u calls = .ok w') (hpass' : w'.phase.inPass = true) :
    Passing w₁ ready (begun ++ (turnBegun w (.server calls)).toList) w' := by
  have hnobody : (∀ k, w.phase ≠ .serving k) →
      begun ++ (turnBegun w (.server calls)).toList = begun := by
    intro hphase
    unfold turnBegun
    dsimp only
    split
    next k hk => exact absurd hk (hphase k)
    next => exact List.append_nil _
  cases server_step hstep with
  | leave => cases hpass'
  | poll ready' hphase =>
    rw [hphase] at hpass
    cases hpass
  | nobody hphase =>
    rw [hnobody (by rw [hphase]; simp)]
    exact h.congr (fun _ => rfl) (fun _ _ hfd => hfd) (by rw [hphase]; rfl)
  | full fd addr connection world hphase =>
    rw [hnobody (by rw [hphase]; simp)]
    exact h.congr (fun _ => rfl) (fun _ _ hfd => hfd) (by rw [hphase]; rfl)
  | accepted fd addr connection world j hphase hready haccept hworld hfree =>
    rw [hnobody (by rw [hphase]; simp)]
    refine h.congr (fun i => ?_) (fun i _ hfd => ?_) (by rw [hphase]; rfl)
    · show (Function.update w.fds j { w.fds j with fd := some fd } i).revents = _
      by_cases hij : i = j
      · rw [hij, Function.update_self]
      · rw [Function.update_of_ne hij]
    · show (Function.update w.fds j { w.fds j with fd := some fd } i).fd ≠ none
      by_cases hij : i = j
      · rw [hij, Function.update_self]
        simp
      · rwa [Function.update_of_ne hij]
  | served => cases hpass'
  | enter k i hphase hnext =>
    have hturn : turnBegun w (.server calls) = some i := by
      rw [turnBegun, hphase]
      exact hnext
    rw [hturn]
    exact h.enter hphase hnext []
  | line j taken bytes rest c hphase =>
    rw [hnobody (by rw [hphase]; simp)]
    exact h.congr (fun _ => rfl) (fun _ _ hfd => hfd) (by rw [hphase]; rfl)
  | more j taken taken' buffer waiting c hphase =>
    rw [hnobody (by rw [hphase]; simp)]
    exact h.congr (fun _ => rfl) (fun _ _ hfd => hfd) (by rw [hphase]; rfl)
  | ended j taken bytes c hphase =>
    rw [hnobody (by rw [hphase]; simp)]
    exact h.congr (fun _ => rfl) (fun _ _ hfd => hfd) (by rw [hphase]; rfl)
  | execute j buffer c fd stays connection world hphase =>
    rw [hnobody (by rw [hphase]; simp)]
    refine h.congr (fun i => ?_) (fun i hbehind hfd => ?_) (by rw [hphase]; rfl)
    · dsimp only
      split
      next => rfl
      next =>
        by_cases hij : i = j
        · rw [hij, Function.update_self]
        · rw [Function.update_of_ne hij]
    · -- only the slot that had its turn can be closed
      have hij : i ≠ j := by
        rintro rfl
        rw [hphase] at hbehind
        exact absurd hbehind (Nat.not_succ_le_self _)
      dsimp only
      split
      next => exact hfd
      next => rwa [Function.update_of_ne hij]
  | destroy => cases hpass'
  | stop => cases hpass'

/-- One step in a pass. -/
theorem Passing.step (h : Passing w₁ ready begun w) (hpass : w.phase.inPass = true)
    (hstep : w.step u e = .ok w') (hpass' : w'.phase.inPass = true) :
    Passing w₁ ready (begun ++ (turnBegun w e).toList) w' := by
  by_cases hserver : ∃ calls, e = .server calls
  · obtain ⟨calls, rfl⟩ := hserver
    exact h.server hpass hstep hpass'
  · obtain ⟨hfds, -, hphase⟩ := arrays_elsewhere (fun calls he => hserver ⟨calls, he⟩) hstep
    have hnone : turnBegun w e = none := by
      cases e with
      | server calls => exact absurd ⟨calls, rfl⟩ hserver
      | _ => rfl
    rw [hnone, Option.toList_none, List.append_nil]
    exact h.congr (fun _ => by rw [hfds]) (fun _ _ hfd => by rwa [hfds]) (by rw [hphase])

theorem turns_append (hrun : (loop u).run events = .ok w) (hstep : w.step u e = .ok w') :
    turns u (events ++ [e]) = turns u events ++ (turnBegun w e).toList :=
  Machine.seen_append_step (f := fun w e _ => turnBegun w e) hrun hstep

/-- A step from where the server is between two calls of `poll` to where it is not. -/
theorem pass_ends (hpass : w.phase.inPass = true) (hstep : w.step u e = .ok w')
    (hpass' : w'.phase.inPass = false) :
    ∃ calls k, e = .server calls ∧ w.phase = .serving k ∧ nextReady w.fds k = none ∧
      w'.phase = .polling := by
  by_cases hserver : ∃ calls, e = .server calls
  · obtain ⟨calls, rfl⟩ := hserver
    have hserver : w.server u calls = .ok w' := hstep
    cases server_step hserver with
    | leave hphase =>
      rw [hphase] at hpass
      cases hpass
    | served k hphase hnone => exact ⟨calls, k, rfl, hphase, hnone, rfl⟩
    | destroy k i c fd connection world hphase =>
      rw [hphase] at hpass
      cases hpass
    | stop k hphase =>
      rw [hphase] at hpass
      cases hpass
    | _ => cases hpass'
  · obtain ⟨-, -, hphase⟩ := arrays_elsewhere (fun calls he => hserver ⟨calls, he⟩) hstep
    rw [hphase, hpass] at hpass'
    cases hpass'

end

/-- After the first events the loop does not call `poll` again in the later ones. -/
def PollsOnce (u : Settings) (before later : List LoopEvent) : Prop :=
  ∀ w, (loop u).run before = .ok w → (loop u).MeetsFrom (fun w _ => w.phase ≠ .polling) w later

section

variable {u : Settings} {w w₁ : Loop} {before later : List LoopEvent} {calls : Calls}
  {ready : SlotIndex → Bool}

/-- Until the last event the loop is in its pass. -/
theorem PollsOnce.concat {e : LoopEvent} (h : PollsOnce u before (later ++ [e]))
    (hrun : (loop u).run (before ++ later) = .ok w) :
    PollsOnce u before later ∧ w.phase ≠ .polling := by
  obtain ⟨w₂, hrun₂, hlater⟩ := Machine.runFrom_append_ok.mp hrun
  refine ⟨fun w₃ hrun₃ => (Machine.meetsFrom_append.mp (h w₃ hrun₃)).1, ?_⟩
  exact ((Machine.meetsFrom_append.mp (h w₂ hrun₂)).2 w hlater).1

/-- How far a pass has come. -/
theorem passing_of_run (hrun₁ : (loop u).run before = .ok w₁) (hphase : w₁.phase = .polling)
    (hstop : w₁.stopServer = false) (hpoll : calls.poll = some ready) :
    ∀ (later : List LoopEvent) (w : Loop), PollsOnce u (before ++ [.server calls]) later →
      (loop u).run (before ++ [.server calls] ++ later) = .ok w → w.phase ≠ .polling →
        w.phase.inPass = true ∧ ∃ begun,
          turns u (before ++ [.server calls] ++ later) = turns u before ++ begun ∧
            Passing w₁ ready begun w := by
  intro later
  induction later using List.reverseRecOn with
  | nil =>
    intro w _ hrun _
    rw [List.append_nil] at hrun ⊢
    have hstep : w₁.step u (.server calls) =
        .ok { w₁ with fds := pollFds w₁.fds ready, phase := .accepting } := by
      show w₁.server u calls = _
      unfold Loop.server
      rw [hphase]
      dsimp only
      rw [hstop, if_neg (by simp), hpoll]
    obtain rfl := Except.ok.inj (hrun.symm.trans (Machine.run_append_step hrun₁ hstep))
    refine ⟨rfl, [], ?_, ⟨fun i => rfl, fun i hi _ => hi.2.1, List.Pairwise.nil, fun i => ?_⟩⟩
    · rw [turns_append hrun₁ hstep, turnBegun, hphase]
      rfl
    · refine ⟨fun h => absurd h List.not_mem_nil, fun ⟨hi, hlt⟩ => ?_⟩
      exact absurd (one_le_of_ne_zero hi.1) (Nat.not_le.mpr hlt)
  | append_singleton later e ih =>
    intro w honce hrun hpolling
    rw [← List.append_assoc] at hrun ⊢
    obtain ⟨w₀, hrun₀, hrest⟩ := Machine.runFrom_append_ok.mp hrun
    obtain ⟨w₂, hstep, hend⟩ := Machine.runFrom_cons_ok hrest
    cases hend
    obtain ⟨honce₀, hnot⟩ := honce.concat hrun₀
    obtain ⟨hpass, begun, hturns, hpassing⟩ := ih w₀ honce₀ hrun₀ hnot
    have hpass' : w.phase.inPass = true := by
      by_contra hno
      obtain ⟨_, _, _, _, _, hphase'⟩ := pass_ends hpass hstep (by simpa using hno)
      exact hpolling hphase'
    refine ⟨hpass', begun ++ (turnBegun w₀ e).toList, ?_, hpassing.step hpass hstep hpass'⟩
    rw [turns_append hrun₀ hstep, hturns, List.append_assoc]

end

/-- **A pass serves whom `poll` reported.** From a call of `poll` that returns to the next
one, the turns that begin are one for each slot of a client that was reported, in the order of
the slots, and no others. -/
theorem turns_of_pass (u : Settings) (before later : List LoopEvent) (calls : Calls) (w₁ w : Loop)
    (ready : SlotIndex → Bool) (hrun₁ : (loop u).run before = .ok w₁)
    (hphase₁ : w₁.phase = .polling) (hstop : w₁.stopServer = false)
    (hpoll : calls.poll = some ready)
    (hrun : (loop u).run (before ++ [.server calls] ++ later) = .ok w)
    (hphase : w.phase = .polling) (honce : PollsOnce u (before ++ [.server calls]) later) :
    ∃ begun, turns u (before ++ [.server calls] ++ later) = turns u before ++ begun ∧
      begun.Pairwise (· < ·) ∧ ∀ i, i ∈ begun ↔ Reported w₁ ready i := by
  induction later using List.reverseRecOn with
  | nil =>
    -- right after `poll` the pass is not over
    rw [List.append_nil] at hrun
    have hstep : w₁.step u (.server calls) = .ok w := by
      obtain ⟨w₀, hrun₀, hrest⟩ := Machine.runFrom_append_ok.mp hrun
      obtain rfl := Except.ok.inj (hrun₁.symm.trans hrun₀)
      obtain ⟨w₂, hstep, hend⟩ := Machine.runFrom_cons_ok hrest
      cases hend
      exact hstep
    have hserver : w₁.server u calls = .ok w := hstep
    unfold Loop.server at hserver
    rw [hphase₁] at hserver
    dsimp only at hserver
    rw [hstop, if_neg (by simp), hpoll] at hserver
    cases hserver
    cases hphase
  | append_singleton later e _ =>
    rw [← List.append_assoc] at hrun ⊢
    obtain ⟨w₀, hrun₀, hrest⟩ := Machine.runFrom_append_ok.mp hrun
    obtain ⟨w₂, hstep, hend⟩ := Machine.runFrom_cons_ok hrest
    cases hend
    obtain ⟨honce₀, hnot⟩ := honce.concat hrun₀
    obtain ⟨hpass, begun, hturns, hpassing⟩ :=
      passing_of_run hrun₁ hphase₁ hstop hpoll later w₀ honce₀ hrun₀ hnot
    have hout : w.phase.inPass = false := by
      rw [hphase]
      rfl
    obtain ⟨calls', k, rfl, hserving, hnext, -⟩ := pass_ends hpass hstep hout
    have hlast : w₀.step u (.server calls') = .ok w := hstep
    have hfrom : w₀.phase.from = k := by
      rw [hserving]
      rfl
    refine ⟨begun, ?_, hpassing.ordered, fun i => ?_⟩
    · rw [turns_append hrun₀ hlast, hturns, turnBegun, hserving]
      dsimp only
      rw [hnext, Option.toList_none, List.append_nil]
    · rw [hpassing.past, hfrom]
      refine ⟨And.left, fun hi => ⟨hi, ?_⟩⟩
      -- a slot that is left over would be the next one
      by_contra hle
      have hnot := findSlot_eq_none hnext hi.1 (Nat.not_lt.mp hle)
      have hopen := Option.isSome_iff_ne_none.mpr
        (hpassing.live i hi (by rw [hfrom]; exact Nat.not_lt.mp hle))
      rw [hopen, hpassing.revents, Option.isSome_iff_ne_none.mpr hi.2.1, hi.2.2] at hnot
      cases hnot

/-- Three clients connect, and lines of the first and the third one arrive. -/
def threeClients : List LoopEvent :=
  acceptOn 4 ++ acceptOn 5 ++ acceptOn 6 ++
    [.arrive 0 (lit "NOOP\r\n"), .arrive 2 (lit "PWD\r\n")]

/-- The two that are reported have their turns, in order, and the one between them has none. -/
theorem turns_of_two : ∃ w₁ begun,
    (loop smallSettings).run threeClients = .ok w₁ ∧ (w₁.fds 2).fd = some 5 ∧
      turns smallSettings (threeClients ++ List.replicate 11 (.server (.fine [1, 3] 0))) =
        turns smallSettings threeClients ++ begun ∧
      begun.Pairwise (· < ·) ∧ ∀ i, i ∈ begun ↔ i = 1 ∨ i = 3 := by
  obtain ⟨w₁, hrun₁, hphase₁, hstop, hfds⟩ := Machine.exists_of_run (m := loop smallSettings)
    (l := threeClients)
    (P := fun w => w.phase = .polling ∧ w.stopServer = false ∧ (w.fds 1).fd = some 4 ∧
      (w.fds 2).fd = some 5 ∧ (w.fds 3).fd = some 6) (by decide +kernel)
  obtain ⟨w₂, hrun₂, hmeets⟩ := Machine.exists_of_run (m := loop smallSettings)
    (l := threeClients ++ [.server (.fine [1, 3] 0)])
    (P := fun w => (loop smallSettings).MeetsFrom (fun w _ => w.phase ≠ .polling) w
      (List.replicate 10 (.server (.fine [1, 3] 0)))) (by decide +kernel)
  obtain ⟨w, hrun, hphase⟩ := Machine.exists_of_run (m := loop smallSettings)
    (l := threeClients ++ [.server (.fine [1, 3] 0)] ++
      List.replicate 10 (.server (.fine [1, 3] 0)))
    (P := fun w => w.phase = .polling) (by decide +kernel)
  obtain ⟨begun, hturns, hordered, hreported⟩ := turns_of_pass smallSettings _ _ (.fine [1, 3] 0)
    w₁ w _ hrun₁ hphase₁ hstop rfl hrun hphase fun w₃ hrun₃ => by
      rwa [Except.ok.inj (hrun₃.symm.trans hrun₂)]
  refine ⟨w₁, begun, hrun₁, hfds.2.1, hturns, hordered, fun i => ?_⟩
  rw [hreported]
  constructor
  · rintro ⟨-, -, hready⟩
    simpa using hready
  · rintro (rfl | rfl)
    · exact ⟨by decide, by rw [hfds.1]; simp, by decide⟩
    · exact ⟨by decide, by rw [hfds.2.2]; simp, by decide⟩

end MyFtp.Server
