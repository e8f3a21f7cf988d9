import MyFtp.Server.Prompt

/-!
# Shutting down

`destroy_server` goes through the slots once. Meanwhile children may still run, and clients come
and go, but nobody is accepted and no line is handled.

> `shutdown_of_run`: in a run that gets through, its streams opened and nobody gone whom it says
> goodbye to, it takes one step for each slot that was open and one for the server's socket. Then
> every client that had a slot has been told, and neither its control descriptor nor the socket is
> open any more.
-/

namespace MyFtp.Server

open MyFtp.Posix
open Prog

/-- The clients' slots that are open from `k` on. -/
def Loop.openFrom (w : Loop) (k : Nat) : Finset SlotIndex :=
  {i | i ≠ 0 ∧ k ≤ i.val ∧ (w.fds i).fd ≠ none}

/-- The steps that `destroy_server` still takes. -/
def Loop.closingLeft (w : Loop) : Nat :=
  match w.phase with
  | .stopping k => (w.openFrom k).card + 1
  | _ => 0

/-- `destroy_server` has come as far as `w`, having begun in `w₀`. -/
structure Closing (u : Settings) (w₀ w : Loop) : Prop where
  leaving : w.phase.leaving = true
  fds : w.fds = w₀.fds
  left : ∀ i, w.phase.closed i = false → w.connections i = w₀.connections i
  gone : ∀ i, w.phase.closed i = true → w.connections i = none
  told : ∃ l, w.world.sent = w₀.world.sent ++ l ∧
    ∀ i c, w₀.connections i = some c → w.phase.closed i = true → (c.id, .serviceClosing) ∈ l
  released : ∀ i c, w₀.connections i = some c → w.phase.closed i = true →
    w.world.os.desc c.connection.clientSockfd = none
  silent : w.phase = .stopped → w.world.os.desc u.server.sockfd = none

section

variable {u : Settings} {w w' w₀ : Loop} {events : List LoopEvent} {e : LoopEvent} {calls : Calls}
  {S : Sessions} {i : SlotIndex} {k : Nat} {c : Client} {fd : Fd}

/-- A descriptor that is closed stays so when a connection is torn down. -/
theorem tornDown_of_none {c : Connection} {desc : DescTable} (h : desc fd = none) :
    c.tornDown desc fd = none := by
  unfold Connection.tornDown
  by_cases hctl : fd = c.clientSockfd
  · rw [hctl, Function.update_self]
  · rw [Function.update_of_ne hctl]
    cases c.dataSocket.bind DataSocket.clientSockfd with
    | none => exact h
    | some fd' =>
      by_cases hfd : fd = fd'
      · rw [hfd]
        exact Function.update_self ..
      · exact (Function.update_of_ne hfd ..).trans h

/-- What `destroy_server` leaves of a client. -/
theorem destroyed_eq (hT : Tracks u w S) (hS : (sessions u.toSetup).Reachable S)
    {connection : Connection} {world : World} (hphase : w.phase = .stopping k)
    (hc : w.connections i = some c) (hfd : (w.fds i).fd = some fd)
    (hexec : w.world.exec c.id c.connection (do
      dprintf fd .serviceClosing
      destroyConnection
      close fd) = .ok ((), connection, world)) :
    world.sent = w.world.sent ++ [(c.id, .serviceClosing)] ∧
      world.os.desc = c.connection.tornDown w.world.os.desc := by
  obtain ⟨events, hrun⟩ := hS
  obtain ⟨hspeaks, -⟩ := speaks_of_run hrun (hT.record i c hc)
  rw [hT.world (by rw [hphase]; simp)] at hspeaks
  obtain rfl := Option.some.inj (hfd.symm.trans (hT.slot i c hc).2)
  obtain ⟨s, hp, rfl, rfl⟩ := World.exec_eq_ok hexec
  have happly := (serviceClosing_apply (Ctx.start w.world.os c.connection)).symm.trans hp
  split at happly
  next => cases happly
  next hkills =>
    cases happly
    have hto := delivered hspeaks.owns.control hspeaks.sigpipe (Bool.eq_false_iff.mpr hkills)
      .serviceClosing
    refine ⟨?_, rfl⟩
    show w.world.sent ++ ([] ++ w.world.os.delivers c.connection.clientSockfd .serviceClosing) = _
    rw [List.nil_append]
    exact congrArg (w.world.sent ++ ·) hto.1

/-- The slots that are passed over are not open. -/
theorem openFrom_of_find (hnext : findSlot k (fun j => (w.fds j).fd.isSome) = some i) :
    w.openFrom k = insert i (w.openFrom (i.val + 1)) := by
  obtain ⟨hi, hk, hopen⟩ := findSlot_eq_some hnext
  ext j
  rw [Finset.mem_insert, Loop.openFrom, Loop.openFrom, Finset.mem_filter, Finset.mem_filter]
  constructor
  · rintro ⟨-, hj, hkj, hfd⟩
    by_cases hij : j = i
    · exact .inl hij
    refine .inr ⟨Finset.mem_univ _, hj, ?_, hfd⟩
    by_contra hle
    have hlt : j.val < i.val :=
      Nat.lt_of_le_of_ne (Nat.le_of_lt_succ (Nat.not_le.mp hle)) fun he => hij (Fin.ext he)
    have hnot := findSlot_first hnext hj hkj hlt
    rw [Option.isSome_iff_ne_none.mpr hfd] at hnot
    cases hnot
  · rintro (rfl | ⟨-, hj, hlt, hfd⟩)
    · exact ⟨Finset.mem_univ _, hi, hk, Option.isSome_iff_ne_none.mp hopen⟩
    · exact ⟨Finset.mem_univ _, hj, by omega, hfd⟩

theorem card_openFrom (hnext : findSlot k (fun j => (w.fds j).fd.isSome) = some i) :
    (w.openFrom k).card = (w.openFrom (i.val + 1)).card + 1 := by
  rw [openFrom_of_find hnext, Finset.card_insert_of_notMem]
  intro hmem
  exact absurd (Finset.mem_filter.mp hmem).2.2.1 (Nat.not_succ_le_self _)

theorem openFrom_of_none (hnone : findSlot k (fun j => (w.fds j).fd.isSome) = none) :
    w.openFrom k = ∅ := by
  refine Finset.filter_eq_empty_iff.mpr fun j _ ⟨hj, hk, hfd⟩ => ?_
  have hnot := findSlot_eq_none hnone hj hk
  rw [Option.isSome_iff_ne_none.mpr hfd] at hnot
  cases hnot

/-- Where `destroy_server` begins. -/
theorem Closing.begin (hphase : w₀.phase = .stopping 1) (hzero : w₀.connections 0 = none) :
    Closing u w₀ w₀ := by
  have hclosed : ∀ i, w₀.phase.closed i = true → i = 0 := by
    intro i hi
    rw [hphase] at hi
    exact Fin.ext (Nat.lt_one_iff.mp (of_decide_eq_true hi))
  have hnobody : ∀ i c, w₀.connections i = some c → w₀.phase.closed i = true → False := by
    intro i c hc hi
    rw [hclosed i hi, hzero] at hc
    cases hc
  refine ⟨by rw [hphase]; rfl, rfl, fun _ _ => rfl, fun i hi => ?_, ⟨[], ?_, ?_⟩, ?_, ?_⟩
  · rw [hclosed i hi, hzero]
  · exact (List.append_nil _).symm
  · exact fun i c hc hi => (hnobody i c hc hi).elim
  · exact fun i c hc hi => (hnobody i c hc hi).elim
  · intro h
    rw [hphase] at h
    cases h

/-- The server closes the next slot, or its socket. -/
theorem Closing.server (hC : Closing u w₀ w) (hT : Tracks u w S)
    (hS : (sessions u.toSetup).Reachable S) (hstep : w.server u calls = .ok w') :
    Closing u w₀ w' ∧ w'.closingLeft + 1 = w.closingLeft := by
  have hleaving := hC.leaving
  cases server_step hstep with
  | destroy k i c fd connection world hphase hnext hc hfd hexec =>
    obtain ⟨hi, hk, -⟩ := findSlot_eq_some hnext
    obtain ⟨hsent, hdesc⟩ := destroyed_eq hT hS hphase hc hfd hexec
    have hopen : w.phase.closed i = false := by
      rw [hphase]
      exact decide_eq_false (Nat.not_lt.mpr hk)
    have hc₀ : w₀.connections i = some c := (hC.left i hopen).symm.trans hc
    -- a slot that is passed over has no client
    have hskipped : ∀ j c', w₀.connections j = some c' → j.val < i.val + 1 →
        w.phase.closed j = true ∨ j = i := by
      intro j c' hc' hlt
      by_cases hclosed : w.phase.closed j = true
      · exact .inl hclosed
      right
      by_contra hne
      have hc'' := (hC.left j (by simpa using hclosed)).trans hc'
      obtain ⟨hj, hfd'⟩ := hT.slot j c' hc''
      have hkj : k ≤ j.val := by
        rw [hphase] at hclosed
        exact Nat.not_lt.mp fun hlt => hclosed (decide_eq_true hlt)
      have hji : j.val < i.val :=
        Nat.lt_of_le_of_ne (Nat.le_of_lt_succ hlt) fun he => hne (Fin.ext he)
      have hnot := findSlot_first hnext hj hkj hji
      rw [hfd'] at hnot
      cases hnot
    refine ⟨⟨rfl, hC.fds, fun j hj => ?_, fun j hj => ?_, ?_, fun j c' hc' hj =>
      ?_, fun h => ?_⟩, ?_⟩
    · have hlt : ¬ j.val < i.val + 1 := of_decide_eq_false hj
      have hji : j ≠ i := by
        rintro rfl
        exact hlt (Nat.lt_succ_self _)
      show Function.update w.connections i none j = _
      rw [Function.update_of_ne hji]
      refine hC.left j ?_
      rw [hphase]
      exact decide_eq_false (by omega)
    · show Function.update w.connections i none j = none
      by_cases hji : j = i
      · rw [hji, Function.update_self]
      · rw [Function.update_of_ne hji]
        cases hcj : w.connections j with
        | none => rfl
        | some c' =>
          have hc' : w₀.connections j = some c' := by
            cases hclosed : w.phase.closed j with
            | true => cases (hC.gone j hclosed).symm.trans hcj
            | false => exact (hC.left j hclosed).symm.trans hcj
          rcases hskipped j c' hc' (of_decide_eq_true hj) with hclosed | he
          · cases (hC.gone j hclosed).symm.trans hcj
          · exact absurd he hji
    · obtain ⟨l, hl, htold⟩ := hC.told
      refine ⟨l ++ [(c.id, .serviceClosing)], ?_, fun j c' hc' hj => ?_⟩
      · show world.sent = _
        rw [hsent, hl, List.append_assoc]
      · rcases hskipped j c' hc' (of_decide_eq_true hj) with hclosed | rfl
        · exact List.mem_append_left _ (htold j c' hc' hclosed)
        · obtain rfl := Option.some.inj (hc₀.symm.trans hc')
          exact List.mem_append_right _ List.mem_cons_self
    · show world.os.desc _ = none
      rw [hdesc]
      rcases hskipped j c' hc' (of_decide_eq_true hj) with hclosed | rfl
      · exact tornDown_of_none (hC.released j c' hc' hclosed)
      · obtain rfl := Option.some.inj (hc₀.symm.trans hc')
        exact Function.update_self ..
    · cases h
    · unfold Loop.closingLeft
      rw [hphase]
      exact congrArg (· + 1) (card_openFrom hnext).symm
  | stop k hphase hnone =>
    have hnobody : ∀ j c', w₀.connections j = some c' → w.phase.closed j = true := by
      intro j c' hc'
      by_contra hclosed
      have hc'' := (hC.left j (by simpa using hclosed)).trans hc'
      obtain ⟨hj, hfd'⟩ := hT.slot j c' hc''
      have hkj : k ≤ j.val := by
        rw [hphase] at hclosed
        exact Nat.not_lt.mp fun hlt => hclosed (decide_eq_true hlt)
      have hnot := findSlot_eq_none hnone hj hkj
      rw [hfd'] at hnot
      cases hnot
    refine ⟨⟨rfl, hC.fds, fun j hj => (by cases hj), fun j _ => ?_, ?_, fun j c' hc' _ => ?_,
      fun _ => Function.update_self ..⟩, ?_⟩
    · show w.connections j = none
      cases hclosed : w.phase.closed j with
      | true => exact hC.gone j hclosed
      | false =>
        rw [hC.left j hclosed]
        cases hc' : w₀.connections j with
        | none => rfl
        | some c' => cases hclosed.symm.trans (hnobody j c' hc')
    · obtain ⟨l, hl, htold⟩ := hC.told
      exact ⟨l, hl, fun j c' hc' _ => htold j c' hc' (hnobody j c' hc')⟩
    · show Function.update w.world.os.desc u.server.sockfd none _ = none
      have hclosed := hC.released j c' hc' (hnobody j c' hc')
      by_cases hfd : c'.connection.clientSockfd = u.server.sockfd
      · rw [hfd, Function.update_self]
      · rw [Function.update_of_ne hfd, hclosed]
    · unfold Loop.closingLeft
      rw [hphase]
      dsimp only
      rw [openFrom_of_none hnone]
      rfl
  | _ => simp_all [Phase.leaving]

/-- Meanwhile somebody else does something. -/
theorem Closing.elsewhere (hC : Closing u w₀ w) (hserver : ∀ calls, e ≠ .server calls)
    (hstep : w.step u e = .ok w') : Closing u w₀ w' ∧ w'.closingLeft = w.closingLeft := by
  obtain ⟨hfds, hconns, hphase⟩ := arrays_elsewhere hserver hstep
  have hworld : (∃ l, w'.world.sent = w.world.sent ++ l) ∧
      ∀ fd, w.world.os.desc fd = none → w'.world.os.desc fd = none := by
    cases e with
    | server calls => exact absurd rfl (hserver calls)
    | arrive id bytes =>
      unfold Loop.step at hstep
      dsimp only at hstep
      split at hstep
      next => cases hstep
      next =>
        cases hstep
        exact ⟨⟨[], (List.append_nil _).symm⟩, fun _ h => h⟩
    | hangup id reset =>
      cases hstep
      exact ⟨⟨[], (List.append_nil _).symm⟩, fun _ h => h⟩
    | dataConnect fd =>
      obtain ⟨world, hdata, rfl⟩ := map_eq_ok hstep
      unfold World.dataConnect at hdata
      split at hdata
      next pending hlistens =>
        cases hdata
        refine ⟨⟨[], (List.append_nil _).symm⟩, fun fd' h => ?_⟩
        have hne : fd' ≠ fd := by
          rintro rfl
          cases h.symm.trans hlistens
        exact (Function.update_of_ne hne ..).trans h
      next => cases hdata
    | child j cans =>
      obtain ⟨world, hchild, rfl⟩ := map_eq_ok hstep
      obtain ⟨id, child, s, -, -, rfl⟩ := World.runChild_eq_ok hchild
      exact ⟨⟨s.out, rfl⟩, fun _ h => h⟩
    | signal =>
      cases hstep
      exact ⟨⟨[], (List.append_nil _).symm⟩, fun _ h => h⟩
  obtain ⟨⟨l', hl'⟩, hclosed⟩ := hworld
  obtain ⟨l, hl, htold⟩ := hC.told
  refine ⟨⟨?_, hfds.trans hC.fds, ?_, ?_, ⟨l ++ l', ?_, ?_⟩, ?_, ?_⟩, ?_⟩
  · rw [hphase]
    exact hC.leaving
  · rw [hphase, hconns]
    exact hC.left
  · rw [hphase, hconns]
    exact hC.gone
  · rw [hl', hl, List.append_assoc]
  · rw [hphase]
    exact fun i c hc hi => List.mem_append_left _ (htold i c hc hi)
  · rw [hphase]
    exact fun i c hc hi => hclosed _ (hC.released i c hc hi)
  · rw [hphase]
    exact fun h => hclosed _ (hC.silent h)
  · unfold Loop.closingLeft Loop.openFrom
    rw [hphase, hfds]

/-- How far `destroy_server` has come. -/
theorem closing_of_run {before : List LoopEvent} (hrun : (loop u).run before = .ok w₀)
    (hphase : w₀.phase = .stopping 1) (later : List LoopEvent) (w : Loop)
    (hopens : (loop u).Meets StreamOpens (before ++ later))
    (hrun' : (loop u).run (before ++ later) = .ok w) :
    Closing u w₀ w ∧ later.countP LoopEvent.isServer + w.closingLeft = w₀.closingLeft := by
  induction later using List.reverseRecOn generalizing w with
  | nil =>
    rw [List.append_nil] at hrun' hopens
    obtain rfl := Except.ok.inj (hrun.symm.trans hrun')
    obtain ⟨S, hS, hT⟩ := tracks_of_run hrun hopens
    refine ⟨.begin hphase ?_, Nat.zero_add _⟩
    by_contra hzero
    obtain ⟨c, hc⟩ := Option.ne_none_iff_exists'.mp hzero
    exact (hT.slot 0 c hc).1 rfl
  | append_singleton later e ih =>
    rw [← List.append_assoc] at hrun' hopens
    obtain ⟨w₁, hrun₁, hrest⟩ := Machine.runFrom_append_ok.mp hrun'
    obtain ⟨w₂, hstep, hend⟩ := Machine.runFrom_cons_ok hrest
    cases hend
    have hopens₁ := (Machine.meetsFrom_append.mp hopens).1
    obtain ⟨hC, hcount⟩ := ih w₁ hopens₁ hrun₁
    rw [List.countP_append, List.countP_singleton]
    by_cases hserver : ∃ calls, e = .server calls
    · obtain ⟨calls, rfl⟩ := hserver
      obtain ⟨S, hS, hT⟩ := tracks_of_run hrun₁ hopens₁
      obtain ⟨hC', hless⟩ := hC.server hT ⟨_, hS⟩ hstep
      refine ⟨hC', ?_⟩
      rw [if_pos (by rfl)]
      omega
    · obtain ⟨hC', hsame⟩ := hC.elsewhere (fun calls he => hserver ⟨calls, he⟩) hstep
      refine ⟨hC', ?_⟩
      rw [isServer_of_ne fun calls he => hserver ⟨calls, he⟩, if_neg (by simp)]
      omega

end

/-- **The server shuts down.** In a run whose streams open and that gets through, once it has left
its loop,

* it takes exactly one step for each open slot and one more until it has stopped, whatever
  happens in between,
* and when it has stopped no slot has a client; each client that had one has been told, and its
  control descriptor is closed, and so is the socket that clients connect to. -/
theorem shutdown_of_run (u : Settings) (before later : List LoopEvent) (w₀ w : Loop)
    (hopens : (loop u).Meets StreamOpens (before ++ later)) (hrun : (loop u).run before = .ok w₀)
    (hphase : w₀.phase = .stopping 1) (hrun' : (loop u).run (before ++ later) = .ok w) :
    later.countP LoopEvent.isServer ≤ (w₀.openFrom 1).card + 1 ∧
      (w.phase = .stopped ↔ later.countP LoopEvent.isServer = (w₀.openFrom 1).card + 1) ∧
        (w.phase = .stopped →
          (∀ i, w.connections i = none) ∧ w.world.os.desc u.server.sockfd = none ∧
            (∃ l, w.world.sent = w₀.world.sent ++ l ∧
              ∀ i c, w₀.connections i = some c → (c.id, .serviceClosing) ∈ l) ∧
            ∀ i c, w₀.connections i = some c →
              w.world.os.desc c.connection.clientSockfd = none) := by
  obtain ⟨hC, hcount⟩ := closing_of_run hrun hphase later w hopens hrun'
  have hbegin : w₀.closingLeft = (w₀.openFrom 1).card + 1 := by
    unfold Loop.closingLeft
    rw [hphase]
  rw [hbegin] at hcount
  refine ⟨by omega, ⟨fun hstopped => ?_, fun hall => ?_⟩, fun hstopped => ?_⟩
  · have hnone : w.closingLeft = 0 := by
      unfold Loop.closingLeft
      rw [hstopped]
    omega
  · have hnone : w.closingLeft = 0 := by omega
    have hleaving := hC.leaving
    unfold Loop.closingLeft at hnone
    cases hw : w.phase with
    | stopping k =>
      rw [hw] at hnone
      cases hnone
    | stopped => rfl
    | _ =>
      rw [hw] at hleaving
      cases hleaving
  · have hclosed : ∀ i, w.phase.closed i = true := fun i => by rw [hstopped]; rfl
    obtain ⟨l, hl, htold⟩ := hC.told
    exact ⟨fun i => hC.gone i (hclosed i), hC.silent hstopped,
      ⟨l, hl, fun i c hc => htold i c hc (hclosed i)⟩,
      fun i c hc => hC.released i c hc (hclosed i)⟩

/-- One client is there when the server shuts down. -/
theorem shutdown_first :
    ∃ w, (loop smallSettings).run (acceptOn 4 ++ [.signal, .server (.fine [] 0)] ++
      [.server (.fine [] 0), .server (.fine [] 0)]) = .ok w ∧ w.phase = .stopped ∧
        w.connections 1 = none ∧ w.world.os.desc 3 = none ∧ w.world.os.desc 4 = none := by
  obtain ⟨w₀, hrun, hphase, hcard, hentry⟩ : ∃ w, (loop smallSettings).run
      (acceptOn 4 ++ [.signal, .server (.fine [] 0)]) = .ok w ∧ (w.phase = .stopping 1 ∧
        (w.openFrom 1).card = 1 ∧ w.connections 1 = some firstClient) :=
    Machine.exists_of_run (by decide +kernel)
  obtain ⟨w, hrun', -⟩ : ∃ w, (loop smallSettings).run
    (acceptOn 4 ++ [.signal, .server (.fine [] 0)] ++
      [.server (.fine [] 0), .server (.fine [] 0)]) = .ok w ∧ True :=
    Machine.exists_of_run (by decide +kernel)
  obtain ⟨-, hiff, hstopped⟩ := shutdown_of_run smallSettings _ _ w₀ w
    (by decide +kernel) hrun hphase
    hrun'
  have hend : w.phase = .stopped := hiff.mpr (by rw [hcard]; decide)
  obtain ⟨hgone, hsilent, -, hreleased⟩ := hstopped hend
  exact ⟨w, hrun', hend, hgone 1, hsilent, hreleased 1 firstClient hentry⟩

end MyFtp.Server
