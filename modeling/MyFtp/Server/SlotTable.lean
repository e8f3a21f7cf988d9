import MyFtp.Server.LoopRefinement

/-!
# The slot table

The main loop keeps the descriptors it polls and the records of its clients in two
arrays. A slot is given to a client by `accept_new_connection`, and freed by `QUIT`.

> `slot_table_of_run`: as long as `fdopen` succeeds, every live slot has the record its
> client was given, changed by the client's own lines only; no two have one descriptor;
> a client is accepted into a free slot; and a client has its turn only when `poll`
> reported it in this cycle.

> `accepted_whole_of_run`: a client is accepted as a whole exactly when there is a free
> slot and `fdopen` succeeds, and as long as this is so nothing is left half-way.
-/

namespace MyFtp.Server

open MyFtp.Posix
open Prog

/-- A slot of a client that is polled. -/
def Loop.Live (w : Loop) (i : SlotIndex) : Prop :=
  i ≠ 0 ∧ (w.fds i).fd ≠ none ∧ w.phase.closed i = false

/-! ## Where a record comes from -/

/-- The entry of the slot `i` after a run: it was made by the `accept` that filled the
slot, and was changed by what its own client sent. -/
inductive RecordOf (u : Settings) (i : SlotIndex) : List LoopEvent → Client → Prop
  /-- A client is accepted, and the slot is free. -/
  | accepted (events : List LoopEvent) (w w' : Loop) (calls : Calls) (fd : Fd) (addr : SockAddr)
      (hrun : (loop u).run events = .ok w) (hphase : w.phase = .accepting)
      (haccept : calls.accept = some (fd, addr)) (hfree : i ≠ 0 ∧ (w.fds i).fd = none)
      (hstep : w.step u (.server calls) = .ok w') (hfd : (w'.fds i).fd = some fd)
      (hentry : w'.connections i = some ⟨w.world.nextId, initConnection u.server fd addr, []⟩) :
      RecordOf u i (events ++ [.server calls])
        ⟨w.world.nextId, initConnection u.server fd addr, []⟩
  /-- Its stream is read. -/
  | read (events : List LoopEvent) (w w' : Loop) (calls : Calls) (c : Client)
      (taken buffer : List Byte) (h : RecordOf u i events c) (hrun : (loop u).run events = .ok w)
      (hphase : w.phase = .reading i taken) (hstep : w.step u (.server calls) = .ok w')
      (hentry : w'.connections i = some { c with buffer }) :
      RecordOf u i (events ++ [.server calls]) { c with buffer }
  /-- A line of it is handled. -/
  | handled (events : List LoopEvent) (w w' : Loop) (calls : Calls) (c : Client) (fd : Fd)
      (line : Option CStr) (connection : Connection) (world : World) (h : RecordOf u i events c)
      (hrun : (loop u).run events = .ok w) (hphase : w.phase = .executing i line)
      (hstep : w.step u (.server calls) = .ok w') (hfd : (w.fds i).fd = some fd)
      (hexec : w.world.exec c.id c.connection
        (handleConnection u.server calls.line fd line) = .ok (true, connection, world))
      (hentry : w'.connections i = some { c with connection }) :
      RecordOf u i (events ++ [.server calls]) { c with connection }
  /-- Something else happens, and the entry stays as it is. -/
  | kept (events : List LoopEvent) (e : LoopEvent) (w w' : Loop) (c : Client)
      (h : RecordOf u i events c) (hrun : (loop u).run events = .ok w)
      (hbefore : w.connections i = some c) (hstep : w.step u e = .ok w')
      (hentry : w'.connections i = some c) : RecordOf u i (events ++ [e]) c

section

variable {u : Settings} {w w' : Loop} {events : List LoopEvent} {e : LoopEvent} {calls : Calls}
  {i : SlotIndex} {c : Client}

/-- An updated entry, or another one. -/
theorem update_entry {f : SlotIndex → Option Client} {j : SlotIndex} {x : Option Client}
    (h : Function.update f j x i = some c) : (i = j ∧ x = some c) ∨ (j ≠ i ∧ f i = some c) := by
  by_cases hij : i = j
  · rw [hij, Function.update_self] at h
    exact .inl ⟨hij, h⟩
  · rw [Function.update_of_ne hij] at h
    exact .inr ⟨Ne.symm hij, h⟩

/-- The updated one itself. -/
theorem entry_of_update {f : SlotIndex → Option Client} {d : Client}
    (h : Function.update f i (some d) i = some c) : d = c := by
  rw [Function.update_self] at h
  exact Option.some.inj h

/-- Where an entry comes from in one step of the server. -/
theorem recordOf_server (hrun : (loop u).run events = .ok w)
    (hI : ∀ c, w.connections i = some c → RecordOf u i events c)
    (h : w.server u calls = .ok w') (hc : w'.connections i = some c) :
    RecordOf u i (events ++ [.server calls]) c := by
  have hstep : w.step u (.server calls) = .ok w' := h
  have hkept : w.connections i = some c → RecordOf u i (events ++ [.server calls]) c :=
    fun hc₀ => .kept events _ w w' c (hI c hc₀) hrun hc₀ hstep hc
  cases server_step h with
  | leave => exact hkept hc
  | poll => exact hkept hc
  | nobody => exact hkept hc
  | full => exact hkept hc
  | served => exact hkept hc
  | enter => exact hkept hc
  | stop => exact hkept hc
  | accepted fd addr connection world j hphase hready haccept hworld hfree =>
    rcases update_entry hc with ⟨rfl, hnew⟩ | ⟨-, hold⟩
    · split at hnew
      next hopen =>
        obtain ⟨hj, -, hnone⟩ := findSlot_eq_some hfree
        obtain ⟨-, rfl, -⟩ := World.accept_eq_ok hworld
        obtain rfl := Option.some.inj hnew
        refine .accepted events w _ calls fd addr hrun hphase haccept ⟨hj, ?_⟩ hstep ?_
          hc
        · exact Option.isNone_iff_eq_none.mp hnone
        · show (Function.update w.fds i { w.fds i with fd := some fd } i).fd = some fd
          rw [Function.update_self]
      next => cases hnew
    · exact hkept hold
  | line j taken bytes rest c₀ hphase hc₀ =>
    rcases update_entry hc with ⟨rfl, hnew⟩ | ⟨-, hold⟩
    · obtain rfl := Option.some.inj hnew
      exact .read events w _ calls c₀ taken rest (hI c₀ hc₀) hrun hphase hstep hc
    · exact hkept hold
  | more j taken taken' buffer waiting c₀ hphase hc₀ =>
    rcases update_entry hc with ⟨rfl, hnew⟩ | ⟨-, hold⟩
    · obtain rfl := Option.some.inj hnew
      exact .read events w _ calls c₀ taken buffer (hI c₀ hc₀) hrun hphase hstep hc
    · exact hkept hold
  | ended j taken bytes c₀ hphase hc₀ =>
    rcases update_entry hc with ⟨rfl, hnew⟩ | ⟨-, hold⟩
    · obtain rfl := Option.some.inj hnew
      exact .read events w _ calls c₀ taken [] (hI c₀ hc₀) hrun hphase hstep hc
    · exact hkept hold
  | execute j line c₀ fd stays connection world hphase hc₀ hfd hexec =>
    rcases update_entry hc with ⟨rfl, hnew⟩ | ⟨-, hold⟩
    · cases stays with
      | false => cases hnew
      | true =>
        obtain rfl := Option.some.inj hnew
        exact .handled events w _ calls c₀ fd line connection world (hI c₀ hc₀) hrun hphase hstep
          hfd hexec hc
    · exact hkept hold
  | destroy k j c₀ fd connection world hphase hnext hc₀ hfd hexec =>
    rcases update_entry hc with ⟨rfl, hnew⟩ | ⟨-, hold⟩
    · cases hnew
    · exact hkept hold

/-- A step of somebody else leaves the arrays as they are. -/
theorem arrays_elsewhere (hserver : ∀ calls, e ≠ .server calls) (h : w.step u e = .ok w') :
    w'.fds = w.fds ∧ w'.connections = w.connections ∧ w'.phase = w.phase := by
  cases e with
  | server calls => exact absurd rfl (hserver calls)
  | arrive id bytes =>
    unfold Loop.step at h
    dsimp only at h
    split at h
    next => cases h
    next =>
      cases h
      exact ⟨rfl, rfl, rfl⟩
  | hangup id reset =>
    cases h
    exact ⟨rfl, rfl, rfl⟩
  | dataConnect fd =>
    obtain ⟨world, -, rfl⟩ := map_eq_ok h
    exact ⟨rfl, rfl, rfl⟩
  | child k cans =>
    obtain ⟨world, -, rfl⟩ := map_eq_ok h
    exact ⟨rfl, rfl, rfl⟩
  | signal =>
    cases h
    exact ⟨rfl, rfl, rfl⟩

/-- Every entry is a client's that was accepted into its slot. -/
theorem recordOf_of_run (hrun : (loop u).run events = .ok w) :
    ∀ i c, w.connections i = some c → RecordOf u i events c := by
  refine Machine.run_induction (m := loop u)
    (I := fun events w => ∀ i c, w.connections i = some c → RecordOf u i events c) ?_ ?_
    events w hrun
  · intro i c hc
    cases hc
  intro events w e w' hrun hI hstep i c hc
  by_cases hserver : ∃ calls, e = .server calls
  · obtain ⟨calls, rfl⟩ := hserver
    exact recordOf_server hrun (hI i) hstep hc
  · obtain ⟨-, hconns, -⟩ := arrays_elsewhere (fun calls he => hserver ⟨calls, he⟩) hstep
    have hbefore : w.connections i = some c := by
      rw [← hconns]
      exact hc
    exact .kept events e w w' c (hI i c hbefore) hrun hbefore hstep hc

end

/-! ## Who has a turn -/

/-- The server is between two calls of `poll`. -/
def Phase.inPass : Phase → Bool
  | .accepting | .serving _ | .reading _ _ | .executing _ _ => true
  | _ => false

/-- The last time `poll` was called in a run: the state it was called in, and what it
reported. -/
def LastPoll (u : Settings) (events : List LoopEvent) (w₁ : Loop) (ready : SlotIndex → Bool) :
    Prop :=
  ∃ l₁ calls l₂, events = l₁ ++ .server calls :: l₂ ∧ (loop u).run l₁ = .ok w₁ ∧
    w₁.phase = .polling ∧ w₁.stopServer = false ∧ calls.poll = some ready ∧
      ∀ l₃ l₄ w₃, l₂ = l₃ ++ l₄ → (loop u).run (l₁ ++ .server calls :: l₃) = .ok w₃ →
        w₃.phase ≠ .polling

/-- What a pass finds in the arrays, against the state in which `poll` was called. A slot
that was polled has the same client, or none any more. -/
structure SincePoll (w₁ : Loop) (ready : SlotIndex → Bool) (w : Loop) : Prop where
  reported : ∀ i, (w.fds i).revents = ((w₁.fds i).fd.isSome && ready i)
  unserved : w.phase = .accepting → ∀ i, (w.fds i).fd = (w₁.fds i).fd
  same : ∀ i, (w.fds i).fd ≠ none → (w₁.fds i).fd ≠ none → (w.fds i).fd = (w₁.fds i).fd ∧
    (w.connections i).map Client.id = (w₁.connections i).map Client.id

section

variable {u : Settings} {w w' w₁ : Loop} {events : List LoopEvent} {e : LoopEvent} {calls : Calls}
  {i : SlotIndex} {ready : SlotIndex → Bool}

/-- A step that does not get back to `poll`. -/
theorem LastPoll.append (h : LastPoll u events w₁ ready) (hrun : (loop u).run events = .ok w)
    (hstep : w.step u e = .ok w') (hpass : w'.phase ≠ .polling) :
    LastPoll u (events ++ [e]) w₁ ready := by
  obtain ⟨l₁, calls, l₂, rfl, hrun₁, hphase, hstop, hpoll, hsince⟩ := h
  refine ⟨l₁, calls, l₂ ++ [e], by simp, hrun₁, hphase, hstop, hpoll, ?_⟩
  intro l₃ l₄ w₃ hl hrun₃
  rcases List.eq_nil_or_concat l₄ with rfl | ⟨l₅, e', rfl⟩
  · -- this is the step
    rw [List.append_nil] at hl
    rw [← hl] at hrun₃
    have hrun' : (loop u).run ((l₁ ++ .server calls :: l₂) ++ [e]) = .ok w' :=
      Machine.run_append_step hrun hstep
    rw [List.append_assoc, List.cons_append] at hrun'
    obtain rfl : w₃ = w' := Except.ok.inj (hrun₃.symm.trans hrun')
    exact hpass
  · rw [List.concat_eq_append, ← List.append_assoc] at hl
    exact hsince l₃ l₅ w₃ (List.append_inj_left' hl rfl) hrun₃

/-- A step that leaves descriptors and clients where they are. -/
theorem SincePoll.congr (h : SincePoll w₁ ready w) (hfds : w'.fds = w.fds)
    (hconns : ∀ i, (w'.connections i).map Client.id = (w.connections i).map Client.id)
    (hphase : w'.phase = .accepting → w.phase = .accepting) : SincePoll w₁ ready w' := by
  refine ⟨fun i => ?_, fun hacc i => ?_, fun i hfd hfd₁ => ?_⟩
  · rw [hfds]
    exact h.reported i
  · rw [hfds]
    exact h.unserved (hphase hacc) i
  · rw [hfds] at hfd
    rw [hfds, hconns]
    exact h.same i hfd hfd₁

/-- An entry with the same client. -/
theorem map_id_update {f : SlotIndex → Option Client} {c c' : Client} {j : SlotIndex}
    (hc : f j = some c) (hid : c'.id = c.id) :
    (Function.update f j (some c') i).map Client.id = (f i).map Client.id := by
  by_cases hij : i = j
  · rw [hij, Function.update_self, hc]
    exact congrArg some hid
  · rw [Function.update_of_ne hij]

/-- A step of the server in a pass. -/
theorem SincePoll.server (h : SincePoll w₁ ready w) (hpass : w.phase.inPass = true)
    (hstep : w.server u calls = .ok w') (hpass' : w'.phase.inPass = true) :
    SincePoll w₁ ready w' := by
  cases server_step hstep with
  | leave => cases hpass'
  | poll ready' hphase =>
    rw [hphase] at hpass
    cases hpass
  | nobody => exact h.congr rfl (fun _ => rfl) fun hacc => (by cases hacc)
  | full => exact h.congr rfl (fun _ => rfl) fun hacc => (by cases hacc)
  | served => cases hpass'
  | enter => exact h.congr rfl (fun _ => rfl) fun hacc => (by cases hacc)
  | line j taken bytes rest c hphase hc =>
    exact h.congr rfl (fun i => map_id_update hc rfl) fun hacc => (by cases hacc)
  | more j taken taken' buffer waiting c hphase hc =>
    exact h.congr rfl (fun i => map_id_update hc rfl) fun hacc => (by cases hacc)
  | ended j taken bytes c hphase hc =>
    exact h.congr rfl (fun i => map_id_update hc rfl) fun hacc => (by cases hacc)
  | destroy => cases hpass'
  | stop => cases hpass'
  | accepted fd addr connection world j hphase hready haccept hworld hfree =>
    -- the slot was free when `poll` was called
    obtain ⟨-, -, hnone⟩ := findSlot_eq_some hfree
    have hfree₁ : (w₁.fds j).fd = none :=
      (h.unserved hphase j).symm.trans (Option.isNone_iff_eq_none.mp hnone)
    refine ⟨fun i => ?_, fun hacc => (by cases hacc), fun i hfd hfd₁ => ?_⟩
    · show (Function.update w.fds j _ i).revents = _
      by_cases hij : i = j
      · rw [hij, Function.update_self]
        exact h.reported j
      · rw [Function.update_of_ne hij]
        exact h.reported i
    · have hij : i ≠ j := by
        rintro rfl
        exact hfd₁ hfree₁
      have hfd' : (Function.update w.fds j { w.fds j with fd := some fd } i).fd ≠ none := hfd
      rw [Function.update_of_ne hij] at hfd'
      show (Function.update w.fds j _ i).fd = _ ∧ (Function.update w.connections j _ i).map _ = _
      rw [Function.update_of_ne hij, Function.update_of_ne hij]
      exact h.same i hfd' hfd₁
  | execute j line c fd stays connection world hphase hc hfd hexec =>
    cases stays with
    | true => exact h.congr rfl (fun i => map_id_update hc rfl) fun hacc => (by cases hacc)
    | false =>
      refine ⟨fun i => ?_, fun hacc => (by cases hacc), fun i hfd hfd₁ => ?_⟩
      · show (Function.update w.fds j { w.fds j with fd := none } i).revents = _
        by_cases hij : i = j
        · rw [hij, Function.update_self]
          exact h.reported j
        · rw [Function.update_of_ne hij]
          exact h.reported i
      · have hfd' : (Function.update w.fds j { w.fds j with fd := none } i).fd ≠ none := hfd
        have hij : i ≠ j := by
          rintro rfl
          rw [Function.update_self] at hfd'
          exact hfd' rfl
        rw [Function.update_of_ne hij] at hfd'
        show (Function.update w.fds j _ i).fd = _ ∧ (Function.update w.connections j _ i).map _ = _
        rw [Function.update_of_ne hij, Function.update_of_ne hij]
        exact h.same i hfd' hfd₁

/-- Between two calls of `poll`, the pass goes by what the first one reported. -/
theorem sincePoll_of_run (hrun : (loop u).run events = .ok w) (hpass : w.phase.inPass = true) :
    ∃ w₁ ready, LastPoll u events w₁ ready ∧ SincePoll w₁ ready w := by
  refine Machine.run_induction (m := loop u)
    (I := fun events w => w.phase.inPass = true →
      ∃ w₁ ready, LastPoll u events w₁ ready ∧ SincePoll w₁ ready w) ?_ ?_ events w hrun hpass
  · intro hpass
    cases hpass
  intro events w e w' hrun hI hstep hpass'
  have hpolls : ∀ {w₂ : Loop}, w₂.phase.inPass = true → w₂.phase ≠ .polling := by
    intro w₂ h hpolling
    rw [hpolling] at h
    cases h
  by_cases hpass : w.phase.inPass = true
  · obtain ⟨w₁, ready, hlast, hsince⟩ := hI hpass
    refine ⟨w₁, ready, hlast.append hrun hstep (hpolls hpass'), ?_⟩
    by_cases hserver : ∃ calls, e = .server calls
    · obtain ⟨calls, rfl⟩ := hserver
      exact hsince.server hpass hstep hpass'
    · obtain ⟨hfds, hconns, hphase⟩ := arrays_elsewhere (fun calls he => hserver ⟨calls, he⟩) hstep
      refine hsince.congr hfds (fun i => by rw [hconns]) fun hacc => ?_
      rw [← hphase]
      exact hacc
  · by_cases hserver : ∃ calls, e = .server calls
    · obtain ⟨calls, rfl⟩ := hserver
      cases server_step hstep with
      | leave => cases hpass'
      | poll ready hphase hstop hpoll =>
        refine ⟨w, ready, ⟨events, calls, [], rfl, hrun, hphase, hstop, hpoll, ?_⟩, ?_⟩
        · intro l₃ l₄ w₃ hl hrun₃
          obtain ⟨rfl, -⟩ := List.append_eq_nil_iff.mp hl.symm
          have hrun' := Machine.run_append_step hrun hstep
          obtain rfl := Except.ok.inj (hrun₃.symm.trans hrun')
          simp
        · refine ⟨fun i => rfl, fun _ i => rfl, fun i _ _ => ⟨rfl, rfl⟩⟩
      | nobody hphase => exact absurd (by rw [hphase]; rfl) hpass
      | full fd addr connection world hphase => exact absurd (by rw [hphase]; rfl) hpass
      | accepted fd addr connection world j hphase => exact absurd (by rw [hphase]; rfl) hpass
      | served => cases hpass'
      | enter k j hphase => exact absurd (by rw [hphase]; rfl) hpass
      | line j taken bytes rest c hphase => exact absurd (by rw [hphase]; rfl) hpass
      | more j taken taken' buffer waiting c hphase => exact absurd (by rw [hphase]; rfl) hpass
      | ended j taken bytes c hphase => exact absurd (by rw [hphase]; rfl) hpass
      | execute j line c fd stays connection world hphase =>
        exact absurd (by rw [hphase]; rfl) hpass
      | destroy => cases hpass'
      | stop => cases hpass'
    · obtain ⟨-, -, hphase⟩ := arrays_elsewhere (fun calls he => hserver ⟨calls, he⟩) hstep
      rw [hphase] at hpass'
      exact absurd hpass' hpass

/-- What a pass does when a client is accepted: a slot that is in use, or is the server's,
stays as it is. -/
theorem accept_keeps (hphase : w.phase = .accepting) (h : w.server u calls = .ok w')
    (hfd : (w.fds i).fd ≠ none) : w'.fds i = w.fds i ∧ w'.connections i = w.connections i := by
  obtain ⟨w₁, rfl, ⟨-, rfl⟩ | ⟨-, hw⟩⟩ := accepting_eq_ok hphase h
  · exact ⟨rfl, rfl⟩
  obtain ⟨-, rfl⟩ | ⟨fd, addr, connection, world, -, -, ⟨-, rfl⟩ | ⟨j, hfree, rfl⟩⟩ :=
    acceptNewConnection_eq_ok hw
  · exact ⟨rfl, rfl⟩
  · exact ⟨rfl, rfl⟩
  · obtain ⟨-, -, hnone⟩ := findSlot_eq_some hfree
    have hij : i ≠ j := by
      rintro rfl
      exact hfd (Option.isNone_iff_eq_none.mp hnone)
    exact ⟨Function.update_of_ne hij .., Function.update_of_ne hij ..⟩

/-- A slot whose client gets its turn was reported in this cycle, for this client. -/
theorem turn_reported {k : Nat} (hrun : (loop u).run events = .ok w)
    (hphase : w.phase = .serving k) (hnext : nextReady w.fds k = some i) :
    ∃ w₁ ready, LastPoll u events w₁ ready ∧ ready i = true ∧ (w₁.fds i).fd ≠ none ∧
      (w₁.fds i).fd = (w.fds i).fd ∧
        (w₁.connections i).map Client.id = (w.connections i).map Client.id := by
  obtain ⟨w₁, ready, hlast, hsince⟩ := sincePoll_of_run hrun (by rw [hphase]; rfl)
  obtain ⟨-, -, hready⟩ := findSlot_eq_some hnext
  rw [Bool.and_eq_true, hsince.reported i, Bool.and_eq_true] at hready
  obtain ⟨hlive, hlive₁, hreported⟩ := hready
  have hopen : (w.fds i).fd ≠ none := Option.isSome_iff_ne_none.mp hlive
  have hopen₁ : (w₁.fds i).fd ≠ none := Option.isSome_iff_ne_none.mp hlive₁
  obtain ⟨hfd, hid⟩ := hsince.same i hopen hopen₁
  exact ⟨w₁, ready, hlast, hreported, hopen₁, hfd.symm, hid.symm⟩

/-- Two clients that are served have different descriptors. -/
theorem Tracks.distinct {S : Sessions} {c c' : Client} {j : SlotIndex} (hT : Tracks u w S)
    (hreach : (sessions u.toSetup).Reachable S) (hc : w.connections i = some c)
    (hc' : w.connections j = some c')
    (hsame : c.connection.clientSockfd = c'.connection.clientSockfd) : i = j := by
  obtain ⟨l, hS⟩ := hreach
  have hctl := ((sound_of_run hS).owns c.id _ (hT.record i c hc)).control
  have hctl' := ((sound_of_run hS).owns c'.id _ (hT.record j c' hc')).control
  rw [hsame, hctl'] at hctl
  exact hT.apart i j c c' hc hc' (Desc.control.inj (Option.some.inj hctl)).symm

end

/-- **The slot table.** After a run of any events, in which `fdopen` succeeds:

* the live slots have different descriptors;
* a live slot has a record with its descriptor, made by the `accept` that filled it and
  changed by what its own client sent;
* a client is accepted into a slot that is free, and not into the server's;
* `handle_connection` is called for a slot only when the last `poll` reported it, and the
  client is the one that was in it then. -/
theorem slot_table_of_run (u : Settings) (events : List LoopEvent) (w : Loop)
    (hrun : (loop u).run events = .ok w) (hopens : (loop u).Meets StreamOpens events) :
    (∀ i j, w.Live i → w.Live j → (w.fds i).fd = (w.fds j).fd → i = j) ∧
    (∀ i, w.Live i → ∃ c, w.connections i = some c ∧
      (w.fds i).fd = some c.connection.clientSockfd ∧ RecordOf u i events c) ∧
    ((w.fds 0).fd = some u.server.sockfd ∧
      ∀ calls w' i, w.phase = .accepting → w.step u (.server calls) = .ok w' →
        (w.fds i).fd ≠ none → w'.fds i = w.fds i ∧ w'.connections i = w.connections i) ∧
    ∀ calls w' k i taken, w.phase = .serving k → w.step u (.server calls) = .ok w' →
      w'.phase = .reading i taken → ∃ c w₁ ready, w.connections i = some c ∧
        LastPoll u events w₁ ready ∧ ready i = true ∧
          (w₁.fds i).fd = some c.connection.clientSockfd ∧
            (w₁.connections i).map Client.id = some c.id := by
  obtain ⟨S, hS, hT⟩ := tracks_of_run hrun hopens
  have hentry : ∀ i, w.Live i → ∃ c, w.connections i = some c := by
    rintro i ⟨hi, hfd, hopen⟩
    exact Option.ne_none_iff_exists'.mp (hT.live i hi hfd hopen)
  refine ⟨fun i j hi hj hsame => ?_, fun i hi => ?_, ⟨hT.listens, ?_⟩, ?_⟩
  · obtain ⟨c, hc⟩ := hentry i hi
    obtain ⟨c', hc'⟩ := hentry j hj
    rw [(hT.slot i c hc).2, (hT.slot j c' hc').2] at hsame
    exact hT.distinct ⟨_, hS⟩ hc hc' (Option.some.inj hsame)
  · obtain ⟨c, hc⟩ := hentry i hi
    exact ⟨c, hc, (hT.slot i c hc).2, recordOf_of_run hrun i c hc⟩
  · exact fun calls w' i hphase hstep hfd => accept_keeps hphase hstep hfd
  · intro calls w' k i taken hphase hstep hreading
    have hnext : nextReady w.fds k = some i := by
      have hserver : w.server u calls = .ok w' := hstep
      unfold Loop.server at hserver
      rw [hphase] at hserver
      dsimp only at hserver
      split at hserver
      next =>
        cases hserver
        cases hreading
      next j hj =>
        cases hserver
        cases hreading
        exact hj
    obtain ⟨w₁, ready, hlast, hreported, -, hfd, hid⟩ := turn_reported hrun hphase hnext
    obtain ⟨hi, -, hready⟩ := findSlot_eq_some hnext
    rw [Bool.and_eq_true] at hready
    obtain ⟨c, hc⟩ := hentry i ⟨hi, Option.isSome_iff_ne_none.mp hready.1, by rw [hphase]; rfl⟩
    refine ⟨c, w₁, ready, hc, hlast, hreported, ?_, ?_⟩
    · rw [hfd]
      exact (hT.slot i c hc).2
    · rw [hid, hc]
      rfl

/-- Two clients connect, the first one quits, and a third one gets its slot and sends a line.
`poll` has returned with that line and with a fourth client. -/
def reuse : List LoopEvent :=
  acceptOn 4 ++ acceptOn 5 ++ [.arrive 0 (lit "QUIT\n")] ++ turnOf 1 4 ++ acceptOn 6 ++
    [.arrive 2 (lit "NOOP\r\n"), .server (.fine [0, 1] 7)]

/-- The slots are those of the third client and of the second one. The fourth one is accepted
without a change to them, and the turn goes to the client whose line was reported. -/
theorem slot_table_reused : ∃ w w₁ w₂,
    (loop smallSettings).run reuse = .ok w ∧
      w.step smallSettings (.server (.fine [] 7)) = .ok w₁ ∧
      w₁.step smallSettings (.server (.fine [] 0)) = .ok w₂ ∧ w₂.phase = .reading 1 [] ∧
      (w.fds 1).fd ≠ (w.fds 2).fd ∧
      (∃ c c', w.connections 1 = some c ∧ RecordOf smallSettings 1 reuse c ∧
        w.connections 2 = some c' ∧ RecordOf smallSettings 2 reuse c') ∧
      (w₁.fds 1 = w.fds 1 ∧ w₁.connections 1 = w.connections 1) ∧
      ∃ c w₀ ready, w₁.connections 1 = some c ∧
        LastPoll smallSettings (reuse ++ [.server (.fine [] 7)]) w₀ ready ∧ ready 1 = true := by
  obtain ⟨w₂, hrun₂, hreading⟩ := Machine.exists_of_run (m := loop smallSettings)
    (l := reuse ++ [.server (.fine [] 7)] ++ [.server (.fine [] 0)])
    (P := fun w => w.phase = .reading 1 []) (by decide +kernel)
  obtain ⟨w₁, hrun₁, hrest⟩ := Machine.runFrom_append_ok.mp hrun₂
  obtain ⟨_, hstep₂, hend⟩ := Machine.runFrom_cons_ok hrest
  cases hend
  obtain ⟨w, hrun, hrest⟩ := Machine.runFrom_append_ok.mp hrun₁
  obtain ⟨_, hstep₁, hend⟩ := Machine.runFrom_cons_ok hrest
  cases hend
  -- where the two states on the way are, and that no `fdopen` failed
  obtain ⟨_, hrun', hphase, hlive₁, hlive₂⟩ := Machine.exists_of_run
    (m := loop smallSettings) (l := reuse)
    (P := fun w => w.phase = .accepting ∧ ((w.fds 1).fd ≠ none ∧ w.phase.closed 1 = false) ∧
      ((w.fds 2).fd ≠ none ∧ w.phase.closed 2 = false)) (by decide +kernel)
  cases hrun.symm.trans hrun'
  obtain ⟨_, hrun₁', hserving, hopens⟩ := Machine.exists_of_run (m := loop smallSettings)
    (l := reuse ++ [.server (.fine [] 7)])
    (P := fun w => w.phase = .serving 1 ∧ (loop smallSettings).Meets StreamOpens
      (reuse ++ [.server (.fine [] 7)])) (by decide +kernel)
  cases hrun₁.symm.trans hrun₁'
  obtain ⟨hdistinct, hrecord, ⟨-, hkeeps⟩, -⟩ := slot_table_of_run smallSettings reuse w hrun
    (Machine.meetsFrom_append.mp hopens).1
  obtain ⟨-, -, -, hturn⟩ := slot_table_of_run smallSettings _ w₁ hrun₁ hopens
  obtain ⟨c, hc, -, hrec⟩ := hrecord 1 ⟨by decide, hlive₁⟩
  obtain ⟨c', hc', -, hrec'⟩ := hrecord 2 ⟨by decide, hlive₂⟩
  obtain ⟨c₁, w₀, ready, hc₁, hpoll, hready, -⟩ :=
    hturn (.fine [] 0) w₂ 1 1 [] hserving hstep₂ hreading
  refine ⟨w, w₁, w₂, hrun, hstep₁, hstep₂, hreading, fun hsame => ?_, ⟨c, c', hc, hrec, hc', hrec'⟩,
    hkeeps (.fine [] 7) w₁ 1 hphase hstep₁ hlive₁.1, c₁, w₀, ready, hc₁, hpoll, hready⟩
  exact absurd (hdistinct 1 2 ⟨by decide, hlive₁⟩ ⟨by decide, hlive₂⟩ hsame) (by decide)

/-! ## Accepting a client as a whole -/

/-- A client is accepted into one slot, with an initialised record, or its descriptor is
closed and no slot is taken. -/
def AcceptedWhole (server : ServerT) (w w' : Loop) (fd : Fd) (addr : SockAddr) : Prop :=
  (w'.world.os.desc fd = some (.control w.world.nextId) ∧ ∃ i, i ≠ 0 ∧
    (∀ j, j ≠ 0 → ((w'.fds j).fd = some fd ↔ j = i)) ∧
      w'.connections i = some ⟨w.world.nextId, initConnection server fd addr, []⟩) ∨
  (w'.world.os.desc fd = none ∧ ∀ i, (w'.fds i).fd ≠ none → (w.fds i).fd ≠ none)

/-- A client that is accepted finds a free slot, `fdopen` succeeds, and no other slot has
kept the number of its descriptor. -/
def HasRoom (w : Loop) : LoopEvent → Prop
  | .server calls => w.phase = .accepting → (w.fds 0).revents = true → ∀ x ∈ calls.accept,
      (∃ i, i ≠ 0 ∧ (w.fds i).fd = none) ∧ calls.fdopen = true ∧
        ∀ i, i ≠ 0 → (w.fds i).fd ≠ some x.1
  | _ => True

instance (w : Loop) : ∀ e, Decidable (HasRoom w e)
  | .server _ => inferInstanceAs (Decidable (_ → _ → _))
  | .arrive .. | .hangup .. | .dataConnect _ | .child .. | .signal => .isTrue trivial

/-- Nothing is half accepted: a live slot has an initialised record of its descriptor, and
every control connection that is open is in a slot. -/
structure Loop.Tidy (w : Loop) : Prop where
  initialised : ∀ i, w.Live i →
    ∃ c, w.connections i = some c ∧ (w.fds i).fd = some c.connection.clientSockfd
  slotted : ∀ fd id, w.world.os.desc fd = some (.control id) →
    ∃ i c, i ≠ 0 ∧ w.connections i = some c ∧ (w.fds i).fd = some fd ∧ c.id = id

section

variable {u : Settings} {w w' : Loop} {events : List LoopEvent} {e : LoopEvent} {calls : Calls}
  {i : SlotIndex} {fd : Fd} {addr : SockAddr}

/-- The server's steps forget no number that was given to a client. -/
theorem nextId_server (h : w.server u calls = .ok w') :
    w.world.nextId ≤ w'.world.nextId := by
  cases server_step h with
  | full fd addr connection world hphase hready haccept hworld =>
    obtain ⟨-, -, hw⟩ := World.accept_eq_ok hworld
    rw [hw]
    exact Nat.le_succ _
  | accepted fd addr connection world i hphase hready haccept hworld =>
    obtain ⟨-, -, hw⟩ := World.accept_eq_ok hworld
    dsimp only
    split
    next =>
      rw [hw]
      exact Nat.le_succ _
    next =>
      rw [hw]
      exact Nat.le_succ _
  | execute i buffer c fd stays connection world hphase hc hfd hexec =>
    obtain ⟨s, -, -, hw⟩ := World.exec_eq_ok hexec
    exact Nat.le_of_eq (by rw [hw]; rfl)
  | destroy k i c fd connection world hphase hnext hc hfd hexec =>
    obtain ⟨s, -, -, hw⟩ := World.exec_eq_ok hexec
    exact Nat.le_of_eq (by rw [hw]; rfl)
  | _ => exact Nat.le_refl _

theorem nextId_elsewhere (hserver : ∀ calls, e ≠ .server calls) (h : w.step u e = .ok w') :
    w'.world.nextId = w.world.nextId := by
  cases e with
  | server calls => exact absurd rfl (hserver calls)
  | arrive id bytes =>
    unfold Loop.step at h
    dsimp only at h
    split at h
    next => cases h
    next =>
      cases h
      rfl
  | hangup id reset =>
    cases h
    rfl
  | dataConnect fd =>
    obtain ⟨world, hworld, rfl⟩ := map_eq_ok h
    obtain ⟨pending, -, rfl⟩ := World.dataConnect_eq_ok hworld
    rfl
  | child k cans =>
    obtain ⟨world, hworld, rfl⟩ := map_eq_ok h
    obtain ⟨id, child, s, -, -, rfl⟩ := World.runChild_eq_ok hworld
    rfl
  | signal =>
    cases h
    rfl

/-- The state after one more step. -/
theorem run_concat {w₀ w₁ : Loop} (hrun₀ : (loop u).run events = .ok w₀)
    (hstep : w₀.step u e = .ok w₁) (hrun : (loop u).run (events ++ [e]) = .ok w) : w₁ = w := by
  have hrun₁ : (loop u).run (events ++ [e]) = .ok w₁ := Machine.run_append_step hrun₀ hstep
  exact Except.ok.inj (hrun₁.symm.trans hrun)

/-- The clients in the slots were accepted before. -/
theorem RecordOf.known {c : Client} (h : RecordOf u i events c)
    (hrun : (loop u).run events = .ok w) : c.id < w.world.nextId := by
  induction h generalizing w with
  | accepted events w₀ w₁ calls fd addr hrun₀ hphase haccept hfree hstep hfd =>
    obtain rfl := run_concat hrun₀ hstep hrun
    have hserver : w₀.server u calls = .ok w₁ := hstep
    obtain ⟨w₂, rfl, ⟨-, rfl⟩ | ⟨-, hw⟩⟩ := accepting_eq_ok hphase hserver
    · rw [hfree.2] at hfd
      cases hfd
    obtain ⟨hnone, -⟩ | ⟨fd', addr', connection, world, -, hworld, ⟨-, rfl⟩ | ⟨j, -, rfl⟩⟩ :=
      acceptNewConnection_eq_ok hw
    · rw [haccept] at hnone
      cases hnone
    · obtain ⟨-, -, hw⟩ := World.accept_eq_ok hworld
      show w₀.world.nextId < world.nextId
      rw [hw]
      exact Nat.lt_succ_self _
    · obtain ⟨-, -, hw⟩ := World.accept_eq_ok hworld
      dsimp only
      split
      next =>
        rw [hw]
        exact Nat.lt_succ_self _
      next =>
        rw [hw]
        exact Nat.lt_succ_self _
  | read events w₀ w₁ calls c taken buffer h hrun₀ hphase hstep hentry ih =>
    obtain rfl := run_concat hrun₀ hstep hrun
    exact Nat.lt_of_lt_of_le (ih hrun₀) (nextId_server hstep)
  | handled events w₀ w₁ calls c fd line connection world h hrun₀ hphase hstep hfd hexec
    hentry ih =>
    obtain rfl := run_concat hrun₀ hstep hrun
    exact Nat.lt_of_lt_of_le (ih hrun₀) (nextId_server hstep)
  | kept events e w₀ w₁ c h hrun₀ hbefore hstep hentry ih =>
    obtain rfl := run_concat hrun₀ hstep hrun
    refine Nat.lt_of_lt_of_le (ih hrun₀) ?_
    by_cases hserver : ∃ calls, e = .server calls
    · obtain ⟨calls, rfl⟩ := hserver
      exact nextId_server hstep
    · exact Nat.le_of_eq (nextId_elsewhere (fun calls he => hserver ⟨calls, he⟩) hstep).symm

/-- **A client is accepted as a whole** exactly when there is room for it. -/
theorem acceptedWhole_iff (hrun : (loop u).run events = .ok w) (hphase : w.phase = .accepting)
    (hready : (w.fds 0).revents = true) (haccept : calls.accept = some (fd, addr))
    (hstep : w.step u (.server calls) = .ok w') :
    AcceptedWhole u.server w w' fd addr ↔ HasRoom w (.server calls) := by
  have hroom : HasRoom w (.server calls) ↔ (∃ i, i ≠ 0 ∧ (w.fds i).fd = none) ∧
      calls.fdopen = true ∧ ∀ i, i ≠ 0 → (w.fds i).fd ≠ some fd := by
    show (_ → _ → ∀ x ∈ calls.accept, _) ↔ _
    rw [haccept]
    simp only [Option.mem_def, Option.some.injEq, forall_eq', hphase, hready, forall_const]
  have h : w.server u calls = .ok w' := hstep
  -- no entry that was there can be the new client's
  have hknown : ∀ i,
      w.connections i ≠ some ⟨w.world.nextId, initConnection u.server fd addr, []⟩ := by
    intro i hc
    exact Nat.lt_irrefl _ ((recordOf_of_run hrun i _ hc).known hrun)
  obtain ⟨w₁, rfl, ⟨hnot, -⟩ | ⟨-, hw⟩⟩ := accepting_eq_ok hphase h
  · rw [hready] at hnot
    cases hnot
  obtain ⟨hnone, -⟩ | ⟨fd', addr', connection, world, hsome, hworld, hslot⟩ :=
    acceptNewConnection_eq_ok hw
  · rw [haccept] at hnone
    cases hnone
  obtain ⟨rfl, rfl⟩ : fd = fd' ∧ addr = addr' := by
    rw [haccept] at hsome
    exact Prod.mk.inj (Option.some.inj hsome)
  obtain ⟨-, rfl, hos⟩ := World.accept_eq_ok hworld
  have hopen : world.os.desc fd = some (.control w.world.nextId) := by
    rw [hos]
    exact Function.update_self ..
  rw [hroom]
  rcases hslot with ⟨hfull, rfl⟩ | ⟨j, hfree, rfl⟩
  · -- the table is full
    refine iff_of_false ?_ ?_
    · rintro (⟨-, i, -, -, hc⟩ | ⟨hclosed, -⟩)
      · exact hknown i hc
      · cases hopen.symm.trans hclosed
    · rintro ⟨⟨i, hi, hnone⟩, -⟩
      have hone : 1 ≤ i.val := one_le_of_ne_zero hi
      have htaken : (w.fds i).fd.isNone = false := findSlot_eq_none hfull hi hone
      rw [hnone] at htaken
      cases htaken
  obtain ⟨hj, -, hnone⟩ := findSlot_eq_some hfree
  have hnone' : (w.fds j).fd = none := Option.isNone_iff_eq_none.mp hnone
  have hfds : ∀ i, i ≠ j → Function.update w.fds j { w.fds j with fd := some fd } i = w.fds i :=
    fun i hi => Function.update_of_ne hi ..
  have hfdj : (Function.update w.fds j { w.fds j with fd := some fd } j).fd = some fd := by
    rw [Function.update_self]
  cases hfdopen : calls.fdopen with
  | false =>
    -- the descriptor is closed, and the slot is taken
    refine iff_of_false ?_ fun hr => by cases hr.2.1
    rintro (⟨-, i, -, -, hc⟩ | ⟨-, hlive⟩)
    · have hc' : Function.update w.connections j none i = _ := hc
      rcases update_entry hc' with ⟨-, hno⟩ | ⟨-, hold⟩
      · cases hno
      · exact hknown i hold
    · refine absurd hnone' (hlive j ?_)
      show (Function.update w.fds j { w.fds j with fd := some fd } j).fd ≠ none
      rw [hfdj]
      simp
  | true =>
    constructor
    · rintro (⟨-, i, -, honly, -⟩ | ⟨hclosed, -⟩)
      · refine ⟨⟨j, hj, hnone'⟩, rfl, fun k hk hfd => ?_⟩
        have hkj : k ≠ j := by
          rintro rfl
          rw [hnone'] at hfd
          cases hfd
        have hold : (Function.update w.fds j { w.fds j with fd := some fd } k).fd = some fd := by
          rw [hfds k hkj, hfd]
        exact hkj (((honly k hk).mp hold).trans ((honly j hj).mp hfdj).symm)
      · cases hopen.symm.trans hclosed
    · rintro ⟨-, -, hnew⟩
      refine .inl ⟨hopen, j, hj, fun k hk => ⟨fun hfd => ?_, ?_⟩, Function.update_self ..⟩
      · by_contra hkj
        have hold : (Function.update w.fds j { w.fds j with fd := some fd } k).fd = some fd := hfd
        rw [hfds k hkj] at hold
        exact hnew k hk hold
      · rintro rfl
        exact hfdj

/-- A client that has room gets a slot. -/
theorem HasRoom.streamOpens (h : HasRoom w e) : StreamOpens w e := by
  cases e with
  | server calls =>
    intro hphase hready haccept _
    obtain ⟨x, hx⟩ := Option.ne_none_iff_exists'.mp haccept
    exact (h hphase hready x hx).2.1
  | _ => exact trivial

/-- In a run in which every client has room, none is turned away. -/
theorem served_of_run (hrun : (loop u).run events = .ok w)
    (hroom : (loop u).Meets HasRoom events) :
    ∀ fd addr, .accept fd addr false ∉ sessionEvents u events := by
  have hboth : (loop u).run events = .ok w ∧
      ∀ fd addr, .accept fd addr false ∉ sessionEvents u events := by
    refine Machine.run_invariant_of_meets (m := loop u) (C := HasRoom)
      (I := fun events w => (loop u).run events = .ok w ∧
        ∀ fd addr, .accept fd addr false ∉ sessionEvents u events) ⟨rfl, fun _ _ h => by cases h⟩ ?_
        events w hroom hrun
    rintro events w e w' ⟨hrun, hI⟩ hC hstep
    refine ⟨Machine.run_append_step hrun hstep, fun fd addr hmem => ?_⟩
    have hmem' : .accept fd addr false ∈ (loop u).seen (fun w e _ => sessionEvent w e)
        (events ++ [e]) :=
      hmem
    rw [Machine.seen_append_step hrun hstep] at hmem'
    rcases List.mem_append.mp hmem' with hold | hnew
    · exact hI fd addr hold
    · have hevent : sessionEvent w e = some (.accept fd addr false) := by simpa using hnew
      obtain ⟨calls, rfl, hphase, hready, haccept, hserved⟩ := sessionEvent_accept hevent
      obtain ⟨⟨i, hi, hnone⟩, -⟩ := hC hphase hready _ haccept
      have hone : 1 ≤ i.val := one_le_of_ne_zero hi
      have hfound : (findSlot 1 fun i => (w.fds i).fd.isNone).isSome = true :=
        findSlot_isSome_iff.mpr ⟨i, hi, hone, by rw [hnone]; rfl⟩
      rw [hfound] at hserved
      cases hserved
  exact hboth.2

/-- Then nothing is half accepted. -/
theorem tidy_of_run (hrun : (loop u).run events = .ok w) (hroom : (loop u).Meets HasRoom events)
    (hphase : w.phase ≠ .stopped) : w.Tidy := by
  have hopens : (loop u).Meets StreamOpens events :=
    Machine.MeetsFrom.mono (fun _ _ h => h.streamOpens) hroom
  obtain ⟨S, hS, hT⟩ := tracks_of_run hrun hopens
  refine ⟨fun i hi => ?_, fun fd id hfd => ?_⟩
  · obtain ⟨c, hc⟩ := Option.ne_none_iff_exists'.mp (hT.live i hi.1 hi.2.1 hi.2.2)
    exact ⟨c, hc, (hT.slot i c hc).2⟩
  · rw [← hT.world hphase] at hfd
    rcases (controls_of_run hS).control fd id hfd with ⟨c, hc, rfl⟩ | ⟨S₁, addr, S₂, htook⟩
    · obtain ⟨i, c', hc', rfl⟩ := hT.served id (by rw [hc]; simp)
      obtain rfl : c = c'.connection := Option.some.inj (hc.symm.trans (hT.record i c' hc'))
      obtain ⟨hi, hslot⟩ := hT.slot i c' hc'
      exact ⟨i, c', hi, hc', hslot, rfl⟩
    · obtain ⟨l₁, l₂, hl, -⟩ := htook
      exact absurd (by rw [hl]; simp) (served_of_run hrun hroom fd addr)

end

/-- **Accepting is all or nothing** exactly when there is room. In every state the main
loop can reach, a client that connects is accepted as a whole exactly when there is a free
slot, `fdopen` succeeds, and no slot has kept the number of its descriptor; and after a run
in which every client that connected had room, nothing is half accepted. -/
theorem accepted_whole_of_run (u : Settings) (events : List LoopEvent) (w : Loop)
    (hrun : (loop u).run events = .ok w) :
    (∀ calls w' fd addr, w.phase = .accepting → (w.fds 0).revents = true →
      calls.accept = some (fd, addr) → w.step u (.server calls) = .ok w' →
        (AcceptedWhole u.server w w' fd addr ↔ HasRoom w (.server calls))) ∧
    ((loop u).Meets HasRoom events → w.phase ≠ .stopped → w.Tidy) :=
  ⟨fun _ _ _ _ hphase hready haccept hstep => acceptedWhole_iff hrun hphase hready haccept hstep,
    fun hroom hphase => tidy_of_run hrun hroom hphase⟩

/-- The first client connects, and `fdopen` fails: slot 1 has a descriptor that is closed,
and no record. -/
theorem half_accepted :
    ∃ w w', (loop smallSettings).run [.server (.fine [0] 4)] = .ok w ∧
      w.step smallSettings (.server { Calls.fine [] 4 with fdopen := false }) = .ok w' ∧
        ¬ AcceptedWhole smallSettings.server w w' 4 ⟨inaddrLoopback, 4000⟩ ∧ ¬ w'.Tidy := by
  obtain ⟨w, hw, hphase, hready, hroom⟩ : ∃ w,
      (loop smallSettings).run [.server (.fine [0] 4)] = .ok w ∧
        (w.phase = .accepting ∧ (w.fds 0).revents = true ∧
          ¬ HasRoom w (.server { Calls.fine [] 4 with fdopen := false })) :=
    Machine.exists_of_run (by decide +kernel)
  obtain ⟨w', hw', hfd, hclosed, hnone⟩ : ∃ w',
      (loop smallSettings).run ([.server (.fine [0] 4)] ++
        [.server { Calls.fine [] 4 with fdopen := false }]) = .ok w' ∧
          ((w'.fds 1).fd ≠ none ∧ w'.phase.closed 1 = false ∧ w'.connections 1 = none) :=
    Machine.exists_of_run (by decide +kernel)
  have hstep : w.step smallSettings (.server { Calls.fine [] 4 with fdopen := false }) =
      .ok w' := by
    obtain ⟨w₁, hw₁, hlast⟩ := Machine.runFrom_append_ok.mp hw'
    obtain rfl : w₁ = w := Except.ok.inj (hw₁.symm.trans hw)
    obtain ⟨w₂, hstep, hend⟩ := Machine.runFrom_cons_ok hlast
    cases hend
    exact hstep
  refine ⟨w, w', hw, hstep, fun hwhole => ?_, fun htidy => ?_⟩
  · exact hroom ((acceptedWhole_iff hw hphase hready rfl hstep).mp hwhole)
  · obtain ⟨c, hc, -⟩ := htidy.initialised 1 ⟨by decide, hfd, hclosed⟩
    cases hnone.symm.trans hc

/-- The first client connects and gets slot 1. -/
theorem accepted_whole_first :
    ∃ w, (loop smallSettings).run (acceptOn 4) = .ok w ∧ w.Tidy := by
  obtain ⟨w, hw, hphase, hroom⟩ : ∃ w, (loop smallSettings).run (acceptOn 4) = .ok w ∧
      (w.phase ≠ .stopped ∧ (loop smallSettings).Meets HasRoom (acceptOn 4)) :=
    Machine.exists_of_run (by decide +kernel)
  exact ⟨w, hw, (accepted_whole_of_run smallSettings (acceptOn 4) w hw).2 hroom hphase⟩

end MyFtp.Server
