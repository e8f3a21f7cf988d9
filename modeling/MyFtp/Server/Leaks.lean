import MyFtp.Server.DataDescriptors

/-!
# Descriptors that are forgotten

Every open descriptor of the server process should be in use: the socket clients
connect to, a control connection, or a data socket that is stored in a record.
`destroy_data_socket` closes one of the two descriptors a data socket can have,
and `PASV` and `PORT` drop the data socket that is stored, so this fails.

> `accounted_iff_of_run`: the open descriptors are those in use, after a run,
> exactly when no line of it gives up a passive data socket, replaces one, or
> fails to bind or to listen.
-/

namespace MyFtp.Server

open MyFtp.Posix
open Prog

/-- The line forgets no descriptor. -/
def ClosesData (server : ServerT) (S : Sessions) : SessionEvent → Prop
  | .line id line ans => ∀ c ∈ S.conns id, ∀ command ∈ commandOf line,
      command.ClosesData server ans (Ctx.start S.world.os c)
  | _ => True

instance (server : ServerT) (S : Sessions) : ∀ e, Decidable (ClosesData server S e)
  | .line id .. => inferInstanceAs (Decidable (∀ c ∈ S.conns id, _))
  | .accept .. | .child .. | .hangup _ | .dataConnect _ => .isTrue trivial

/-- A data descriptor that is open, and that no record knows of. -/
def Sessions.Forgotten (S : Sessions) (fd : Fd) : Prop :=
  IsData S.world.os.desc fd ∧ ∀ id c, S.conns id = some c → fd ∉ c.dataFds

/-- What a descriptor is open for: clients connect to it, it is in the record of a
client, or the client accepted on it got no slot. -/
def Accounted (u : Setup) (events : List SessionEvent) (S : Sessions) (fd : Fd) : Prop :=
  fd = u.server.sockfd ∨
    (∃ id c, S.conns id = some c ∧ (fd = c.clientSockfd ∨ fd ∈ c.dataFds)) ∨
      ∃ S₁ addr S₂, (sessions u).Took events S₁ (.accept fd addr false) S₂

/-! ## Every step -/

section

variable {u : Setup} {events : List SessionEvent} {S S' : Sessions} {id : ConnId} {c : Connection}

/-- Records hold unused data sockets. -/
theorem unused_of_run (h : (sessions u).run events = .ok S) :
    ∀ id c d, S.conns id = some c → c.dataSocket = some d → d.Unused := by
  refine Machine.run_induction (m := sessions u)
    (I := fun _ S => ∀ id c d, S.conns id = some c → c.dataSocket = some d → d.Unused) ?_ ?_
    events S h
  · intro id c d hc
    cases hc
  intro events S e S' hrun hI hstep id c d hc hd
  rcases record_cases hstep hc with ⟨hc', -⟩ | ⟨-, fd, addr, -, rfl⟩ |
    ⟨line, ans, c₀, parsed, status, s, -, hc₀, -, hx, rfl, -⟩
  · exact hI id c d hc' hd
  · cases hd
  · obtain ⟨hspeaks, W, hW⟩ := speaks_of_run hrun hc₀
    rcases (executeCommand_outcome hspeaks hW hx).stored hspeaks with hsame | hnone | ⟨d', hd', hu⟩
    · exact hI id c₀ d hc₀ (hsame ▸ hd)
    · rw [hnone] at hd
      cases hd
    · obtain rfl : d = d' := Option.some.inj (hd.symm.trans hd')
      exact hu

/-- What a step that concerns the client `id` alone does to what is forgotten: what was
forgotten stays so, and what is left of the client's own descriptors joins it, unless
it is stored. -/
theorem forgotten_update (hS : Sound u S) (hc : S.conns id = some c)
    (hconns : ∀ id', id' ≠ id → S'.conns id' = S.conns id')
    (hkeep : ∀ fd, fd ∉ c.dataFds → IsData S.world.os.desc fd → IsData S'.world.os.desc fd)
    (hnew : ∀ fd, IsData S'.world.os.desc fd →
      fd ∈ c.dataFds ∨ S.world.os.desc fd = none ∨ IsData S.world.os.desc fd)
    (htaken : ∀ c' fd, S'.conns id = some c' → fd ∈ c'.dataFds →
      fd ∈ c.dataFds ∨ S.world.os.desc fd = none) :
    (∀ fd, ¬ S'.Forgotten fd) ↔ (∀ fd, ¬ S.Forgotten fd) ∧
      ∀ fd, (fd ∈ c.dataFds ∨ S.world.os.desc fd = none) → IsData S'.world.os.desc fd →
        ∃ c', S'.conns id = some c' ∧ fd ∈ c'.dataFds := by
  -- the records of other clients have neither the client's descriptors nor free ones
  have hothers : ∀ fd, (fd ∈ c.dataFds ∨ S.world.os.desc fd = none) → ∀ id' c', id' ≠ id →
      S.conns id' = some c' → fd ∉ c'.dataFds := by
    rintro fd (hfd | hfree) id' c' hne hc' hfd'
    · exact hS.apart id id' c c' hne.symm hc hc' fd hfd hfd'
    · exact (hS.owns id' c' hc').isOpen (.inr hfd') hfree
  constructor
  · intro hnone
    refine ⟨fun fd hlost => ?_, fun fd hfd hdata => ?_⟩
    · obtain ⟨hdata, hnot⟩ := hlost
      have hfd : fd ∉ c.dataFds := hnot id c hc
      refine hnone fd ⟨hkeep fd hfd hdata, fun id' c' hc' hmem => ?_⟩
      by_cases hid : id' = id
      · subst hid
        rcases htaken c' fd hc' hmem with h | h
        · exact hfd h
        · exact not_isData_of_free h hdata
      · rw [hconns id' hid] at hc'
        exact hnot id' c' hc' hmem
    · by_contra hnot
      refine hnone fd ⟨hdata, fun id' c' hc' hmem => ?_⟩
      by_cases hid : id' = id
      · subst hid
        exact hnot ⟨c', hc', hmem⟩
      · rw [hconns id' hid] at hc'
        exact hothers fd hfd id' c' hid hc' hmem
  · rintro ⟨hnone, hleft⟩ fd ⟨hdata, hnot⟩
    by_cases hfd : fd ∈ c.dataFds ∨ S.world.os.desc fd = none
    · obtain ⟨c', hc', hmem⟩ := hleft fd hfd hdata
      exact hnot id c' hc' hmem
    · rw [not_or] at hfd
      refine hnone fd ⟨((hnew fd hdata).resolve_left hfd.1).resolve_left hfd.2, ?_⟩
      intro id' c' hc' hmem
      by_cases hid : id' = id
      · subst hid
        obtain rfl : c = c' := Option.some.inj (hc.symm.trans hc')
        exact hfd.1 hmem
      · exact hnot id' c' (by rw [hconns id' hid, hc']) hmem

/-- A step that leaves the data descriptors and the records' data sockets alone. -/
theorem forgotten_congr (hdata : ∀ fd, IsData S'.world.os.desc fd ↔ IsData S.world.os.desc fd)
    (hstored : ∀ fd, (∃ id c, S'.conns id = some c ∧ fd ∈ c.dataFds) ↔
      ∃ id c, S.conns id = some c ∧ fd ∈ c.dataFds) :
    (∀ fd, ¬ S'.Forgotten fd) ↔ ∀ fd, ¬ S.Forgotten fd := by
  have hiff : ∀ T : Sessions, (∀ fd, ¬ T.Forgotten fd) ↔
      ∀ fd, IsData T.world.os.desc fd → ∃ id c, T.conns id = some c ∧ fd ∈ c.dataFds := by
    intro T
    unfold Sessions.Forgotten
    push Not
    rfl
  rw [hiff, hiff]
  refine forall_congr' fun fd => ?_
  rw [hdata, hstored]

/-- A descriptor entry that is replaced by one of the same kind. -/
theorem isData_update {desc : DescTable} {fd fd' : Fd} {x : Desc}
    (h : IsData desc fd ↔ x.isData = true) :
    IsData (Function.update desc fd (some x)) fd' ↔ IsData desc fd' := by
  by_cases he : fd' = fd
  · rw [he, h]
    unfold IsData
    simp
  · unfold IsData
    rw [Function.update_of_ne he]

/-- What `QUIT` leaves of the data descriptors of others. -/
theorem isData_tornDown {desc : DescTable} {fd : Fd} (hown : Owns desc id c)
    (hfd : fd ∉ c.dataFds) :
    IsData (c.tornDown desc) fd ↔ IsData desc fd := by
  by_cases hctl : fd = c.clientSockfd
  · have hclosed : c.tornDown desc fd = none := by
      rw [hctl]
      exact Function.update_self ..
    refine iff_of_false (not_isData_of_free hclosed) ?_
    rintro ⟨x, hx, hxd⟩
    rw [hctl, hown.control] at hx
    cases hx
    cases hxd
  · unfold IsData
    rw [tornDown_of_ne hctl hfd]

/-- A line that is not `QUIT`. -/
theorem forgotten_handled {line : CStr} {ans : Answers} {parsed : Option Command}
    {status : CommandStatus} {s : Ctx} (hrun : (sessions u).run events = .ok S)
    (hc : S.conns id = some c) (hparse : parseBuffer line = .ok parsed)
    (hx : executeCommand u.server ans parsed (Ctx.start S.world.os c) = (.ok status, s))
    (hquit : status ≠ .quit) :
    (∀ fd, ¬ (S.handled id (true, s.conn, S.world.merge id s)).Forgotten fd) ↔
      (∀ fd, ¬ S.Forgotten fd) ∧ ClosesData u.server S (.line id line ans) := by
  have hS := sound_of_run hrun
  have hparsed := commandOf_of_parse hparse
  obtain ⟨hspeaks, W, hW⟩ := speaks_of_run hrun hc
  have hown : OwnStep id (Ctx.start S.world.os c) s :=
    executeCommand_keepsToItself hx (hS.owns id c hc)
  have hword : ∀ command, parsed = some command → command.word ≠ lit "QUIT" := by
    rintro command rfl hw
    rw [executeCommand_of_mem (by rw [hw]; exact List.mem_of_getElem? (i := 4) rfl)] at hx
    cases hx
    exact hquit rfl
  have hconns : (S.handled id (true, s.conn, S.world.merge id s)).conns id = some s.conn :=
    Function.update_self ..
  refine Iff.trans (forgotten_update hS hc (fun id' hid => Function.update_of_ne hid ..)
    (fun fd hfd hdata => ?_) (fun fd hdata => ?_) fun c' fd hc' hfd => ?_)
    (and_congr_right fun _ => ?_)
  · obtain ⟨x, hx', hxd⟩ := hdata
    have hopen : S.world.os.desc fd ≠ none := by
      rw [hx']
      simp
    exact ⟨x, (hown.others fd hopen hfd).trans hx', hxd⟩
  · by_cases hfd : fd ∈ c.dataFds
    · exact .inl hfd
    by_cases hfree : S.world.os.desc fd = none
    · exact .inr (.inl hfree)
    obtain ⟨x, hx', hxd⟩ := hdata
    exact .inr (.inr ⟨x, (hown.others fd hfree hfd).symm.trans hx', hxd⟩)
  · rw [hconns] at hc'
    obtain rfl := Option.some.inj hc'
    exact hown.taken fd hfd
  · have hiff := (executeCommand_outcome hspeaks hW hx).closes_iff hspeaks
      (fun d hd => unused_of_run hrun id c d hc hd) hword
    have hleft : (∀ fd, (fd ∈ c.dataFds ∨ S.world.os.desc fd = none) →
        IsData s.os.desc fd → ∃ c', some s.conn = some c' ∧ fd ∈ c'.dataFds) ↔
          LeavesStored (Ctx.start S.world.os c) s := by
      simp only [Option.some.injEq, exists_eq_left']
      rfl
    rw [hconns]
    refine (hleft.trans hiff).trans ?_
    show _ ↔ ∀ c' ∈ S.conns id, ∀ command ∈ commandOf line, _
    rw [hc, hparsed]
    simp only [Option.mem_def, Option.some.injEq, forall_eq']

/-- `QUIT`. -/
theorem forgotten_quit {line : CStr} {ans : Answers} {command : Command}
    (hrun : (sessions u).run events = .ok S) (hc : S.conns id = some c)
    (hparse : parseBuffer line = .ok (some command)) (hword : command.word = lit "QUIT") :
    (∀ fd, ¬ (S.handled id (false, c,
        S.world.merge id (Ctx.start S.world.os c).goodbye)).Forgotten fd) ↔
      (∀ fd, ¬ S.Forgotten fd) ∧ ClosesData u.server S (.line id line ans) := by
  have hS := sound_of_run hrun
  have hparsed := commandOf_of_parse hparse
  have hnone : (S.handled id (false, c, S.world.merge id
      (Ctx.start S.world.os c).goodbye)).conns id = none := Function.update_self ..
  have hown := hS.owns id c hc
  refine Iff.trans (forgotten_update hS hc (fun id' hid => Function.update_of_ne hid ..)
    (fun fd hfd => (isData_tornDown hown hfd).mpr) (fun fd hdata => ?_)
    fun c' fd hc' hfd => ?_) (and_congr_right fun _ => ?_)
  · by_cases hfd : fd ∈ c.dataFds
    · exact .inl hfd
    · exact .inr (.inr ((isData_tornDown hown hfd).mp hdata))
  · rw [hnone] at hc'
    cases hc'
  · have hiff := tornDown_leaves_iff hown fun d hd => unused_of_run hrun id c d hc hd
    rw [hnone]
    simp only [reduceCtorEq, false_and, exists_false]
    refine Iff.trans hiff ?_
    show _ ↔ ∀ c' ∈ S.conns id, ∀ command ∈ commandOf line, _
    rw [hc, hparsed]
    simp only [Option.mem_def, Option.some.injEq, forall_eq']
    refine ⟨fun hactive => ⟨fun _ hup => ?_, fun _ => hactive⟩, fun hcloses =>
      hcloses.2 (.inl hword)⟩
    rw [setsUp_of_word (by rw [hword]; decide)] at hup
    cases hup

/-- **One step.** Nothing is forgotten after a step exactly when nothing was before, and
the step meets the condition. -/
theorem forgotten_step (hrun : (sessions u).run events = .ok S) {e : SessionEvent}
    (h : S.step u.server e = .ok S') :
    (∀ fd, ¬ S'.Forgotten fd) ↔ (∀ fd, ¬ S.Forgotten fd) ∧ ClosesData u.server S e := by
  cases e with
  | accept fd addr served =>
    obtain ⟨⟨c, w⟩, hacc, rfl⟩ := map_eq_ok h
    obtain ⟨hfree, rfl, rfl⟩ := World.accept_eq_ok hacc
    have hnone : S.conns S.world.nextId = none := (fresh_of_run hrun _ (Nat.le_refl _)).1
    refine Iff.trans (forgotten_congr (fun fd' => ?_) fun fd' => ?_) (and_iff_left trivial).symm
    · exact isData_update (iff_of_false (not_isData_of_free hfree) Bool.false_ne_true)
    · cases served with
      | false => rfl
      | true =>
        -- the new record has no data socket
        constructor
        · rintro ⟨id', c', hc', hfd'⟩
          dsimp only at hc'
          rw [if_pos rfl] at hc'
          by_cases hid : id' = S.world.nextId
          · rw [hid, Function.update_self] at hc'
            obtain rfl := Option.some.inj hc'
            obtain ⟨d, hd, -⟩ := mem_dataFds.mp hfd'
            cases hd
          · rw [Function.update_of_ne hid] at hc'
            exact ⟨id', c', hc', hfd'⟩
        · rintro ⟨id', c', hc', hfd'⟩
          have hid : id' ≠ S.world.nextId := by
            rintro rfl
            rw [hnone] at hc'
            cases hc'
          refine ⟨id', c', ?_, hfd'⟩
          dsimp only
          rw [if_pos rfl, Function.update_of_ne hid, hc']
  | line id line ans =>
    obtain ⟨c, parsed, hc, hparse, ⟨status, s, hx, hquit, rfl⟩ | ⟨command, rfl, hword, rfl⟩⟩ :=
      handleLine_eq_ok h
    · exact forgotten_handled hrun hc hparse hx hquit
    · exact forgotten_quit hrun hc hparse hword
  | child k cans =>
    obtain ⟨w, hw, rfl⟩ := map_eq_ok h
    obtain ⟨id, child, s, -, -, rfl⟩ := World.runChild_eq_ok hw
    exact (and_iff_left trivial).symm
  | hangup id =>
    cases h
    exact (and_iff_left trivial).symm
  | dataConnect fd =>
    obtain ⟨w, hw, rfl⟩ := map_eq_ok h
    obtain ⟨pending, hfd, rfl⟩ := World.dataConnect_eq_ok hw
    refine Iff.trans (forgotten_congr (fun fd' => ?_) fun fd' => ?_) (and_iff_left trivial).symm
    · exact isData_update (iff_of_true ⟨_, hfd, rfl⟩ rfl)
    · exact Iff.rfl

/-! ## Descriptors that are no data descriptors -/

theorem not_isData_of_plain {desc : DescTable} {fd : Fd} {x : Desc} (hx : x.isData = false)
    (h : desc fd = some x) : ¬ IsData desc fd := by
  rintro ⟨y, hy, hyd⟩
  rw [h] at hy
  cases hy
  rw [hx] at hyd
  cases hyd

/-- Of these descriptors `QUIT` closes the control connection. -/
theorem tornDown_plain {desc : DescTable} {fd : Fd} {x : Desc} (hown : Owns desc id c)
    (hx : x.isData = false) :
    c.tornDown desc fd = some x ↔ desc fd = some x ∧ fd ≠ c.clientSockfd := by
  constructor
  · intro hfd
    have hctl : fd ≠ c.clientSockfd := by
      rintro rfl
      have hclosed : c.tornDown desc c.clientSockfd = none := Function.update_self ..
      cases hclosed.symm.trans hfd
    refine ⟨?_, hctl⟩
    unfold Connection.tornDown at hfd
    rw [Function.update_of_ne hctl] at hfd
    cases hdata : c.dataSocket.bind DataSocket.clientSockfd with
    | none =>
      rw [hdata] at hfd
      exact hfd
    | some fd' =>
      rw [hdata] at hfd
      dsimp only at hfd
      by_cases he : fd = fd'
      · rw [he, Function.update_self] at hfd
        cases hfd
      · rwa [Function.update_of_ne he] at hfd
  · rintro ⟨hfd, hctl⟩
    rw [tornDown_of_ne hctl fun hmem => not_isData_of_plain hx hfd (hown.isData hmem), hfd]

/-- What a step does to them: it closes a control connection where it ends the session,
and opens one where it accepts a client. -/
theorem plain_step (hrun : (sessions u).run events = .ok S) {e : SessionEvent}
    (h : S.step u.server e = .ok S') {x : Desc} (hx : x.isData = false) (fd : Fd) :
    S'.world.os.desc fd = some x ↔
      (S.world.os.desc fd = some x ∧
        ∀ id c, S.conns id = some c → S'.conns id = none → fd ≠ c.clientSockfd) ∨
      ∃ addr served, e = .accept fd addr served ∧ x = .control S.world.nextId := by
  have hS := sound_of_run hrun
  -- what is left to say of a step that accepts nobody and ends no session
  have hquiet : (∀ fd addr served, e ≠ .accept fd addr served) →
      (∀ id c, S.conns id = some c → S'.conns id ≠ none) →
      (S'.world.os.desc fd = some x ↔ S.world.os.desc fd = some x) →
      (S'.world.os.desc fd = some x ↔ (S.world.os.desc fd = some x ∧
        ∀ id c, S.conns id = some c → S'.conns id = none → fd ≠ c.clientSockfd) ∨
          ∃ addr served, e = .accept fd addr served ∧ x = .control S.world.nextId) := by
    intro hacc hstay hiff
    rw [hiff]
    constructor
    · intro hfd
      exact .inl ⟨hfd, fun id c hc hnone => absurd hnone (hstay id c hc)⟩
    · rintro (⟨hfd, -⟩ | ⟨addr, served, he, -⟩)
      · exact hfd
      · exact absurd he (hacc fd addr served)
  cases e with
  | accept fd' addr served =>
    obtain ⟨⟨c, w⟩, hacc, rfl⟩ := map_eq_ok h
    obtain ⟨hfree, rfl, rfl⟩ := World.accept_eq_ok hacc
    dsimp only
    have hstay : ∀ id c, S.conns id = some c → (if served = true then
        Function.update S.conns S.world.nextId (some (initConnection u.server fd' addr))
          else S.conns) id ≠ none := by
      intro id c hc
      split
      next =>
        by_cases hid : id = S.world.nextId
        · simp [hid]
        · simp [Function.update_of_ne hid, hc]
      next => simp [hc]
    by_cases he : fd = fd'
    · subst he
      rw [Function.update_self]
      constructor
      · intro hself
        exact .inr ⟨addr, served, rfl, (Option.some.inj hself).symm⟩
      · rintro (⟨hfd, -⟩ | ⟨_, _, -, rfl⟩)
        · rw [hfree] at hfd
          cases hfd
        · rfl
    · rw [Function.update_of_ne he]
      constructor
      · intro hfd
        exact .inl ⟨hfd, fun id c hc hnone => absurd hnone (hstay id c hc)⟩
      · rintro (⟨hfd, -⟩ | ⟨_, _, heq, -⟩)
        · exact hfd
        · cases heq
          exact absurd rfl he
  | line id line ans =>
    obtain ⟨c, parsed, hc, hparse, ⟨status, s, hrun', hquit, rfl⟩ | ⟨command, rfl, hword, rfl⟩⟩ :=
      handleLine_eq_ok h
    · obtain ⟨hspeaks, W, hW⟩ := speaks_of_run hrun hc
      refine hquiet (by simp) (fun id' c' hc' => ?_) ⟨fun hfd => ?_, fun hfd => ?_⟩
      · by_cases hid : id' = id
        · rw [hid, handled_stays]
          simp
        · rw [handled_of_ne hid, hc']
          simp
      · rcases (executeCommand_outcome hspeaks hW hrun').entry hspeaks fd with h | h | h
        · exact h.symm.trans hfd
        · cases h.symm.trans hfd
        · exact absurd h (not_isData_of_plain hx hfd)
      · have hown : OwnStep id (Ctx.start S.world.os c) s :=
          executeCommand_keepsToItself hrun' (hS.owns id c hc)
        have hopen : S.world.os.desc fd ≠ none := by
          rw [hfd]
          simp
        refine (hown.others fd hopen fun hmem => ?_).trans hfd
        exact not_isData_of_plain hx hfd ((hS.owns id c hc).isData hmem)
    · have htorn : c.tornDown S.world.os.desc fd = some x ↔ _ := tornDown_plain (hS.owns id c hc) hx
      constructor
      · intro hfd
        obtain ⟨hfd, hctl⟩ := htorn.mp hfd
        refine .inl ⟨hfd, fun id' c' hc' hnone => ?_⟩
        by_cases hid : id' = id
        · subst hid
          obtain rfl : c = c' := Option.some.inj (hc.symm.trans hc')
          exact hctl
        · rw [handled_of_ne hid, hc'] at hnone
          cases hnone
      · rintro (⟨hfd, hends⟩ | ⟨addr, served, he, -⟩)
        · exact htorn.mpr ⟨hfd, hends id c hc (handled_leaves ..)⟩
        · cases he
  | child k cans =>
    obtain ⟨w, hw, rfl⟩ := map_eq_ok h
    obtain ⟨id, child, s, -, -, rfl⟩ := World.runChild_eq_ok hw
    exact hquiet (by simp) (fun _ c hc => by simp [hc]) Iff.rfl
  | hangup id =>
    cases h
    exact hquiet (by simp) (fun _ c hc => by simp [hc]) Iff.rfl
  | dataConnect fd' =>
    obtain ⟨w, hw, rfl⟩ := map_eq_ok h
    obtain ⟨pending, hfd', rfl⟩ := World.dataConnect_eq_ok hw
    refine hquiet (by simp) (fun _ c hc => by simp [hc]) ?_
    dsimp only
    by_cases he : fd = fd'
    · subst he
      refine iff_of_false (fun hfd => ?_) fun hfd => ?_
      · exact not_isData_of_plain hx hfd ⟨_, Function.update_self .., rfl⟩
      · exact not_isData_of_plain hx hfd ⟨_, hfd', rfl⟩
    · rw [Function.update_of_ne he]

/-- A client stays on its control descriptor. -/
theorem control_step {c' : Connection} (hrun : (sessions u).run events = .ok S) {e : SessionEvent}
    (h : S.step u.server e = .ok S') (hc : S.conns id = some c) (hc' : S'.conns id = some c') :
    c'.clientSockfd = c.clientSockfd := by
  rcases record_cases h hc' with ⟨hsame, -⟩ | ⟨rfl, -⟩ |
    ⟨line, ans, c₀, parsed, status, s, -, hc₀, -, hx, rfl, -⟩
  · obtain rfl : c = c' := Option.some.inj (hc.symm.trans hsame)
    rfl
  · rw [(fresh_of_run hrun _ (Nat.le_refl _)).1] at hc
    cases hc
  · obtain rfl : c = c₀ := Option.some.inj (hc.symm.trans hc₀)
    obtain ⟨hspeaks, W, hW⟩ := speaks_of_run hrun hc
    exact (executeCommand_outcome hspeaks hW hx).control hspeaks

/-- Who the descriptors are for that are no data descriptors. -/
structure Controls (u : Setup) (events : List SessionEvent) (S : Sessions) : Prop where
  server : ∀ fd, S.world.os.desc fd = some .server → fd = u.server.sockfd
  control : ∀ fd id, S.world.os.desc fd = some (.control id) →
    (∃ c, S.conns id = some c ∧ fd = c.clientSockfd) ∨
      ∃ S₁ addr S₂, (sessions u).Took events S₁ (.accept fd addr false) S₂
  refused : ∀ S₁ fd addr S₂, (sessions u).Took events S₁ (.accept fd addr false) S₂ →
    S.world.os.desc fd = some (.control S₁.world.nextId) ∧ S.conns S₁.world.nextId = none ∧
      S₁.world.nextId < S.world.nextId

theorem Controls.step (hrun : (sessions u).run events = .ok S) (hI : Controls u events S)
    {e : SessionEvent} (h : S.step u.server e = .ok S') : Controls u (events ++ [e]) S' := by
  refine ⟨fun fd hfd => ?_, fun fd id hfd => ?_, fun S₁ fd addr S₂ htook => ?_⟩
  · rcases (plain_step hrun h rfl fd).mp hfd with ⟨hfd, -⟩ | ⟨_, _, -, hx⟩
    · exact hI.server fd hfd
    · cases hx
  · rcases (plain_step hrun h rfl fd).mp hfd with ⟨hold, hends⟩ | ⟨addr, served, rfl, hx⟩
    · rcases hI.control fd id hold with ⟨c, hc, rfl⟩ | ⟨S₁, addr, S₂, htook⟩
      · cases hc' : S'.conns id with
        | none => exact absurd rfl (hends id c hc hc')
        | some c' => exact .inl ⟨c', rfl, (control_step hrun h hc hc').symm⟩
      · exact .inr ⟨S₁, addr, S₂, htook.append [e]⟩
    · cases hx
      cases served with
      | false => exact .inr ⟨S, addr, S', events, [], rfl, hrun, h⟩
      | true =>
        obtain ⟨⟨c, w⟩, hacc, rfl⟩ := map_eq_ok h
        obtain ⟨-, rfl, rfl⟩ := World.accept_eq_ok hacc
        exact .inl ⟨_, Function.update_self .., rfl⟩
  · have hmono := nextId_step h
    rcases htook.of_concat with hbefore | ⟨rfl, hrun₁, -⟩
    · obtain ⟨hfd, hnone, hlt⟩ := hI.refused S₁ fd addr S₂ hbefore
      refine ⟨(plain_step hrun h rfl fd).mpr (.inl ⟨hfd, fun id c hc _ => ?_⟩), ?_,
        Nat.lt_of_lt_of_le hlt hmono.1⟩
      · -- the client that was turned away has no record
        rintro rfl
        have hctl := ((sound_of_run hrun).owns id c hc).control
        rw [hfd] at hctl
        cases hctl
        rw [hnone] at hc
        cases hc
      · by_contra hsome
        obtain ⟨c, hc⟩ := Option.ne_none_iff_exists'.mp hsome
        rcases record_cases h hc with ⟨hc', -⟩ | ⟨hid, -⟩ | ⟨_, _, c₀, _, _, _, -, hc₀, -⟩
        · rw [hnone] at hc'
          cases hc'
        · exact Nat.lt_irrefl _ (hid ▸ hlt)
        · rw [hnone] at hc₀
          cases hc₀
    · obtain rfl : S = S₁ := Except.ok.inj (hrun.symm.trans hrun₁)
      refine ⟨(plain_step hrun h rfl fd).mpr (.inr ⟨addr, false, rfl, rfl⟩), ?_, ?_⟩
      · obtain ⟨⟨c, w⟩, hacc, rfl⟩ := map_eq_ok h
        exact (fresh_of_run hrun _ (Nat.le_refl _)).1
      · rw [hmono.2 fd addr false rfl]
        exact Nat.lt_succ_self _

/-- When the main loop starts, clients can connect, and that is all. -/
theorem init_desc {fd : Fd} {x : Desc} (h : (sessions u).init.world.os.desc fd = some x) :
    fd = u.server.sockfd ∧ x = .server := by
  have hx : Function.update (fun _ => none) u.server.sockfd (some Desc.server) fd = some x := h
  by_cases he : fd = u.server.sockfd
  · rw [he, Function.update_self] at hx
    exact ⟨he, (Option.some.inj hx).symm⟩
  · rw [Function.update_of_ne he] at hx
    cases hx

theorem controls_of_run (h : (sessions u).run events = .ok S) : Controls u events S := by
  refine Machine.run_induction (m := sessions u) (I := Controls u) ?_
    (fun _ _ _ _ hrun hI hstep => hI.step hrun hstep) events S h
  refine ⟨fun fd hfd => ?_, fun fd id hfd => ?_, ?_⟩
  · exact (init_desc hfd).1
  · cases (init_desc hfd).2
  · rintro S₁ fd addr S₂ ⟨l₁, l₂, hl, -⟩
    simp at hl

/-- Every open descriptor is accounted for exactly when no data descriptor is forgotten. -/
theorem accounted_iff_forgotten (h : (sessions u).run events = .ok S) :
    (∀ fd, S.world.os.desc fd ≠ none ↔ Accounted u events S fd) ↔ ∀ fd, ¬ S.Forgotten fd := by
  have hS := sound_of_run h
  have hC := controls_of_run h
  constructor
  · rintro hall fd ⟨⟨x, hx, hxd⟩, hnot⟩
    rcases (hall fd).mp (by rw [hx]; simp) with rfl | ⟨id, c, hc, rfl | hmem⟩ | ⟨S₁, addr,
      S₂, htook⟩
    · rw [hS.server] at hx
      cases hx
      cases hxd
    · rw [(hS.owns id c hc).control] at hx
      cases hx
      cases hxd
    · exact hnot id c hc hmem
    · rw [(hC.refused S₁ fd addr S₂ htook).1] at hx
      cases hx
      cases hxd
  · intro hnone fd
    constructor
    · intro hopen
      obtain ⟨x, hx⟩ := Option.ne_none_iff_exists'.mp hopen
      cases hxd : x.isData with
      | true =>
        by_contra hlost
        refine hnone fd ⟨⟨x, hx, hxd⟩, fun id c hc hmem => hlost ?_⟩
        exact .inr (.inl ⟨id, c, hc, .inr hmem⟩)
      | false =>
        cases x with
        | server => exact .inl (hC.server fd hx)
        | control id =>
          rcases hC.control fd id hx with ⟨c, hc, he⟩ | hrefused
          · exact .inr (.inl ⟨id, c, hc, .inl he⟩)
          · exact .inr (.inr hrefused)
        | listener n => cases hxd
        | socket => cases hxd
    · rintro (rfl | ⟨id, c, hc, hfd⟩ | ⟨S₁, addr, S₂, htook⟩)
      · rw [hS.server]
        simp
      · exact (hS.owns id c hc).isOpen hfd
      · rw [(hC.refused S₁ fd addr S₂ htook).1]
        simp

/-- What is forgotten in a run is what its lines forget. -/
theorem forgotten_iff_of_run (h : (sessions u).run events = .ok S) :
    (∀ fd, ¬ S.Forgotten fd) ↔ (sessions u).Meets (ClosesData u.server) events := by
  refine Machine.iff_meets_of_run (m := sessions u) (G := fun S => ∀ fd, ¬ S.Forgotten fd) ?_
    (fun l s e s' hl hs => forgotten_step hl hs) events S h
  rintro fd ⟨⟨x, hx, hxd⟩, -⟩
  obtain ⟨-, rfl⟩ := init_desc hx
  cases hxd

end

/-- **When the server forgets no descriptor.** After a run of any events, the open
descriptors are the socket clients connect to, the control connections that were
accepted and the descriptors in records, exactly when every line of the run closes what
it gives up. -/
theorem accounted_iff_of_run (u : Setup) (events : List SessionEvent) (S : Sessions)
    (hrun : (sessions u).run events = .ok S) :
    (∀ fd, S.world.os.desc fd ≠ none ↔ Accounted u events S fd) ↔
      (sessions u).Meets (ClosesData u.server) events :=
  (accounted_iff_forgotten hrun).trans (forgotten_iff_of_run hrun)

/-- A client that sent `PASV` and leaves: its data socket listens on. -/
theorem listener_after_quit :
    ∃ S, (sessions smallSetup).run (oneClient ["USER anonymous", "PASS", "PASV", "QUIT"]) = .ok S ∧
      S.world.os.desc 7 = some (.listener 0) ∧
        ¬ ∀ fd, S.world.os.desc fd ≠ none ↔
          Accounted smallSetup (oneClient ["USER anonymous", "PASS", "PASV", "QUIT"]) S fd := by
  have hlost : ∀ S, (sessions smallSetup).run
      (oneClient ["USER anonymous", "PASS", "PASV", "QUIT"]) = .ok S →
        ¬ ∀ fd, S.world.os.desc fd ≠ none ↔
          Accounted smallSetup (oneClient ["USER anonymous", "PASS", "PASV", "QUIT"]) S fd := by
    intro S hrun hall
    have hmeets := (forgotten_iff_of_run hrun).mp ((accounted_iff_forgotten hrun).mp hall)
    exact absurd hmeets (by decide +kernel)
  exact ⟨_, rfl, rfl, hlost _ rfl⟩

/-- A listing over a data socket that was set up by `PORT` forgets nothing. -/
theorem accounted_after_port :
    ∃ S, (sessions smallSetup).run
        (oneClient ["USER anonymous", "PASS", "PORT 127,0,0,1,4,7", "LIST", "QUIT"]) = .ok S ∧
      ((∀ fd, S.world.os.desc fd ≠ none ↔ Accounted smallSetup
          (oneClient ["USER anonymous", "PASS", "PORT 127,0,0,1,4,7", "LIST", "QUIT"]) S fd) ↔
        (sessions smallSetup).Meets (ClosesData smallSetup.server)
          (oneClient ["USER anonymous", "PASS", "PORT 127,0,0,1,4,7", "LIST", "QUIT"])) :=
  ⟨_, rfl, accounted_iff_of_run smallSetup
    (oneClient ["USER anonymous", "PASS", "PORT 127,0,0,1,4,7", "LIST", "QUIT"]) _ rfl⟩

example : (sessions smallSetup).Meets (ClosesData smallSetup.server)
    (oneClient ["USER anonymous", "PASS", "PORT 127,0,0,1,4,7", "LIST", "QUIT"]) := by
  decide +kernel

end MyFtp.Server
