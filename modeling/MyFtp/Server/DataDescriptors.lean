import MyFtp.Server.Outcome

/-!
# What a line leaves of the data descriptors

A data socket has a descriptor it listens on, or one it connects with. A line can
take new ones, put them into the record, and close some of those it finds there;
`destroy_data_socket` closes the second kind only.

> `Outcome.closes_iff`: after a line of the client all that is left of its data
> descriptors is in its record exactly when the line closes what it gives up.

> `tornDown_leaves_iff`: the same for `QUIT`.
-/

namespace MyFtp.Server

open MyFtp.Posix
open Prog

/-- The descriptor is open for a data socket or a data connection. -/
def IsData (desc : DescTable) (fd : Fd) : Prop := ∃ x, desc fd = some x ∧ x.isData = true

/-- The command sets up a data socket: it is `PASV`, or `PORT` with an argument that can
be read. -/
def Command.setsUp (command : Command) : Bool :=
  command.word == lit "PASV" || (command.word == lit "PORT" && command.argc == 1 &&
    (command.argv.head?.bind parseHostPortValues).isSome)

/-- The command forgets no descriptor: what is stored is not replaced, a new socket can be
bound and listens, and what is given up is not passive. -/
def Command.ClosesData (server : ServerT) (ans : Answers) (s : Ctx) (command : Command) : Prop :=
  (s.conn.loggedIn = true → command.setsUp = true → s.conn.dataSocket = none ∧
    (command.word = lit "PASV" → ans.socket ≠ none → ans.bind = true ∧ ans.listen = true)) ∧
  (command.word = lit "QUIT" ∨ transferOf server s command ≠ none →
    ∀ d ∈ s.conn.dataSocket, d.dataSocketMode = .active)

instance (server : ServerT) (ans : Answers) (s : Ctx) (command : Command) :
    Decidable (command.ClosesData server ans s) :=
  inferInstanceAs (Decidable (_ ∧ _))

/-! ## Data sockets in records -/

/-- A data socket nobody has used: a passive one listens and has no connection, an
active one has a socket to connect. -/
def DataSocket.Unused (d : DataSocket) : Prop :=
  match d.dataSocketMode with
  | .passive => (∃ l, d.dataSockfd = some l) ∧ d.clientSockfd = none
  | .active => d.dataSockfd = none ∧ ∃ fd, d.clientSockfd = some fd

section

variable {server : ServerT} {ans : Answers} {command : Command} {id : ConnId} {s s' : Ctx}
  {status : CommandStatus} {parsed : Option Command} {fd : Fd} {d : DataSocket} {x : Desc}
  {r : Reply}

theorem offer_eq_none_iff : offer ans command fd = none ↔ command.setsUp = false := by
  unfold offer Command.setsUp
  by_cases hpasv : command.word = lit "PASV"
  · rw [if_pos hpasv, hpasv]
    simp
  rw [if_neg hpasv]
  by_cases hport : command.word = lit "PORT" ∧ command.argc = 1
  · rw [if_pos hport]
    simp [hport.1, hport.2, show lit "PORT" ≠ lit "PASV" by decide]
  · rw [if_neg hport]
    have hnot : ¬ (command.word = lit "PORT" ∧ command.argc = 1) := hport
    simp only [true_iff, Bool.or_eq_false_iff, beq_eq_false_iff_ne, Bool.and_eq_false_imp]
    refine ⟨hpasv, fun h => ?_⟩
    simp only [Bool.and_eq_true, beq_iff_eq] at h
    exact absurd h hnot

/-- What is offered is unused, and has the one descriptor it was made of. -/
theorem offer_unused (h : offer ans command fd = some (d, x, r)) :
    d.Unused ∧ x.isData = true ∧ ∀ c : Connection, c.dataSocket = some d →
      ∀ fd', fd' ∈ c.dataFds ↔ fd' = fd := by
  have hfds : ∀ d' : DataSocket, (d'.dataSockfd = some fd ∧ d'.clientSockfd = none ∨
      d'.dataSockfd = none ∧ d'.clientSockfd = some fd) → ∀ c : Connection,
        c.dataSocket = some d' → ∀ fd', fd' ∈ c.dataFds ↔ fd' = fd := by
    intro d' hd' c hc fd'
    unfold Connection.dataFds
    rw [hc]
    dsimp only
    rcases hd' with ⟨hl, hcl⟩ | ⟨hl, hcl⟩
    · rw [hl, hcl]
      simp
    · rw [hl, hcl]
      simp
  unfold offer at h
  split at h
  next =>
    cases h
    exact ⟨⟨⟨fd, rfl⟩, rfl⟩, rfl, hfds _ (.inl ⟨rfl, rfl⟩)⟩
  next =>
    split at h
    next =>
      obtain ⟨hostPort, -, h⟩ := Option.map_eq_some_iff.mp h
      cases h
      exact ⟨⟨rfl, fd, rfl⟩, rfl, hfds _ (.inr ⟨rfl, rfl⟩)⟩
    next => cases h

/-- An unused data socket has a descriptor; an active one has no other than the one that
is closed with it. -/
theorem DataSocket.Unused.fds {c : Connection} (h : d.Unused) (hd : c.dataSocket = some d) :
    (∃ fd, fd ∈ c.dataFds) ∧
      (d.dataSocketMode = .active → ∀ fd ∈ c.dataFds, d.clientSockfd = some fd) ∧
      (d.dataSocketMode = .passive → d.clientSockfd = none ∧ ∃ l, d.dataSockfd = some l) := by
  unfold DataSocket.Unused at h
  cases hmode : d.dataSocketMode with
  | passive =>
    rw [hmode] at h
    obtain ⟨⟨l, hl⟩, hnone⟩ := h
    exact ⟨⟨l, mem_dataFds.mpr ⟨d, hd, .inl hl⟩⟩, fun h => (by cases h), fun _ => ⟨hnone, l, hl⟩⟩
  | active =>
    rw [hmode] at h
    obtain ⟨hnone, fd, hfd⟩ := h
    refine ⟨⟨fd, mem_dataFds.mpr ⟨d, hd, .inr hfd⟩⟩, fun _ fd' hfd' => ?_, fun h => (by cases h)⟩
    obtain ⟨d', hd', hl | hc⟩ := mem_dataFds.mp hfd'
    · obtain rfl : d = d' := Option.some.inj (hd.symm.trans hd')
      rw [hnone] at hl
      cases hl
    · obtain rfl : d = d' := Option.some.inj (hd.symm.trans hd')
      exact hc

/-! ## A line -/

/-- The entries a line changes are closed, or belong to data sockets. -/
theorem Outcome.entry (h : Outcome server ans id parsed status s s') (hs : Speaks id s) (fd : Fd) :
    s'.os.desc fd = s.os.desc fd ∨ s'.os.desc fd = none ∨ IsData s'.os.desc fd := by
  have hupdate : ∀ (desc : DescTable) (fd' : Fd) (y : Option Desc),
      (y = none ∨ ∃ x, y = some x ∧ x.isData = true) →
      (desc fd = s.os.desc fd ∨ desc fd = none ∨ IsData desc fd) →
        Function.update desc fd' y fd = s.os.desc fd ∨ Function.update desc fd' y fd = none ∨
          IsData (Function.update desc fd' y) fd := by
    intro desc fd' y hy hdesc
    unfold IsData at hdesc ⊢
    by_cases he : fd = fd'
    · rw [he, Function.update_self]
      exact .inr hy
    · rw [Function.update_of_ne he]
      exact hdesc
  have hdata : ∀ y : Desc, y.isData = true → (some y = none ∨ ∃ x, some y = some x ∧ x.isData = true) :=
    fun y hy => .inr ⟨y, rfl, hy⟩
  cases h with
  | answered l hstatus hfinal htold => exact .inl (congrFun htold.desc fd)
  | quit command hparsed hword hstatus hs' => exact .inl (by rw [hs'])
  | declined command r hparsed hword hstatus hr htold => exact .inl (congrFun htold.desc fd)
  | setUp command hparsed hword hstatus hlog hoffer hup hset =>
    cases hset with
    | offered fd' d x r hsocket hfree hof =>
      exact hupdate _ fd' _ (hdata x (offer_unused hof).2.1) (.inl rfl)
    | noSocket => exact .inl rfl
    | deaf fd' => exact hupdate _ fd' _ (hdata .socket rfl) (.inl rfl)
  | transfer command body cwd hparsed hbody hrun =>
    obtain ⟨-, -, d, hd⟩ := transferOf_eq_some hbody
    obtain ⟨hstatus, connected, d₁, desc₁, hreach, -, rfl⟩ :=
      transfer_outcome (hs.inDir cwd) hd hrun
    have hdesc₁ : desc₁ fd = s.os.desc fd ∨ desc₁ fd = none ∨ IsData desc₁ fd := by
      cases hreach with
      | active => exact .inl rfl
      | refused => exact .inl rfl
      | accepted l newFd pending =>
        exact hupdate _ newFd _ (hdata .socket rfl)
          (hupdate _ l _ (hdata (.listener pending) rfl) (.inl rfl))
    show d₁.destroyed desc₁ fd = _ ∨ d₁.destroyed desc₁ fd = _ ∨ IsData (d₁.destroyed desc₁) fd
    cases hcl : d₁.clientSockfd with
    | none =>
      rw [d₁.destroyed_of_none hcl]
      exact hdesc₁
    | some fd' =>
      rw [d₁.destroyed_of_some hcl]
      exact hupdate _ fd' _ (.inl rfl) hdesc₁

/-- The client stays on its control descriptor. -/
theorem Outcome.control (h : Outcome server ans id parsed status s s') (hs : Speaks id s) :
    s'.conn.clientSockfd = s.conn.clientSockfd := by
  cases h with
  | answered l hstatus hfinal htold => exact htold.control
  | quit command hparsed hword hstatus hs' => rw [hs']
  | declined command r hparsed hword hstatus hr htold => exact htold.control
  | setUp command hparsed hword hstatus hlog hoffer hup hset =>
    cases hset with
    | offered => rfl
    | noSocket => rfl
    | deaf => rfl
  | transfer command body cwd hparsed hbody hrun =>
    obtain ⟨-, -, d, hd⟩ := transferOf_eq_some hbody
    obtain ⟨hstatus, connected, d₁, desc₁, hreach, -, rfl⟩ :=
      transfer_outcome (hs.inDir cwd) hd hrun
    rfl

/-- What a line leaves in the record: what was there, nothing, or something new. -/
theorem Outcome.stored (h : Outcome server ans id parsed status s s') (hs : Speaks id s) :
    s'.conn.dataSocket = s.conn.dataSocket ∨ s'.conn.dataSocket = none ∨
      ∃ d, s'.conn.dataSocket = some d ∧ d.Unused := by
  cases h with
  | answered l hstatus hfinal htold => exact .inl htold.dataSocket
  | quit command hparsed hword hstatus hs' => exact .inl (by rw [hs'])
  | declined command r hparsed hword hstatus hr htold => exact .inl htold.dataSocket
  | setUp command hparsed hword hstatus hlog hoffer hup hset =>
    cases hset with
    | offered fd d x r hsocket hfree hof => exact .inr (.inr ⟨d, rfl, (offer_unused hof).1⟩)
    | noSocket => exact .inr (.inl rfl)
    | deaf => exact .inr (.inl rfl)
  | transfer command body cwd hparsed hbody hrun =>
    obtain ⟨-, -, d, hd⟩ := transferOf_eq_some hbody
    obtain ⟨hstatus, connected, d₁, desc₁, hreach, -, rfl⟩ :=
      transfer_outcome (hs.inDir cwd) hd hrun
    exact .inr (.inl rfl)

/-- A word of a command that sets nothing up. -/
theorem setsUp_of_word (h : command.word ≠ lit "PASV" ∧ command.word ≠ lit "PORT") :
    command.setsUp = false := by
  unfold Command.setsUp
  simp [h.1, h.2]

/-- After a line of the client, all that is left of its data descriptors is stored. -/
def LeavesStored (s s' : Ctx) : Prop :=
  ∀ fd, (fd ∈ s.conn.dataFds ∨ s.os.desc fd = none) → IsData s'.os.desc fd → fd ∈ s'.conn.dataFds

theorem not_isData_of_free {desc : DescTable} (h : desc fd = none) : ¬ IsData desc fd := by
  rintro ⟨x, hx, -⟩
  rw [h] at hx
  cases hx

theorem Owns.isData {desc : DescTable} {c : Connection} (h : Owns desc id c)
    (hfd : fd ∈ c.dataFds) :
    IsData desc fd := by
  rcases h.dataFds hfd with hx | ⟨n, hx⟩
  · exact ⟨_, hx, rfl⟩
  · exact ⟨_, hx, rfl⟩

/-- A record without descriptors has no data socket. -/
theorem dataSocket_eq_none_iff_dataFds {c : Connection}
    (hunused : ∀ d, c.dataSocket = some d → d.Unused) :
    c.dataSocket = none ↔ ∀ fd, fd ∉ c.dataFds := by
  constructor
  · intro hnone fd hfd
    obtain ⟨d, hd, -⟩ := mem_dataFds.mp hfd
    rw [hnone] at hd
    cases hd
  · intro hempty
    by_contra hne
    obtain ⟨d, hd⟩ := Option.ne_none_iff_exists'.mp hne
    obtain ⟨⟨fd, hfd⟩, -⟩ := (hunused d hd).fds hd
    exact hempty fd hfd

/-- Nothing happens to the descriptors and the data socket. -/
theorem leavesStored_of_same (hdesc : s'.os.desc = s.os.desc)
    (hdata : s'.conn.dataSocket = s.conn.dataSocket) : LeavesStored s s' := by
  intro fd hfd hisData
  rw [hdesc] at hisData
  rcases hfd with hfd | hfree
  · rw [mem_dataFds] at hfd ⊢
    rwa [hdata]
  · exact absurd hisData (not_isData_of_free hfree)

/-- Setting up leaves nothing behind exactly when nothing was stored, and the new socket
can be used. -/
theorem SetsUp.leavesStored_iff (h : SetsUp ans id command s s') (hs : Speaks id s)
    (hunused : ∀ d, s.conn.dataSocket = some d → d.Unused) :
    LeavesStored s s' ↔ s.conn.dataSocket = none ∧
      (command.word = lit "PASV" → ans.socket ≠ none → ans.bind = true ∧ ans.listen = true) := by
  rw [dataSocket_eq_none_iff_dataFds hunused]
  cases h with
  | offered fd d x r hsocket hfree hof hlisten =>
    obtain ⟨-, hx, hfds⟩ := offer_unused hof
    have hnew : ∀ fd', fd' ∈ Connection.dataFds { s.conn with dataSocket := some d } ↔ fd' = fd :=
      hfds _ rfl
    constructor
    · intro hleaves
      refine ⟨fun fd' hfd' => ?_, fun hw _ => hlisten hw⟩
      -- the old descriptor is open, so it is not the new one
      have hne : fd' ≠ fd := by
        rintro rfl
        exact not_isData_of_free hfree (hs.owns.isData hfd')
      refine hne ((hnew fd').mp (hleaves fd' (.inl hfd') ?_))
      obtain ⟨y, hy, hyd⟩ := hs.owns.isData hfd'
      exact ⟨y, (Function.update_of_ne hne _ _).trans hy, hyd⟩
    · rintro ⟨hempty, -⟩ fd' (hfd' | hfree') hisData
      · exact absurd hfd' (hempty fd')
      · refine (hnew fd').mpr ?_
        by_contra hne
        obtain ⟨y, hy, -⟩ := hisData
        have hy' : s.os.desc fd' = some y := (Function.update_of_ne hne _ _).symm.trans hy
        rw [hfree'] at hy'
        cases hy'
  | noSocket hsocket =>
    constructor
    · intro hleaves
      refine ⟨fun fd hfd => ?_, fun _ hne => absurd hsocket hne⟩
      have hmem := hleaves fd (.inl hfd) (hs.owns.isData hfd)
      obtain ⟨d, hd, -⟩ := mem_dataFds.mp hmem
      cases hd
    · rintro ⟨hempty, -⟩ fd (hfd | hfree) hisData
      · exact absurd hfd (hempty fd)
      · exact absurd hisData (not_isData_of_free hfree)
  | deaf fd hsocket hfree hpasv hdeaf =>
    refine iff_of_false (fun hleaves => ?_) fun hc => ?_
    · have hmem := hleaves fd (.inr hfree) ⟨.socket, Function.update_self .., rfl⟩
      obtain ⟨d, hd, -⟩ := mem_dataFds.mp hmem
      cases hd
    · obtain ⟨hbind, hlisten⟩ := hc.2 hpasv (by rw [hsocket]; simp)
      rcases hdeaf with h | h
      · rw [hbind] at h
        cases h
      · rw [hlisten] at h
        cases h

/-- A transfer leaves nothing behind exactly when its data socket is active. -/
theorem transferred_leavesStored_iff {body : TransferBody} {connected : Bool} {d₁ : DataSocket}
    {desc₁ : DescTable} (hs : Speaks id s) (hd : s.conn.dataSocket = some d) (hunused : d.Unused)
    (hreach : Reached ans s.os.desc d connected d₁ desc₁) :
    LeavesStored s (s.transferred id ans body command connected d₁ desc₁) ↔
      d.dataSocketMode = .active := by
  obtain ⟨-, hactive, hpassive⟩ := hunused.fds hd
  have hnotStored : ∀ fd, fd ∉ Connection.dataFds { s.conn with dataSocket := none } := by
    intro fd hfd
    obtain ⟨d', hd', -⟩ := mem_dataFds.mp hfd
    cases hd'
  have hkeeps : ∀ {l : Fd}, d.dataSockfd = some l → IsData (d₁.destroyed desc₁) l →
      ¬ LeavesStored s (s.transferred id ans body command connected d₁ desc₁) := by
    intro l hl hisData hleaves
    exact hnotStored l (hleaves l (.inl (mem_dataFds.mpr ⟨d, hd, .inl hl⟩)) hisData)
  cases hreach with
  | active hmode =>
    refine iff_of_true (fun fd hfd hisData => ?_) hmode
    obtain ⟨y, hy, hyd⟩ := hisData
    rcases hfd with hfd | hfree
    · have hcl := hactive hmode fd hfd
      have hclosed : d.destroyed s.os.desc fd = none := by
        rw [d.destroyed_of_some hcl]
        exact Function.update_self ..
      cases hclosed.symm.trans hy
    · have hfree' : d.destroyed s.os.desc fd = none := by
        cases hcl : d.clientSockfd with
        | none => rw [d.destroyed_of_none hcl, hfree]
        | some fd' =>
          rw [d.destroyed_of_some hcl]
          by_cases he : fd = fd'
          · rw [he, Function.update_self]
          · rw [Function.update_of_ne he, hfree]
      cases hfree'.symm.trans hy
  | refused hmode =>
    obtain ⟨-, l, hl⟩ := hpassive hmode
    refine iff_of_false (hkeeps hl ?_) (by simp [hmode])
    rw [DataSocket.destroyed_of_none rfl]
    obtain ⟨n, hn⟩ := hs.owns.listens d l hd hl
    exact ⟨_, hn, rfl⟩
  | accepted l newFd pending peer hmode hl hpending hfree =>
    have hne : l ≠ newFd := by
      rintro rfl
      rw [hfree] at hpending
      cases hpending
    refine iff_of_false (hkeeps hl ?_) (by simp [hmode])
    refine ⟨.listener pending, ?_, rfl⟩
    rw [DataSocket.destroyed_of_some rfl, Function.update_of_ne hne, Function.update_of_ne hne,
      Function.update_self]

/-- Nothing is left of a line's own descriptors but what is stored exactly when the line
meets the condition. -/
theorem Outcome.closes_iff (h : Outcome server ans id parsed status s s') (hs : Speaks id s)
    (hunused : ∀ d, s.conn.dataSocket = some d → d.Unused)
    (hquit : ∀ command, parsed = some command → command.word ≠ lit "QUIT") :
    LeavesStored s s' ↔
      ∀ command, parsed = some command → command.ClosesData server ans s := by
  -- `PASV` and `PORT` give nothing up
  have hnotGiven : ∀ {command : Command}, parsed = some command →
      (command.word = lit "PASV" ∨ command.word = lit "PORT") →
        ¬ (command.word = lit "QUIT" ∨ transferOf server s command ≠ none) := by
    rintro command hparsed hword (hq | hne)
    · exact hquit command hparsed hq
    · refine hne (transferOf_of_word ?_)
      rcases hword with hw | hw
      · rw [hw]
        decide
      · rw [hw]
        decide
  cases h with
  | answered l hstatus hfinal htold hword =>
    refine iff_of_true (leavesStored_of_same htold.desc htold.dataSocket) fun command hcommand => ?_
    obtain ⟨hpasv, hport, hof⟩ := hword command hcommand
    refine ⟨fun _ hup => ?_, fun hgive => ?_⟩
    · rw [setsUp_of_word ⟨hpasv, hport⟩] at hup
      cases hup
    · rcases hgive with hq | hne
      · exact absurd hq (hquit command hcommand)
      · exact absurd hof hne
  | quit command hparsed hword => exact absurd hword (hquit command hparsed)
  | declined command r hparsed hword hstatus hr htold hoffer =>
    refine iff_of_true
      (leavesStored_of_same htold.desc htold.dataSocket) fun command' hcommand => ?_
    obtain rfl : command = command' := Option.some.inj (hparsed.symm.trans hcommand)
    refine ⟨fun hlog hup => ?_, fun hgive => ?_⟩
    · rw [offer_eq_none_iff.mp (hoffer hlog 0)] at hup
      cases hup
    · exact absurd hgive (hnotGiven hparsed hword)
  | setUp command hparsed hword hstatus hlog hoffer hup hset =>
    have hsets : command.setsUp = true := by
      cases hb : command.setsUp with
      | true => rfl
      | false => exact absurd (offer_eq_none_iff.mpr hb) (hoffer 0)
    rw [hset.leavesStored_iff hs hunused]
    constructor
    · intro hc command' hcommand
      obtain rfl : command = command' := Option.some.inj (hparsed.symm.trans hcommand)
      exact ⟨fun _ _ => hc, fun hgive => absurd hgive (hnotGiven hparsed hword)⟩
    · intro hc
      exact (hc command hparsed).1 hlog hsets
  | transfer command body cwd hparsed hbody hrun =>
    obtain ⟨hword, -, d, hd⟩ := transferOf_eq_some hbody
    obtain ⟨-, connected, d₁, desc₁, hreach, -, rfl⟩ := transfer_outcome (hs.inDir cwd) hd hrun
    have hiff : LeavesStored (s.inDir cwd)
        ((s.inDir cwd).transferred id ans body command connected d₁ desc₁) ↔
          d.dataSocketMode = .active :=
      transferred_leavesStored_iff (hs.inDir cwd) hd (hunused d hd) hreach
    refine Iff.trans hiff ?_
    constructor
    · intro hmode command' hcommand
      obtain rfl : command = command' := Option.some.inj (hparsed.symm.trans hcommand)
      refine ⟨fun _ hup => ?_, fun _ d' hd' => ?_⟩
      · rw [setsUp_of_word (by rw [hword]; cases body <;> decide)] at hup
        cases hup
      · obtain rfl : d = d' := Option.some.inj (hd.symm.trans hd')
        exact hmode
    · intro hc
      exact (hc command hparsed).2 (.inr (by rw [hbody]; simp)) d hd

/-- `QUIT` closes the descriptors of an active data socket only. -/
theorem tornDown_leaves_iff {desc : DescTable} {c : Connection} (hown : Owns desc id c)
    (hunused : ∀ d, c.dataSocket = some d → d.Unused) :
    (∀ fd, (fd ∈ c.dataFds ∨ desc fd = none) → ¬ IsData (c.tornDown desc) fd) ↔
      ∀ d ∈ c.dataSocket, d.dataSocketMode = .active := by
  have hctl : ∀ {fd}, fd ∈ c.dataFds → fd ≠ c.clientSockfd := by
    rintro fd hfd rfl
    obtain ⟨x, hx, hxd⟩ := hown.isData hfd
    rw [hown.control] at hx
    cases hx
    cases hxd
  constructor
  · intro hleaves d hd
    cases hmode : d.dataSocketMode with
    | active => rfl
    | passive =>
      obtain ⟨-, -, hpassive⟩ := (hunused d hd).fds hd
      obtain ⟨hnone, l, hl⟩ := hpassive hmode
      have hmem : l ∈ c.dataFds := mem_dataFds.mpr ⟨d, hd, .inl hl⟩
      refine absurd ?_ (hleaves l (.inl hmem))
      obtain ⟨x, hx, hxd⟩ := hown.isData hmem
      refine ⟨x, ?_, hxd⟩
      unfold Connection.tornDown
      rw [Function.update_of_ne (hctl hmem), hd, Option.bind_some, hnone]
      exact hx
  · rintro hactive fd (hfd | hfree) ⟨x, hx, hxd⟩
    · obtain ⟨d, hd, -⟩ := mem_dataFds.mp hfd
      obtain ⟨-, hclient, -⟩ := (hunused d hd).fds hd
      have hcl := hclient (hactive d hd) fd hfd
      unfold Connection.tornDown at hx
      rw [Function.update_of_ne (hctl hfd), hd, Option.bind_some, hcl] at hx
      dsimp only at hx
      rw [Function.update_self] at hx
      cases hx
    · have hfree' : c.tornDown desc fd = none := by
        rw [tornDown_of_ne, hfree]
        · rintro rfl
          rw [hown.control] at hfree
          cases hfree
        · intro hfd
          exact not_isData_of_free hfree (hown.isData hfd)
      cases hfree'.symm.trans hx

end

end MyFtp.Server
