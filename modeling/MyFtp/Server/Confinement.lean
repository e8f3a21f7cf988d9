import MyFtp.Server.Home

/-!
# What keeps clients below the root

`CWD`, `CDUP` and `LIST` go to a directory first and look at where they are
afterwards, by comparing the beginning of the path's string with the root's
path. That comparison takes `/srv/ftp2` for a directory of `/srv/ftp`
(`Lookalike`), and the way back to the root is a `chdir` whose failure goes
unnoticed. Nothing else lets a client out:

> `below_root_of_run`: in a run in which no such directory is gone to, the root
> can be entered when it is needed, and a child that lists finds its
> connection's directory still there, every record's directory and every listed
> directory is the root or lies below it.
-/

namespace MyFtp.Server

open MyFtp.Posix
open Prog

/-! ## The condition -/

/-- A command of a client that is logged in moves the process to directories the
comparison is right about, and `CWD` and `CDUP` find the way back from outside
the root. -/
def StaysBelow (server : ServerT) (s : Ctx) (W : Path) (command : Command) : Prop :=
  (∀ path ∈ command.changesTo, s.os.tree.access s.os.cwd path = true →
    s.os.tree.opendir s.os.cwd path = true →
      ¬ Lookalike server.path (s.target W path) ∧
        (server.path <+: s.target W path ∨
          (s.os.tree.chdir (s.target W path) (pathStr server.path)).isSome = true)) ∧
  (command.word = lit "LIST" → s.conn.dataSocket ≠ none → ∀ path ∈ command.argv.head?,
    s.os.tree.access s.os.cwd path = true → ∀ d ∈ s.os.tree.chdir (s.wdFrom W) path,
      ¬ Lookalike server.path d)

instance (server : ServerT) (s : Ctx) (W : Path) (command : Command) :
    Decidable (StaysBelow server s W command) :=
  inferInstanceAs (Decidable (_ ∧ _))

/-- A child that lists can still enter its connection's directory, or the
look-up from where it stands ends below the root. -/
def ListsBelow (server : ServerT) (t : FileTree) (child : Child) : Prop :=
  child.body = .executeLsCommand → ∀ W ∈ child.connection.workingDirectory,
    t.Enterable W ∨ ∀ d ∈ t.chdir child.cwd child.command.listed, server.path <+: d

instance (server : ServerT) (t : FileTree) (child : Child) :
    Decidable (ListsBelow server t child) :=
  inferInstanceAs (Decidable (_ → _))

/-- The condition on an event. -/
def KeepsBelow (server : ServerT) (S : Sessions) : SessionEvent → Prop
  | .line id line _ => ∀ c ∈ S.conns id, c.loggedIn = true → ∀ W ∈ c.workingDirectory,
      ∀ command ∈ commandOf line, StaysBelow server (Ctx.start S.world.os c) W command
  | .child k _ => ∀ child ∈ S.world.children[k]?, ListsBelow server S.world.os.tree child.2
  | _ => True

instance (server : ServerT) (S : Sessions) : ∀ e, Decidable (KeepsBelow server S e)
  | .line id .. => inferInstanceAs (Decidable (∀ c ∈ S.conns id, _))
  | .child k _ => inferInstanceAs (Decidable (∀ child ∈ S.world.children[k]?, _))
  | .accept .. | .hangup _ | .dataConnect _ => .isTrue trivial

/-! ## What a line leaves -/

/-- The record's directory is the root or lies below it, and is no symbolic
link. -/
def RecordBelow (server : ServerT) (t : FileTree) (c : Connection) : Prop :=
  ∃ W, c.workingDirectory = some W ∧ server.path <+: W ∧ t.NoLinks W

/-- From the directory `W`, as long as it can be entered, the command lists
nothing above the root. -/
def ShowsBelow (server : ServerT) (t : FileTree) (W : Path) (command : Command) : Prop :=
  t.Enterable W → ∀ d, t.chdir W command.listed = some d → server.path <+: d

/-- The same for a child and its copy of the record. -/
structure ChildBelow (server : ServerT) (t : FileTree) (child : Child) : Prop where
  record : RecordBelow server t child.connection
  shows : child.body = .executeLsCommand → ∀ W, child.connection.workingDirectory = some W →
    ShowsBelow server t W child.command

/-- The record and the children forked so far. -/
structure Below (server : ServerT) (s : Ctx) : Prop where
  record : RecordBelow server s.os.tree s.conn
  forked : ∀ child ∈ s.forked, ChildBelow server s.os.tree child
  data : s.data = []

/-- What is true of a directory while no directory is created stays true. -/
theorem RecordBelow.later {server : ServerT} {t t' : FileTree} {c : Connection}
    (h : RecordBelow server t c) (hl : FileTree.Later t t') : RecordBelow server t' c := by
  obtain ⟨W, hW, hbelow, hlinks⟩ := h
  exact ⟨W, hW, hbelow, hlinks.later hl⟩

theorem ShowsBelow.later {server : ServerT} {t t' : FileTree} {W : Path} {command : Command}
    (h : ShowsBelow server t W command) (hl : FileTree.Later t t') :
    ShowsBelow server t' W command := by
  intro henter d hd
  exact h (henter.earlier hl) d (FileTree.chdir_later hl henter.isDir hd).1

theorem ChildBelow.later {server : ServerT} {t t' : FileTree} {child : Child}
    (h : ChildBelow server t child) (hl : FileTree.Later t t') : ChildBelow server t' child :=
  ⟨h.record.later hl, fun hb W hW => (h.shows hb W hW).later hl⟩

section

variable {server : ServerT} {ans : Answers}

theorem below_reply (r : Reply) : Keeps (Preserves (Below server)) (reply r) :=
  keeps_reply (fun s => Std.Refl.refl s) (fun _ _ h => ⟨h.record, h.forked, h.data⟩) r

theorem below_setDataSocket (d : Option DataSocket) :
    Keeps (Preserves (Below server)) (setDataSocket d) :=
  fun _ h => ⟨h.record, h.forked, h.data⟩

theorem below_setDesc (fd : Fd) (d : Option Desc) :
    Keeps (Preserves (Below server)) (setDesc fd d) :=
  fun _ h => ⟨h.record, h.forked, h.data⟩

/-- A child inherits the record it is forked with. -/
theorem Below.fork {s : Ctx} {body : TransferBody} {command : Command} (h : Below server s)
    (hshows : body = .executeLsCommand → ∀ W, s.conn.workingDirectory = some W →
      ShowsBelow server s.os.tree W command) :
    Below server
      { s with forked := s.forked ++ [⟨body, command, s.conn, s.os.cwd, s.os.desc⟩] } := by
  refine ⟨h.record, fun child hchild => ?_, h.data⟩
  rcases List.mem_append.mp hchild with hold | hnew
  · exact h.forked child hold
  · rw [List.mem_singleton.mp hnew]
    exact ⟨h.record, hshows⟩

/-- Every handler but those of `CWD`, `CDUP` and `LIST` leaves the directories
alone. -/
theorem frame_below (server : ServerT) (ans : Answers) :
    Frame server ans [lit "LIST"] (Keeps (Preserves (Below server))) := by
  refine frame_of_syscalls below_reply ?_ ?_ ?_ below_setDataSocket
    (fun fd d _ => below_setDesc fd d) ?_
  · exact fun _ => keeps_chdir fun _ _ h => ⟨h.record, h.forked, h.data⟩
  · refine fun _ => keeps_remove (fun s p h => ?_) fun s => Std.Refl.refl s
    have hl := FileTree.later_drop s.os.tree p
    exact ⟨h.record.later hl, fun child hchild => (h.forked child hchild).later hl, h.data⟩
  · exact fun _ _ h => ⟨h.record, h.forked, h.data⟩
  · intro body command hbody s h
    refine h.fork fun hb => absurd ?_ hbody
    rw [hb]
    exact List.mem_singleton.mpr rfl

/-- Nothing but a reply. -/
theorem Below.out {s s' : Ctx} (h : Below server s) (hs : s' = { s with out := s'.out }) :
    Below server s' := by
  rw [hs]
  exact ⟨h.record, h.forked, h.data⟩

theorem below_checkListArgument (path : CStr) :
    Keeps (Preserves (Below server)) (checkListArgument server path) :=
  follows_keeps.checkListArgument below_reply
    (keeps_chdir fun _ _ h => ⟨h.record, h.forked, h.data⟩) path

/-- The state in which a child that lists may be forked. -/
def BelowFor (server : ServerT) (command : Command) (s : Ctx) : Prop :=
  Below server s ∧ ∀ W, s.conn.workingDirectory = some W → ShowsBelow server s.os.tree W command

theorem below_transfer (command : Command) :
    Keeps (Preserves (BelowFor server command))
      (executeDataSocketCommand ans .executeLsCommand command) := by
  refine keeps_transfer ?_ ?_ ?_ ?_
  · exact keeps_reply (fun s => Std.Refl.refl s)
      fun _ _ h => ⟨⟨h.1.record, h.1.forked, h.1.data⟩, h.2⟩
  · exact fun _ _ h => ⟨⟨h.1.record, h.1.forked, h.1.data⟩, h.2⟩
  · exact fun _ _ _ _ h => ⟨⟨h.1.record, h.1.forked, h.1.data⟩, h.2⟩
  · exact fun _ h => ⟨h.1.fork fun _ => h.2, h.2⟩

/-- `LIST`: what got past the comparison is below the root, and the child will
find the same directory as long as it starts from the same one. -/
theorem below_list {s s' : Ctx} {W : Path} {command : Command} {status : CommandStatus}
    (hs : Below server s) (hW : s.conn.workingDirectory = some W)
    (hC : s.conn.loggedIn = true → StaysBelow server s W command)
    (hword : command.word = lit "LIST")
    (h : executeCommand server ans (some command) s = (.ok status, s')) : Below server s' := by
  rw [executeCommand_of_mem (by rw [hword]; exact List.mem_of_getElem? (i := 13) rfl)] at h
  rw [listCommand, conn_bind_apply] at h
  rcases guard_eq_ok h with h | ⟨hlog, h⟩
  · exact hs.out h
  rcases guard_eq_ok h with h | ⟨hdata, h⟩
  · exact hs.out h
  have hgo : ∀ {s₁ : Ctx}, BelowFor server command s₁ →
      executeDataSocketCommand ans .executeLsCommand command s₁ = (.ok status, s') →
        Below server s' := by
    intro s₁ hb ht
    exact ((below_transfer command).after ht hb).1
  obtain ⟨W', hW', hbelow, hlinks⟩ := hs.record
  obtain rfl : W = W' := Option.some.inj (hW.symm.trans hW')
  cases harg : command.argv.head? with
  | none =>
    rw [harg] at h
    refine hgo ⟨hs, fun W₁ hW₁ _ d hd => ?_⟩ h
    obtain rfl : W = W₁ := Option.some.inj (hW.symm.trans hW₁)
    rw [Command.listed, harg, Option.getD_none] at hd
    rw [FileTree.chdir_dot hd]
    exact hbelow
  | some path =>
    rw [harg] at h
    obtain ⟨b, s₁, hcheck, h⟩ := bind_eq_ok h
    have hs₁ : Below server s₁ := (below_checkListArgument path).after hcheck hs
    cases b with
    | true =>
      rw [if_pos rfl, pure_apply] at h
      rwa [← (Prod.mk.inj h).2]
    | false =>
      rw [if_neg (by simp)] at h
      obtain ⟨hacc, d, hd, hpre, rfl⟩ := checkListArgument_eq_false hW hcheck
      have hunder : server.path <+: d :=
        (pathStr_isPrefix_iff.mp hpre).resolve_right
          ((hC (by simpa using hlog)).2 hword hdata path (by rw [harg]; rfl) hacc d hd)
      refine hgo ⟨hs₁, fun W₁ hW₁ henter d' hd' => ?_⟩ h
      obtain rfl : W = W₁ := Option.some.inj (hW.symm.trans hW₁)
      rw [Command.listed, harg, Option.getD_some] at hd'
      rw [Ctx.wdFrom, henter.goto] at hd
      rwa [← Option.some.inj (hd.symm.trans hd')]

/-- `CWD` and `CDUP`: a directory below the root is kept, and from anywhere else
the way back leads to the root. -/
theorem below_change {s s' : Ctx} {W : Path} {command : Command} {status : CommandStatus}
    (hs : Below server s) (hroot : s.os.tree.NoLinks server.path)
    (hW : s.conn.workingDirectory = some W)
    (hC : s.conn.loggedIn = true → StaysBelow server s W command)
    (hword : command.word = lit "CWD" ∨ command.word = lit "CDUP")
    (h : executeCommand server ans (some command) s = (.ok status, s')) : Below server s' := by
  rcases change_cases hword h with h | ⟨path, hpath, hlog, h⟩
  · exact hs.out h
  rcases changeDir_eq_ok hW h with h | ⟨hacc, hopen, hdir, hs'⟩
  · exact hs.out h
  obtain ⟨hlike, hback⟩ := (hC hlog).1 path hpath hacc hopen
  rw [hs']
  refine ⟨?_, hs.forked, hs.data⟩
  show RecordBelow server s.os.tree
    { s.conn with workingDirectory := s.settled server (s.target W path) }
  by_cases hpre : pathStr server.path <+: pathStr (s.target W path)
  · have hbelow := (pathStr_isPrefix_iff.mp hpre).resolve_right hlike
    exact ⟨s.target W path, if_pos hpre, hbelow, FileTree.noLinks_of_isDir hdir⟩
  · have hnot : ¬ server.path <+: s.target W path := fun hb => hpre (pathStr_isPrefix hb)
    obtain ⟨d, hd⟩ := Option.isSome_iff_exists.mp (hback.resolve_left hnot)
    obtain rfl : d = server.path := FileTree.chdir_pathStr hroot hd
    have hget : s.os.tree.getcwd server.path = some server.path :=
      if_pos (FileTree.Enterable.isDir ((s.os.tree.chdir_pathStr_congr [] _ _).trans hd))
    refine ⟨server.path, ?_, List.prefix_rfl, hroot⟩
    show s.settled server (s.target W path) = _
    rw [Ctx.settled, if_neg hpre, FileTree.goto_of_chdir hd, hget]

end

/-! ## Runs -/

/-- Any line: the handlers are told apart by what they do to directories. -/
theorem below_executeCommand {server : ServerT} {ans : Answers} {parsed : Option Command}
    {s s' : Ctx} {status : CommandStatus} (hs : Below server s)
    (hroot : s.os.tree.NoLinks server.path)
    (hC : s.conn.loggedIn = true → ∀ W, s.conn.workingDirectory = some W →
      ∀ command, parsed = some command → StaysBelow server s W command)
    (h : executeCommand server ans parsed s = (.ok status, s')) : Below server s' := by
  obtain ⟨W, hW, -, -⟩ := hs.record
  rcases word_cases parsed with hr | ⟨command, rfl, hw⟩ | ⟨command, rfl, hw⟩
  · by_cases hlist : ∃ command, parsed = some command ∧ command.word = lit "LIST"
    · obtain ⟨command, rfl, hw⟩ := hlist
      exact below_list hs hW (fun hlog => hC hlog W hW command rfl) hw h
    · exact ((frame_below server ans).executeCommand fun command hc =>
        ⟨hr command hc, fun hmem => hlist ⟨command, hc, List.mem_singleton.mp hmem⟩⟩).after h hs
  · exact below_change hs hroot hW (fun hlog => hC hlog W hW command rfl) hw h
  · have hlogs := (executeCommand_logs hw).after h
    refine ⟨?_, ?_, hlogs.data.trans hs.data⟩
    · rw [hlogs.os, hlogs.conn]
      exact hs.record
    · rw [hlogs.os, hlogs.forked]
      exact hs.forked

/-- Every record, every child and every listing sent is below the root. -/
structure Confined (server : ServerT) (S : Sessions) : Prop where
  root : S.world.os.tree.NoLinks server.path
  conns : ∀ id c, S.conns id = some c → RecordBelow server S.world.os.tree c
  children : ∀ id child, (id, child) ∈ S.world.children →
    ChildBelow server S.world.os.tree child
  listings : ∀ id dir tree, (id, .listing dir tree) ∈ S.world.data → server.path <+: dir

/-- A child lists below the root when it meets the condition. -/
theorem ChildBelow.run {server : ServerT} {os : Os} {child : Child} {cans : ChildAnswers}
    (h : ChildBelow server os.tree child) (hC : ListsBelow server os.tree child) {dir : Path}
    {tree : FileTree}
    (hd : .listing dir tree ∈ (child.body.run server cans child.command
      (Ctx.start { os with cwd := child.cwd, desc := child.desc } child.connection)).2.data) :
    server.path <+: dir := by
  obtain ⟨W, hW, hbelow, hlinks⟩ := h.record
  cases hbody : child.body with
  | executeRetrCommand =>
    rw [hbody] at hd
    exact absurd ((executeRetrCommand_silent _).data dir tree hd) (by simp [Ctx.start])
  | executeStorCommand =>
    rw [hbody] at hd
    exact absurd ((executeStorCommand_silent _).data dir tree hd) (by simp [Ctx.start])
  | executeLsCommand =>
    rw [hbody] at hd
    let s := Ctx.start { os with cwd := child.cwd, desc := child.desc } child.connection
    have hs : s.conn.workingDirectory = some W := hW
    rcases (executeLsCommand_leaves hs).2 with hnone | ⟨d, hgo, hone⟩
    · rw [TransferBody.run, hnone] at hd
      cases hd
    · rw [TransferBody.run, hone] at hd
      simp only [s, Ctx.start, List.nil_append, List.mem_singleton, DataItem.listing.injEq] at hd
      obtain ⟨rfl, -⟩ := hd
      have hgo' : os.tree.chdir (os.tree.goto child.cwd (pathStr W)) child.command.listed =
          some dir := hgo
      by_cases henter : os.tree.Enterable W
      · -- the child starts its look-up where the parent's check did
        refine h.shows hbody W hW henter dir ?_
        rwa [henter.goto] at hgo'
      · rw [FileTree.goto_pathStr_eq hlinks, if_neg henter] at hgo'
        exact ((hC hbody W hW).resolve_left henter) dir hgo'

/-- What a line leaves that was executed. -/
theorem Confined.line {u : Setup} {S : Sessions} {id : ConnId} {line : CStr} {ans : Answers}
    {c : Connection} {parsed : Option Command} {status : CommandStatus} {s : Ctx}
    (hS : Confined u.server S) (hC : KeepsBelow u.server S (.line id line ans))
    (hc : S.conns id = some c) (hparse : parseBuffer line = .ok parsed)
    (hx : executeCommand u.server ans parsed (Ctx.start S.world.os c) = (.ok status, s)) :
    Below u.server s := by
  have hs : Below u.server (Ctx.start S.world.os c) :=
    ⟨hS.conns id c hc, fun _ hmem => (List.not_mem_nil hmem).elim, rfl⟩
  refine below_executeCommand hs hS.root (fun hlog W hW command hcom => ?_) hx
  exact hC c hc hlog W hW command ((commandOf_of_parse hparse).trans hcom)

/-- One step, of any kind. -/
theorem Confined.step {u : Setup} {S S' : Sessions} {e : SessionEvent}
    (hS : Confined u.server S) (hC : KeepsBelow u.server S e)
    (h : S.step u.server e = .ok S') : Confined u.server S' := by
  have hl : FileTree.Later S.world.os.tree S'.world.os.tree := later_of_step h
  have hchildren : ∀ id child, (id, child) ∈ S.world.children →
      ChildBelow u.server S'.world.os.tree child :=
    fun id child hmem => (hS.children id child hmem).later hl
  have hconns : ∀ id c, S'.conns id = some c → RecordBelow u.server S'.world.os.tree c := by
    intro id c hc
    rcases record_cases h hc with ⟨hold, -⟩ | ⟨-, fd, addr, -, rfl⟩ |
      ⟨line, ans, c₀, parsed, status, s, rfl, hc₀, hparse, hx, rfl, hworld⟩
    · exact (hS.conns id c hold).later hl
    · exact ⟨u.server.path, rfl, List.prefix_rfl, hS.root.later hl⟩
    · rw [hworld]
      exact (hS.line hC hc₀ hparse hx).record
  cases e with
  | accept fd addr served =>
    obtain ⟨⟨c, w⟩, hacc, rfl⟩ := map_eq_ok h
    obtain ⟨-, rfl, rfl⟩ := World.accept_eq_ok hacc
    exact ⟨hS.root, hconns, hS.children, hS.listings⟩
  | line id line ans =>
    obtain ⟨c, parsed, hc, hparse, ⟨status, s, hx, -, rfl⟩ | ⟨command, -, -, rfl⟩⟩ :=
      handleLine_eq_ok h
    · have hline : Below u.server s := hS.line hC hc hparse hx
      refine ⟨hS.root.later hl, hconns, fun id' child hmem => ?_, fun id' dir tree hmem => ?_⟩
      · rcases List.mem_append.mp hmem with hold | hnew
        · exact hchildren id' child hold
        · obtain ⟨child', hchild', heq⟩ := List.mem_map.mp hnew
          cases heq
          exact hline.forked child hchild'
      · simp only [Sessions.handled, World.merge, hline.data, List.map_nil, List.append_nil] at hmem
        exact hS.listings id' dir tree hmem
    · refine ⟨hS.root, hconns, fun id' child hmem => ?_, fun id' dir tree hmem => ?_⟩
      all_goals
        simp only [Sessions.handled, World.merge, Ctx.goodbye, Ctx.start, List.map_nil,
          List.append_nil] at hmem
      · exact hS.children id' child hmem
      · exact hS.listings id' dir tree hmem
  | child k cans =>
    obtain ⟨w, hw, rfl⟩ := map_eq_ok h
    obtain ⟨id, child, s, hk, hs, rfl⟩ := World.runChild_eq_ok hw
    refine ⟨hS.root.later hl, hconns,
      fun id' child' hmem => hchildren id' child' (List.mem_of_mem_eraseIdx hmem),
      fun id' dir tree hmem => ?_⟩
    rcases List.mem_append.mp hmem with hold | hnew
    · exact hS.listings id' dir tree hold
    · obtain ⟨item, hitem, heq⟩ := List.mem_map.mp hnew
      cases heq
      rw [hs] at hitem
      exact (hS.children id child (List.mem_of_getElem? hk)).run (hC (id, child) hk) hitem
  | hangup id =>
    obtain rfl := Except.ok.inj h
    exact ⟨hS.root, hconns, hS.children, hS.listings⟩
  | dataConnect fd =>
    obtain ⟨w, hw, rfl⟩ := map_eq_ok h
    obtain ⟨pending, -, rfl⟩ := World.dataConnect_eq_ok hw
    exact ⟨hS.root, hconns, hS.children, hS.listings⟩

/-- **When clients stay below the root.** In a run whose steps all meet the
condition, the directory of every record and every directory that was listed is
the root or lies below it. -/
theorem below_root_of_run (u : Setup) (events : List SessionEvent) (S : Sessions)
    (hrun : (sessions u).run events = .ok S)
    (hmeets : (sessions u).Meets (KeepsBelow u.server) events) :
    (∀ id c, S.conns id = some c →
      ∃ W, c.workingDirectory = some W ∧ u.server.path <+: W) ∧
    ∀ id dir tree, (id, .listing dir tree) ∈ S.world.data → u.server.path <+: dir := by
  have hconf : Confined u.server S := by
    refine Machine.run_invariant_of_meets (m := sessions u) (C := KeepsBelow u.server)
      (I := fun _ S => Confined u.server S) ?_ ?_ events S hmeets hrun
    · exact ⟨FileTree.noLinks_of_isDir u.root, fun _ _ hc => (by cases hc),
        fun _ _ hmem => (List.not_mem_nil hmem).elim, fun _ _ _ hmem =>
          (List.not_mem_nil hmem).elim⟩
    · intro _ _ _ _ hS hC hstep
      exact hS.step hC hstep
  refine ⟨fun id c hc => ?_, hconf.listings⟩
  obtain ⟨W, hW, hbelow, -⟩ := hconf.conns id c hc
  exact ⟨W, hW, hbelow⟩

/-- A client in `/srv/ftp/pub` goes up one directory. -/
theorem below_root_of_run_up : ∃ S,
    (sessions smallSetup).run (oneClient ["USER anonymous", "PASS", "CWD pub", "CDUP"]) = .ok S ∧
      ∀ id c, S.conns id = some c →
        ∃ W, c.workingDirectory = some W ∧ smallSetup.server.path <+: W :=
  ⟨_, rfl, (below_root_of_run smallSetup (oneClient ["USER anonymous", "PASS", "CWD pub", "CDUP"]) _
    rfl (by decide +kernel)).1⟩

/-- A client on `/srv/ftp` goes to `/srv/ftp2`, and another one has it listed. -/
theorem leaves_root :
    (∃ S c, (sessions smallSetup).run (oneClient ["USER anonymous", "PASS", "CWD ../ftp2"])
      = .ok S ∧
      S.conns 0 = some c ∧ c.workingDirectory = some [srv, ftp2] ∧
        ¬ smallSetup.server.path <+: [srv, ftp2]) ∧
    ∃ S tree, (sessions smallSetup).run (oneClient ["USER anonymous", "PASS", "PASV"] ++
        [.dataConnect 7, .line 0 (lit "LIST ../ftp2") (.fine 7), .child 0 (.fine [])]) = .ok S ∧
      (0, .listing [srv, ftp2] tree) ∈ S.world.data ∧
        ¬ smallSetup.server.path <+: [srv, ftp2] :=
  ⟨⟨_, _, rfl, rfl, by decide +kernel, by decide⟩,
    ⟨_, smallSetup.tree, rfl, by decide +kernel, by decide⟩⟩

end MyFtp.Server
