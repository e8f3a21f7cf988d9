import MyFtp.Server.Changes
import MyFtp.Server.Names
import MyFtp.Server.Refusals

/-!
# What `LIST` shows

The name of a `LIST` is looked up three times: by the parent from wherever the
process stands, by the parent from the connection's directory, and by the child
from the connection's directory again. Neither of them looks at whether it got to
the connection's directory, and without a name only the child looks anything up.

> `lists_of_run`: in a run in which the three mean the same, and the comparison
> with the root's path is not deceived, a `LIST` shows the directory its name
> means from the connection's directory, or is refused before anything is done.
-/

namespace MyFtp.Server

open MyFtp.Posix
open MyFtp.Posix.FileTree (SameFrom)
open Prog

/-! ## What is meant -/

/-- The directory a name means from `W`, if the process may enter it and it lies within the
root. -/
def listable (server : ServerT) (t : FileTree) (W : Path) (path : CStr) : Option Path :=
  (t.chdir W path).filter (server.path <+: ·)

/-- The data socket waits for a transfer, and connecting it will succeed: a client has
connected to it, or listens where it connects to. -/
def Connectable (ans : Answers) (desc : DescTable) (d : DataSocket) : Prop :=
  (d.dataSocketMode = .active → ans.connect = true ∧ d.clientSockfd ≠ none) ∧
  (d.dataSocketMode = .passive → ∃ l n fd peer, d.dataSockfd = some l ∧
    desc l = some (.listener (n + 1)) ∧ ans.accept = some (fd, peer) ∧ desc fd = none)

/-- The child of a `LIST` shows the directory `d`, whenever it runs in the tree `t`. -/
def Shows (server : ServerT) (t : FileTree) (id : ConnId) (child : Child) (d : Path) : Prop :=
  ∀ (S₁ : Sessions) (k : Nat) (cans : ChildAnswers), S₁.world.children[k]? = some (id, child) →
    S₁.world.os.tree = t → S₁.world.os.hungup id = false → cans.popen = true →
      cans.dataWrites = none → ∃ S₂, S₁.step server (.child k cans) = .ok S₂ ∧
        S₂.world.data = S₁.world.data ++ [(id, .listing d t)] ∧
        S₂.world.sent = S₁.world.sent ++ [(id, .hereComesListing), (id, .directorySendOk)]

/-- What a `LIST` of the client `id` in the directory `W` should come to. -/
def ListMeans (server : ServerT) (S S' : Sessions) (id : ConnId) (W : Path) (command : Command) :
    Prop :=
  match listable server S.world.os.tree W command.listed with
  | some d => S'.world.sent = S.world.sent ∧ S'.world.data = S.world.data ∧
      ∃ child, S'.world.children = S.world.children ++ [(id, child)] ∧
        Shows server S.world.os.tree id child d
  | none => S'.world.sent = S.world.sent ++ [(id, .failedToListDirectory)] ∧
      S'.world.data = S.world.data ∧ S'.world.children = S.world.children ∧
        S'.world.os.desc = S.world.os.desc ∧ S'.conns = S.conns

/-- The same for an event. It concerns clients that are logged in and there to hear of it,
whose directory exists and whose data socket can be connected, where a child can be
forked. -/
def ListsMean (server : ServerT) (S : Sessions) (result : Except Halt Sessions) :
    SessionEvent → Prop
  | .line id line ans => ∀ c ∈ S.conns id, c.loggedIn = true → S.world.os.hungup id = false →
      ∀ d ∈ c.dataSocket, Connectable ans S.world.os.desc d → ans.fork = true →
        ∀ W ∈ c.workingDirectory, S.world.os.tree.isDir W = true → ∀ command ∈ commandOf line,
          command.word = lit "LIST" → ∃ S', result = .ok S' ∧ ListMeans server S S' id W command
  | _ => True

/-! ## The condition -/

/-- Without an argument, the process can get to `W`, which lies within the root and can be
entered. With one, the name is there from where the process stands, unless it is to be
refused. If it is there, it means the same from where the process gets on its way to `W`,
for the parent and for its child, and it means no directory whose path begins with the
name of the root without lying below it. -/
def ListFindsDirectory (server : ServerT) (s : Ctx) (W : Path) (command : Command) : Prop :=
  match command.argv.head? with
  | none => (listable server s.os.tree W (lit ".")).isSome = true ∧
      SameFrom (s.wdFrom W) W (lit ".")
  | some path =>
    (s.os.tree.access s.os.cwd path = false → listable server s.os.tree W path = none) ∧
    (s.os.tree.access s.os.cwd path = true → SameFrom (s.wdFrom W) W path ∧
      ∀ d ∈ s.os.tree.chdir W path, ¬ Lookalike server.path d ∧ (server.path <+: d →
        SameFrom (s.os.tree.goto (s.os.tree.goto d (pathStr server.path)) (pathStr W)) W path))

instance (server : ServerT) (s : Ctx) (W : Path) (command : Command) :
    Decidable (ListFindsDirectory server s W command) := by
  unfold ListFindsDirectory
  split <;> infer_instance

/-- The condition on an event. -/
def ListsFind (server : ServerT) (S : Sessions) : SessionEvent → Prop
  | .line id line _ => ∀ c ∈ S.conns id, c.loggedIn = true → c.dataSocket ≠ none →
      ∀ W ∈ c.workingDirectory, S.world.os.tree.isDir W = true → ∀ command ∈ commandOf line,
        command.word = lit "LIST" → ListFindsDirectory server (Ctx.start S.world.os c) W command
  | _ => True

instance (server : ServerT) (S : Sessions) : ∀ e, Decidable (ListsFind server S e)
  | .line id .. => inferInstanceAs (Decidable (∀ c ∈ S.conns id, _))
  | .accept .. | .child .. | .hangup _ | .dataConnect _ => .isTrue trivial

/-! ## The parent -/

section

variable {server : ServerT} {ans : Answers} {cans : ChildAnswers} {command : Command}
  {s : Ctx} {W d : Path} {d₀ : DataSocket}

theorem listable_eq_some {t : FileTree} {path : CStr} (h : listable server t W path = some d) :
    t.chdir W path = some d ∧ server.path <+: d := by
  obtain ⟨hd, hbelow⟩ := Option.filter_eq_some_iff.mp h
  exact ⟨hd, of_decide_eq_true hbelow⟩

theorem listable_eq_none {t : FileTree} {path : CStr} (h : listable server t W path = none) :
    ∀ d, t.chdir W path = some d → ¬ server.path <+: d := by
  intro d hd hbelow
  have hsome : listable server t W path = some d :=
    Option.filter_eq_some_iff.mpr ⟨hd, decide_eq_true hbelow⟩
  rw [h] at hsome
  cases hsome

/-- The tests pass, and leave the process where the child finds the directory, or they
refuse. -/
theorem listTests (hlog : s.conn.loggedIn = true) (hdata : s.conn.dataSocket ≠ none)
    (hfinds : ListFindsDirectory server s W command) :
    match listable server s.os.tree W command.listed with
    | some d => ∃ cwd, transferTests server s W command .executeLsCommand = (none, cwd) ∧
        s.os.tree.chdir (s.os.tree.goto cwd (pathStr W)) command.listed = some d
    | none => ∃ cwd, transferTests server s W command .executeLsCommand =
        (some .failedToListDirectory, cwd) := by
  unfold transferTests ListFindsDirectory Command.listed at *
  rw [if_neg (by simp [hlog]), if_neg hdata]
  cases hpath : command.argv.head? with
  | none =>
    rw [hpath] at hfinds
    obtain ⟨hsome, hsame⟩ := hfinds
    rw [Option.getD_none]
    cases hd : listable server s.os.tree W (lit ".") with
    | none =>
      rw [hd] at hsome
      cases hsome
    | some d => exact ⟨_, rfl, (hsame.chdir _).trans (listable_eq_some hd).1⟩
  | some path =>
    rw [hpath] at hfinds
    obtain ⟨hmissing, hthere⟩ := hfinds
    rw [Option.getD_some]
    dsimp only
    by_cases hacc : s.os.tree.access s.os.cwd path = false
    · rw [if_pos hacc, hmissing hacc]
      exact ⟨_, rfl⟩
    obtain ⟨hsame, hall⟩ := hthere (by simpa using hacc)
    rw [if_neg hacc, hsame.chdir]
    cases hd : listable server s.os.tree W path with
    | some d =>
      obtain ⟨hgo, hbelow⟩ := listable_eq_some hd
      rw [hgo]
      dsimp only
      rw [if_pos (pathStr_isPrefix hbelow)]
      exact ⟨_, rfl, (((hall d hgo).2 hbelow).chdir _).trans hgo⟩
    | none =>
      cases hgo : s.os.tree.chdir W path with
      | none => exact ⟨_, rfl⟩
      | some d =>
        have hstr : ¬ pathStr server.path <+: pathStr d := by
          rw [pathStr_isPrefix_iff, not_or]
          exact ⟨listable_eq_none hd d hgo, (hall d hgo).1⟩
        dsimp only
        rw [if_neg hstr]
        exact ⟨_, rfl⟩

/-- The tests find their directory where it is. -/
theorem listFinds_of_condition (hdir : s.os.tree.isDir W = true)
    (hfinds : ListFindsDirectory server s W command) : ListFinds s W command := by
  intro _ _ path hpath hacc d hd
  unfold ListFindsDirectory at hfinds
  rw [Option.mem_def.mp hpath] at hfinds
  have hgo : s.os.tree.chdir W path = some d := ((hfinds.2 hacc).1.chdir _).symm.trans hd
  exact (FileTree.chdir_later (FileTree.later_refl _) hdir hgo).2

/-- A data socket that can be connected gets its connection. -/
theorem establish_connects (hd : s.conn.dataSocket = some d₀)
    (hcon : Connectable ans s.os.desc d₀) :
    ∃ d₁ desc₁, Reached ans s.os.desc d₀ true d₁ desc₁ ∧ d₁.clientSockfd ≠ none ∧
      establishDataSocketConnection ans s = (.ok true, s.withData desc₁ (some d₁)) := by
  unfold establishDataSocketConnection
  rw [conn_bind_apply, hd, deref_some, pure_bind_apply]
  cases hmode : d₀.dataSocketMode with
  | active =>
    obtain ⟨hconnect, hsock⟩ := hcon.1 hmode
    refine ⟨d₀, s.os.desc, ?_, hsock, ?_⟩
    · have hreached : Reached ans s.os.desc d₀ ans.connect d₀ s.os.desc := .active hmode
      rwa [hconnect] at hreached
    · rw [hconnect, ← hd]
      rfl
  | passive =>
    obtain ⟨l, n, fd, peer, hl, hlistens, haccept, hfree⟩ := hcon.2 hmode
    have hacc : acceptData ans d₀.dataSockfd s = _ := acceptData_apply ans d₀.dataSockfd s
    rw [haccept, hl, Option.bind_some, hlistens] at hacc
    dsimp only at hacc
    rw [if_pos hfree, ← hl] at hacc
    dsimp only
    rw [acceptConnection_of_some hacc]
    exact ⟨_, _, .accepted l fd n peer hmode hl hlistens hfree haccept, Option.some_ne_none _, rfl⟩

/-- And if a child can be forked, there is one. -/
theorem transfer_connects (body : TransferBody) (command : Command)
    (hd : s.conn.dataSocket = some d₀) (hcon : Connectable ans s.os.desc d₀)
    (hfork : ans.fork = true) :
    ∃ d₁ desc₁ s', Reached ans s.os.desc d₀ true d₁ desc₁ ∧ d₁.clientSockfd ≠ none ∧
      executeDataSocketCommand ans body command s = (.ok .success, s') ∧ s'.out = s.out ∧
        s'.data = s.data ∧ s'.forked = s.forked ++
          [⟨body, command, { s.conn with dataSocket := some d₁ }, s.os.cwd, desc₁⟩] := by
  obtain ⟨d₁, desc₁, hreached, hsock, hest⟩ := establish_connects hd hcon
  have hforked := forkExecution_apply ans body command (s.withData desc₁ (some d₁))
  rw [if_pos hfork] at hforked
  -- the state with the child forked, before the data socket is given up
  let s₂ : Ctx := { s.withData desc₁ (some d₁) with
    forked := s.forked ++
      [⟨body, command, { s.conn with dataSocket := some d₁ }, s.os.cwd, desc₁⟩] }
  refine ⟨d₁, desc₁, s₂.withData (d₁.destroyed desc₁) none, hreached, hsock, ?_, rfl, rfl, rfl⟩
  unfold executeDataSocketCommand
  rw [bind_of_ok hest, if_neg (by simp), bind_of_ok hforked, if_neg (by simp)]
  exact giveUp_apply rfl .success

/-! ## The child -/

/-- `list_directory`, when nothing fails. -/
theorem listDirectory_apply (h : Connected s cans) (hpopen : cans.popen = true) :
    listDirectory cans s = (.ok .success, { s with
      out := s.out ++ s.os.delivers s.conn.clientSockfd .hereComesListing
      data := s.data ++ [.listing s.os.cwd s.os.tree] }) := by
  let s₁ : Ctx := { s with out := s.out ++ s.os.delivers s.conn.clientSockfd .hereComesListing }
  have h₁ : Connected s₁ cans := ⟨h.data, h.peer, h.alive⟩
  unfold listDirectory
  rw [if_neg (by simp [hpopen]), reply_bind_apply, dprintf_bind_apply, h.alive, if_neg (by simp),
    gets_bind_apply]
  exact bind_of_ok (dataDprintf_connected h₁) _

/-- `execute_ls_command`, when nothing fails and the child gets to a directory. -/
theorem executeLsCommand_apply (h : Connected s cans) (hpopen : cans.popen = true)
    (hW : s.conn.workingDirectory = some W)
    (hd : s.os.tree.chdir (s.wdFrom W) command.listed = some d) :
    executeLsCommand server cans command s = (.ok .success,
      { s.inDir (s.os.tree.goto d (pathStr server.path)) with
        data := s.data ++ [.listing d s.os.tree]
        out := s.out ++ s.os.delivers s.conn.clientSockfd .hereComesListing ++
          s.os.delivers s.conn.clientSockfd .directorySendOk }) := by
  have hgoto := gotoPath_apply hW command
  rw [hd] at hgoto
  have hlist : listDirectory cans (s.inDir d) = _ :=
    listDirectory_apply ⟨h.data, h.peer, h.alive⟩ hpopen
  have halive : Os.kills { s.os with cwd := s.os.tree.goto d (pathStr server.path) }
      s.conn.clientSockfd = false := h.alive
  unfold executeLsCommand
  rw [bind_of_ok hgoto, if_neg (by simp), bind_of_ok hlist, if_neg (by simp), chdir_bind_apply,
    reply_bind_apply, dprintf_bind_apply]
  dsimp only
  rw [halive, if_neg (by simp)]
  rfl

/-- What the step of a child adds to what is sent. -/
theorem child_step (server : ServerT) {S : Sessions} {k : Nat} {id : ConnId} {child : Child}
    (cans : ChildAnswers) (hk : S.world.children[k]? = some (id, child)) :
    ∃ S', S.step server (.child k cans) = .ok S' ∧
      S'.world.data = S.world.data ++
        (child.body.run server cans child.command (S.childStart child)).2.data.map (id, ·) ∧
      S'.world.sent = S.world.sent ++
        (child.body.run server cans child.command (S.childStart child)).2.out := by
  have hrun : S.world.runChild server k cans = _ := World.runChild_of_some hk rfl
  exact ⟨_, congrArg (Except.map fun world => ({ S with world } : Sessions)) hrun, rfl, rfl⟩

/-- A child that finds the directory shows it. -/
theorem shows_of_goto {t : FileTree} {id : ConnId} {child : Child}
    (hbody : child.body = .executeLsCommand)
    (hW : child.connection.workingDirectory = some W)
    (hdata : ∃ d₁, child.connection.dataSocket = some d₁ ∧ d₁.clientSockfd ≠ none)
    (hctl : child.desc child.connection.clientSockfd = some (.control id))
    (hd : t.chdir (t.goto child.cwd (pathStr W)) child.command.listed = some d) :
    Shows server t id child d := by
  intro S₁ k cans hk htree hup hpopen hwrites
  obtain ⟨d₁, hd₁, hsock⟩ := hdata
  obtain ⟨fd, hfd⟩ := Option.ne_none_iff_exists'.mp hsock
  have hctl₁ : (S₁.childStart child).os.desc (S₁.childStart child).conn.clientSockfd =
      some (.control id) := hctl
  have hup₁ : (S₁.childStart child).os.hungup id = false := hup
  have hconnected : Connected (S₁.childStart child) cans :=
    ⟨⟨d₁, fd, hd₁, hfd⟩, hwrites, kills_of_control hctl₁ hup₁⟩
  have hrun : executeLsCommand server cans child.command (S₁.childStart child) = _ :=
    executeLsCommand_apply hconnected hpopen hW (by rw [← htree] at hd; exact hd)
  obtain ⟨S₂, hstep, hdata₂, hsent₂⟩ := child_step server cans hk
  refine ⟨S₂, hstep, ?_, ?_⟩
  · rw [hdata₂, hbody, TransferBody.run, hrun, ← htree]
    rfl
  · rw [hsent₂, hbody, TransferBody.run, hrun]
    dsimp only
    rw [delivers_of_control hctl₁ hup₁, delivers_of_control hctl₁ hup₁]
    rfl

end

/-! ## A line -/

/-- A line that meets the condition is handled, and means what it should. -/
theorem lists_line {u : Setup} {events : List SessionEvent} {S : Sessions} {e : SessionEvent}
    (hrun : (sessions u).run events = .ok S) (hC : ListsFind u.server S e) :
    ListsMean u.server S (S.step u.server e) e := by
  cases e with
  | line id line ans =>
    intro c hc hlog hup d hd hcon hfork W hW hdir command hcommand hword
    have hdata : c.dataSocket ≠ none := by
      rw [Option.mem_def.mp hd]
      exact Option.some_ne_none d
    have hfinds : ListFindsDirectory u.server (Ctx.start S.world.os c) W command :=
      hC c hc hlog hdata W hW hdir command hcommand hword
    obtain ⟨hspeaks, -⟩ := speaks_of_run hrun hc
    have hctl : S.world.os.desc c.clientSockfd = some (.control id) := hspeaks.owns.control
    have hstep : S.step u.server (.line id line ans) = _ :=
      handleLine_of_executeCommand hc (parse_of_commandOf hcommand) fun command' h hquit => by
        rw [← Option.some.inj h, hword] at hquit
        exact absurd hquit (by decide)
    rw [transferCommand_tests hW (by rw [hword]; rfl) fun _ => listFinds_of_condition hdir hfinds]
      at hstep
    have htests := listTests hlog hdata hfinds
    unfold ListMeans
    cases hd' : listable u.server S.world.os.tree W command.listed with
    | some d' =>
      rw [show listable u.server (Ctx.start S.world.os c).os.tree W command.listed =
        some d' from hd']
        at htests
      obtain ⟨cwd, htests, hgo⟩ := htests
      obtain ⟨d₁, desc₁, s', hreached, hsock, hx, hout, hsent, hforked⟩ :=
        transfer_connects .executeLsCommand command
          (s := (Ctx.start S.world.os c).inDir cwd) hd hcon
          hfork
      have hctl₁ : desc₁ c.clientSockfd = some (.control id) :=
        (hreached.desc_of_control (hspeaks.inDir cwd) hd).trans hctl
      rw [htests] at hstep
      dsimp only at hstep
      rw [hx] at hstep
      let child : Child :=
        ⟨.executeLsCommand, command, { c with dataSocket := some d₁ }, cwd, desc₁⟩
      have hshows : Shows u.server S.world.os.tree id child d' :=
        shows_of_goto rfl hW ⟨d₁, rfl, hsock⟩ hctl₁ hgo
      refine ⟨_, hstep, ?_, ?_, child, ?_, hshows⟩
      · show S.world.sent ++ s'.out = S.world.sent
        rw [hout]
        exact List.append_nil _
      · show S.world.data ++ s'.data.map (id, ·) = S.world.data
        rw [hsent]
        exact List.append_nil _
      · show S.world.children ++ s'.forked.map (id, ·) = _
        rw [hforked]
        rfl
    | none =>
      rw [show listable u.server (Ctx.start S.world.os c).os.tree W command.listed = none from hd']
        at htests
      obtain ⟨cwd, htests⟩ := htests
      have hrefuse : refuse .failedToListDirectory ((Ctx.start S.world.os c).inDir cwd) = _ :=
        answer_heard hctl hup .failedToListDirectory CommandStatus.failure
      rw [htests] at hstep
      dsimp only at hstep
      rw [hrefuse] at hstep
      refine ⟨_, hstep, rfl, ?_, ?_, rfl, ?_⟩
      · exact List.append_nil _
      · exact List.append_nil _
      · exact handled_same hc _
  | _ => trivial

/-! ## Runs -/

/-- **When `LIST` shows what was asked for.** In a run whose events all meet the condition,
every `LIST` with a data socket that can be connected begins a transfer whose child shows
exactly the directory the name means from the connection's directory, followed by 226, as
long as the tree stays as it is; or it is refused with 550, and nothing else happens. -/
theorem lists_of_run (u : Setup) (events : List SessionEvent)
    (hmeets : (sessions u).Meets (ListsFind u.server) events) :
    ∀ l₁ e l₂ S, events = l₁ ++ e :: l₂ → (sessions u).run l₁ = .ok S →
      ListsMean u.server S (S.step u.server e) e := by
  rintro l₁ e l₂ S rfl hrun
  exact lists_line hrun ((Machine.meetsFrom_append.mp hmeets).2 S hrun).1

/-- A client in `/srv/ftp/pub` has the root listed by its path. -/
def listedByPath : List SessionEvent :=
  oneClient ["USER anonymous", "PASS", "CWD pub", "PASV"] ++
    [.dataConnect 7, .line 0 (lit "LIST /srv/ftp") (.fine 8)]

theorem lists_of_run_path : ∃ S S',
    (sessions smallSetup).run (listedByPath.take 6) = .ok S ∧
      S.step smallSetup.server (.line 0 (lit "LIST /srv/ftp") (.fine 8)) = .ok S' ∧
      ListMeans smallSetup.server S S' 0 [srv, ftp, pub] ⟨lit "LIST", [lit "/srv/ftp"]⟩ ∧
      listable smallSetup.server S.world.os.tree [srv, ftp, pub] (lit "/srv/ftp") =
        some [srv, ftp] := by
  obtain ⟨S, hrun, ⟨c, hc, hlog, hW, d, hd, hmode, hfd⟩, hup, hlistens, hfree, hdir, hlistable⟩ :
      ∃ S, (sessions smallSetup).run (listedByPath.take 6) = .ok S ∧
        ((∃ c ∈ S.conns 0, c.loggedIn = true ∧ c.workingDirectory = some [srv, ftp, pub] ∧
          ∃ d ∈ c.dataSocket, d.dataSocketMode = .passive ∧ d.dataSockfd = some 7) ∧
        S.world.os.hungup 0 = false ∧ S.world.os.desc 7 = some (.listener 1) ∧
        S.world.os.desc 9 = none ∧ S.world.os.tree.isDir [srv, ftp, pub] = true ∧
        listable smallSetup.server S.world.os.tree [srv, ftp, pub] (lit "/srv/ftp") =
          some [srv, ftp]) :=
    Machine.exists_of_run (by decide +kernel)
  have hcon : Connectable (.fine 8) S.world.os.desc d := by
    refine ⟨fun hactive => ?_, fun _ => ⟨7, 0, 9, _, hfd, hlistens, rfl, hfree⟩⟩
    rw [hmode] at hactive
    cases hactive
  obtain ⟨S', hstep, hmeans⟩ := lists_of_run smallSetup listedByPath (by decide +kernel) _ _ []
    S rfl hrun c hc hlog hup d hd hcon rfl _ hW hdir ⟨lit "LIST", [lit "/srv/ftp"]⟩ (by decide) rfl
  exact ⟨S, S', hrun, hstep, hmeans, hlistable⟩

/-- The same client asks for `../pub`, which from `/srv/ftp/pub` is that directory, and is
refused: from `/srv/ftp` there is no such directory. -/
theorem list_looks_elsewhere : ∃ S S',
    (sessions smallSetup).Took (listedByPath.take 6 ++ [.line 0 (lit "LIST ../pub") (.fine 8)])
        S (.line 0 (lit "LIST ../pub") (.fine 8)) S' ∧
      (∃ c ∈ S.conns 0, c.loggedIn = true ∧ c.workingDirectory = some [srv, ftp, pub]) ∧
      listable smallSetup.server S.world.os.tree [srv, ftp, pub] (lit "../pub") =
        some [srv, ftp, pub] ∧
      S'.world.sent = S.world.sent ++ [(0, .failedToListDirectory)] :=
  Machine.exists_of_step (by decide +kernel)

end MyFtp.Server
