import MyFtp.Server.Outcome

/-!
# Where `CWD` and `CDUP` go

`change_dir` tests the name from wherever the process stands, moves from the
connection's directory without looking at whether it could, and then compares
strings to decide whether it is still below the root.

> `changes_of_run`: in a run in which the test answers for the connection's
> directory, and the move and the comparison do not go wrong, every `CWD` and
> `CDUP` goes to the directory its name means from the connection's directory, or
> to the root when that lies outside of it, and is refused when there is none.
-/

namespace MyFtp.Server

open MyFtp.Posix
open MyFtp.Posix.FileTree (SameFrom)
open Prog

/-! ## What is meant -/

/-- The directory a name means from `d`, if the process may open and enter it. -/
def entered (t : FileTree) (d : Path) (path : CStr) : Option Path :=
  if t.opendir d path = true then t.chdir d path else none

/-- A directory outside the root is given up for the root. -/
def confine (server : ServerT) (d : Path) : Path := if server.path <+: d then d else server.path

/-- What a `CWD` to `path`, or a `CDUP`, of the client `id` in the directory `W` should
come to. -/
def ChangeMeans (server : ServerT) (S S' : Sessions) (id : ConnId) (W : Path)
    (path : CStr) : Prop :=
  match entered S.world.os.tree W path with
  | some d => S'.world.sent = S.world.sent ++ [(id, .directoryChanged)] ∧
      ∃ c, S'.conns id = some c ∧ c.workingDirectory = some (confine server d)
  | none => S'.world.sent = S.world.sent ++ [(id, .failedToChangeDirectory)] ∧
      ∃ c, S'.conns id = some c ∧ c.workingDirectory = some W

/-- The same for an event. It concerns clients that are logged in and there to hear of it,
and whose directory exists below the root. -/
def ChangesMean (server : ServerT) (S : Sessions) (result : Except Halt Sessions) :
    SessionEvent → Prop
  | .line id line _ => ∀ c ∈ S.conns id, c.loggedIn = true → S.world.os.hungup id = false →
      ∀ W ∈ c.workingDirectory, S.world.os.tree.isDir W = true → server.path <+: W →
        ∀ command ∈ commandOf line, ∀ path ∈ command.changesTo,
          ∃ S', result = .ok S' ∧ ChangeMeans server S S' id W path
  | _ => True

/-! ## The condition -/

/-- The name opens as a directory from where the process stands exactly if it means one from
`W` that can be opened and entered. In that case the process can get to `W`, or need not,
and from outside the root, where the path does not begin with the name of the root, it can
get back. -/
def ChangeFinds (server : ServerT) (s : Ctx) (W : Path) (path : CStr) : Prop :=
  (s.os.tree.opendir s.os.cwd path = true ↔ (entered s.os.tree W path).isSome = true) ∧
  ∀ d ∈ entered s.os.tree W path, SameFrom (s.wdFrom W) W path ∧
    (server.path <+: d ∨ ¬ Lookalike server.path d ∧ s.os.tree.Enterable server.path)

instance (server : ServerT) (s : Ctx) (W : Path) (path : CStr) :
    Decidable (ChangeFinds server s W path) :=
  inferInstanceAs (Decidable (_ ∧ _))

/-- The condition on an event. -/
def ChangesFind (server : ServerT) (S : Sessions) : SessionEvent → Prop
  | .line id line _ => ∀ c ∈ S.conns id, c.loggedIn = true → ∀ W ∈ c.workingDirectory,
      S.world.os.tree.isDir W = true → server.path <+: W →
        ∀ command ∈ commandOf line, ∀ path ∈ command.changesTo,
          ChangeFinds server (Ctx.start S.world.os c) W path
  | _ => True

instance (server : ServerT) (S : Sessions) : ∀ e, Decidable (ChangesFind server S e)
  | .line id .. => inferInstanceAs (Decidable (∀ c ∈ S.conns id, _))
  | .accept .. | .child .. | .hangup _ | .dataConnect _ => .isTrue trivial

/-! ## A line -/

section

variable {server : ServerT} {ans : Answers} {command : Command} {s : Ctx} {W d : Path} {path : CStr}

theorem entered_eq_some (h : entered s.os.tree W path = some d) :
    s.os.tree.opendir W path = true ∧ s.os.tree.chdir W path = some d := by
  unfold entered at h
  split at h
  next hopen => exact ⟨hopen, h⟩
  next => cases h

/-- `CWD` with one argument, and `CDUP`, call `change_dir`. -/
theorem executeCommand_changes (hlog : s.conn.loggedIn = true)
    (hpath : command.changesTo = some path) :
    executeCommand server ans (some command) s = changeDir server path s := by
  unfold Command.changesTo at hpath
  split at hpath
  next hword =>
    split at hpath
    next hargc =>
      rw [executeCommand_of_mem (by rw [hword]; exact List.mem_of_getElem? (i := 2) rfl)]
      rw [cwdCommand, conn_bind_apply, if_neg (by simp [hlog]), if_neg (by simp [hargc]), hpath,
        deref_some, pure_bind_apply]
    next => cases hpath
  next =>
    split at hpath
    next hword =>
      obtain rfl := Option.some.inj hpath
      rw [executeCommand_of_mem (by rw [hword]; exact List.mem_of_getElem? (i := 3) rfl)]
      rw [cdupCommand, conn_bind_apply, if_neg (by simp [hlog])]
    next => cases hpath

/-- Neither of them is `QUIT`. -/
theorem changesTo_ne_quit (hpath : command.changesTo = some path) : command.word ≠ lit "QUIT" := by
  intro hword
  unfold Command.changesTo at hpath
  rw [hword, if_neg (by decide), if_neg (by decide)] at hpath
  cases hpath

/-- What is taken over is what is meant. -/
theorem settled_eq_confine (hroot : s.os.tree.NoLinks server.path)
    (h : server.path <+: d ∨ ¬ Lookalike server.path d ∧ s.os.tree.Enterable server.path) :
    s.settled server d = some (confine server d) := by
  rw [Ctx.settled, confine]
  by_cases hbelow : server.path <+: d
  · rw [if_pos (pathStr_isPrefix hbelow), if_pos hbelow]
  · obtain ⟨hlook, henter⟩ := h.resolve_left hbelow
    have hstr : ¬ pathStr server.path <+: pathStr d := by
      rw [pathStr_isPrefix_iff, not_or]
      exact ⟨hbelow, hlook⟩
    rw [if_neg hstr, if_neg hbelow, FileTree.goto_pathStr_eq hroot, if_pos henter, FileTree.getcwd,
      if_pos henter.isDir]

/-- `change_dir` to a directory that can be opened and entered. -/
theorem changeDir_goes (hW : s.conn.workingDirectory = some W)
    (hroot : s.os.tree.NoLinks server.path) (hdir : s.os.tree.isDir W = true)
    (hfinds : ChangeFinds server s W path) (hd : entered s.os.tree W path = some d) :
    changeDir server path s =
      (do reply .directoryChanged; return .success : M CommandStatus)
        { s.inDir (s.os.tree.goto d (pathStr server.path)) with
          conn := { s.conn with workingDirectory := some (confine server d) } } := by
  obtain ⟨hsame, hback⟩ := hfinds.2 d hd
  have hopen : s.os.tree.opendir s.os.cwd path = true := hfinds.1.mpr (by rw [hd]; rfl)
  obtain ⟨-, hgo⟩ := entered_eq_some hd
  have htarget : s.target W path = d := FileTree.goto_of_chdir ((hsame.chdir _).trans hgo)
  have hdir' : s.os.tree.isDir d = true :=
    (FileTree.chdir_later (FileTree.later_refl _) hdir hgo).2
  rw [changeDir_apply hW, htarget, settled_eq_confine hroot hback]
  rw [if_neg (by simp [hopen, FileTree.access_of_opendir hopen]), if_neg (by simp [hdir'])]

/-- `change_dir` to anything else. -/
theorem changeDir_refuses (hW : s.conn.workingDirectory = some W)
    (hfinds : ChangeFinds server s W path) (hd : entered s.os.tree W path = none) :
    changeDir server path s = refuse .failedToChangeDirectory s := by
  have hopen : s.os.tree.opendir s.os.cwd path = false := by
    have h := mt hfinds.1.mp (by rw [hd]; simp)
    simpa using h
  rw [changeDir_apply hW, if_pos (Or.inr hopen)]

/-- A last word to a client that is there. -/
theorem answer_heard {α : Type} {id : ConnId}
    (hctl : s.os.desc s.conn.clientSockfd = some (.control id)) (hup : s.os.hungup id = false)
    (r : Reply) (a : α) :
    (do reply r; return a : M α) s = (.ok a, { s with out := s.out ++ [(id, r)] }) := by
  rw [reply_bind_apply, dprintf_bind_apply, kills_of_control hctl hup, if_neg (by simp),
    delivers_of_control hctl hup]
  rfl

end

/-- A line that meets the condition is handled, and means what it should. -/
theorem changes_line {u : Setup} {events : List SessionEvent} {S : Sessions} {e : SessionEvent}
    (hrun : (sessions u).run events = .ok S) (hC : ChangesFind u.server S e) :
    ChangesMean u.server S (S.step u.server e) e := by
  cases e with
  | line id line ans =>
    intro c hc hlog hup W hW hdir hunder command hcommand path hpath
    have hfinds := hC c hc hlog W hW hdir hunder command hcommand path hpath
    obtain ⟨⟨howns, -⟩, -⟩ := speaks_of_run hrun hc
    have hctl : S.world.os.desc c.clientSockfd = some (.control id) := howns.control
    have hroot : S.world.os.tree.NoLinks u.server.path := (placed_of_run hrun).root
    have hstep : S.step u.server (.line id line ans) = _ :=
      handleLine_of_executeCommand hc (parse_of_commandOf hcommand) fun command' h =>
        Option.some.inj h ▸ changesTo_ne_quit hpath
    rw [executeCommand_changes hlog hpath] at hstep
    unfold ChangeMeans
    cases hd : entered S.world.os.tree W path with
    | some d =>
      rw [changeDir_goes hW hroot hdir hfinds hd,
        answer_heard (by exact hctl) (by exact hup)] at hstep
      exact ⟨_, hstep, rfl, _, handled_stays .., rfl⟩
    | none =>
      have hrefuse : refuse .failedToChangeDirectory (Ctx.start S.world.os c) = _ :=
        answer_heard hctl hup .failedToChangeDirectory CommandStatus.failure
      rw [changeDir_refuses hW hfinds hd, hrefuse] at hstep
      exact ⟨_, hstep, rfl, _, handled_stays .., hW⟩
  | _ => trivial

/-! ## Runs -/

/-- **When `CWD` and `CDUP` go where they should.** In a run whose events all meet the
condition, every such line is handled as it is meant: the reply is 250 and the
connection's directory is the one the name means from its old directory, or the
root; or the reply is 550 and nothing is changed. -/
theorem changes_of_run (u : Setup) (events : List SessionEvent)
    (hmeets : (sessions u).Meets (ChangesFind u.server) events) :
    ∀ l₁ e l₂ S, events = l₁ ++ e :: l₂ → (sessions u).run l₁ = .ok S →
      ChangesMean u.server S (S.step u.server e) e := by
  rintro l₁ e l₂ S rfl hrun
  exact changes_line hrun ((Machine.meetsFrom_append.mp hmeets).2 S hrun).1

/-- A client in `/srv/ftp/pub` goes up. -/
theorem changes_of_run_up : ∃ S S',
    (sessions smallSetup).run (oneClient ["USER anonymous", "PASS", "CWD pub"]) = .ok S ∧
      S.step smallSetup.server (.line 0 (lit "CDUP") (.fine 7)) = .ok S' ∧
      S'.world.sent = S.world.sent ++ [(0, .directoryChanged)] ∧
      ∃ c, S'.conns 0 = some c ∧ c.workingDirectory = some [srv, ftp] := by
  obtain ⟨S, hrun, ⟨hany, hup⟩, hdir, hentered⟩ := Machine.exists_of_run (m := sessions smallSetup)
    (P := fun S => ((∃ c ∈ S.conns 0, c.loggedIn = true ∧ c.workingDirectory =
      some [srv, ftp, pub]) ∧
      S.world.os.hungup 0 = false) ∧ S.world.os.tree.isDir [srv, ftp, pub] = true ∧
        entered S.world.os.tree [srv, ftp, pub] (lit "..") = some [srv, ftp])
    (l := oneClient ["USER anonymous", "PASS", "CWD pub"]) (by decide +kernel)
  obtain ⟨c, hc, hlog, hW⟩ := hany
  obtain ⟨S', hstep, hmeans⟩ := changes_of_run smallSetup
    (oneClient ["USER anonymous", "PASS", "CWD pub"] ++ [.line 0 (lit "CDUP") (.fine 7)])
    (by decide +kernel) _ _ [] S rfl hrun c hc hlog hup _ hW hdir ⟨[pub], rfl⟩ ⟨lit "CDUP", []⟩
    (by decide) (lit "..") (by decide)
  unfold ChangeMeans at hmeans
  rw [hentered] at hmeans
  exact ⟨S, S', hrun, hstep, hmeans.1, hmeans.2⟩

/-- A client in `/srv/ftp/pub` is told that it is in `pub` there, which does not
exist. -/
theorem change_in_place : ∃ S S',
    (sessions smallSetup).Took
        (oneClient ["USER anonymous", "PASS", "CWD pub"] ++ [.line 0 (lit "CWD pub") (.fine 7)])
        S (.line 0 (lit "CWD pub") (.fine 7)) S' ∧
      (∃ c ∈ S.conns 0, c.loggedIn = true ∧ c.workingDirectory = some [srv, ftp, pub]) ∧
      S.world.os.tree.isDir [srv, ftp, pub] = true ∧
      S.world.os.tree.chdir [srv, ftp, pub] (lit "pub") = none ∧
      S'.world.sent = S.world.sent ++ [(0, .directoryChanged)] ∧
      ∃ c ∈ S'.conns 0, c.workingDirectory = some [srv, ftp, pub] :=
  Machine.exists_of_step (by decide +kernel)

end MyFtp.Server
