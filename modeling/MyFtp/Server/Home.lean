import MyFtp.Server.Children
import MyFtp.Server.Sessions

/-!
# Going back to the root

There is one current directory for all clients. The handlers that move are
meant to leave the process in the server's root, where the next line is looked
at — by `access`, by `opendir`, by a child that is forked. `DELE` does not go
back at all, `LIST` does not when its argument cannot be entered, and the others
do not when the root itself cannot.

> `home_of_run`: in a run in which none of this happens, the process stands in
> the root whenever a line has been handled.
-/

namespace MyFtp.Server

open MyFtp.Posix
open Prog

/-! ## Where the records point -/

/-- The record's directory is there, or was: it is no symbolic link. -/
def RecordPlaced (t : FileTree) (c : Connection) : Prop :=
  ∃ W, c.workingDirectory = some W ∧ t.NoLinks W

theorem RecordPlaced.later {t t' : FileTree} {c : Connection} (h : RecordPlaced t c)
    (hl : FileTree.Later t t') : RecordPlaced t' c := by
  obtain ⟨W, hW, hlinks⟩ := h
  exact ⟨W, hW, hlinks.later hl⟩

/-- The root and every record's directory are canonical paths without links. -/
structure Placed (server : ServerT) (S : Sessions) : Prop where
  root : S.world.os.tree.NoLinks server.path
  conns : ∀ id c, S.conns id = some c → RecordPlaced S.world.os.tree c

/-- The path name `change_dir` is called with for this command. -/
def Command.changesTo (command : Command) : Option CStr :=
  if command.word = lit "CWD" then if command.argc = 1 then command.argv.head? else none
  else if command.word = lit "CDUP" then some (lit "..")
  else none

/-- `CWD` and `CDUP` refuse, or call `change_dir`. -/
theorem change_cases {server : ServerT} {ans : Answers} {s s' : Ctx} {command : Command}
    {status : CommandStatus} (hword : command.word = lit "CWD" ∨ command.word = lit "CDUP")
    (h : executeCommand server ans (some command) s = (.ok status, s')) :
    s' = { s with out := s'.out } ∨
      ∃ path, command.changesTo = some path ∧ s.conn.loggedIn = true ∧
        changeDir server path s = (.ok status, s') := by
  rcases hword with hword | hword
  · rw [executeCommand_of_mem (by rw [hword]; exact List.mem_of_getElem? (i := 2) rfl)] at h
    rw [cwdCommand, conn_bind_apply] at h
    rcases guard_eq_ok h with h | ⟨hlog, h⟩
    · exact .inl h
    rcases guard_eq_ok h with h | ⟨hargc, h⟩
    · exact .inl h
    cases harg : command.argv.head? with
    | none =>
      rw [harg] at h
      cases h
    | some path =>
      rw [harg, deref_some, pure_bind_apply] at h
      refine .inr ⟨path, ?_, by simpa using hlog, h⟩
      rw [Command.changesTo, if_pos hword, if_pos (not_not.mp hargc), harg]
  · rw [executeCommand_of_mem (by rw [hword]; exact List.mem_of_getElem? (i := 3) rfl)] at h
    rw [cdupCommand, conn_bind_apply] at h
    rcases guard_eq_ok h with h | ⟨hlog, h⟩
    · exact .inl h
    refine .inr ⟨lit "..", ?_, by simpa using hlog, h⟩
    rw [Command.changesTo, if_neg (by rw [hword]; decide), if_pos hword]

/-- A line leaves the record pointing to a directory. -/
theorem placed_executeCommand {server : ServerT} {ans : Answers} {parsed : Option Command}
    {s s' : Ctx} {status : CommandStatus} (hs : RecordPlaced s.os.tree s.conn)
    (hroot : s.os.tree.NoLinks server.path)
    (h : executeCommand server ans parsed s = (.ok status, s')) :
    RecordPlaced s'.os.tree s'.conn := by
  have hl := later_of_executeCommand h
  have hsame : s'.conn.workingDirectory = s.conn.workingDirectory →
      RecordPlaced s'.os.tree s'.conn := by
    intro heq
    obtain ⟨W, hW, hlinks⟩ := hs
    exact ⟨W, heq.trans hW, hlinks.later hl⟩
  rcases word_cases parsed with hr | ⟨command, rfl, hw⟩ | ⟨command, rfl, hw⟩
  · exact hsame (by rw [((executeCommand_routine hr).after h).conn])
  · rcases change_cases hw h with h | ⟨path, -, -, h⟩
    · exact hsame (by rw [h])
    obtain ⟨W, hW, hlinks⟩ := hs
    rcases changeDir_eq_ok hW h with h | ⟨-, -, hdir, hs'⟩
    · exact hsame (by rw [h])
    obtain ⟨W', hW', hdir'⟩ := Ctx.settled_isDir hroot hdir
    rw [hs']
    exact ⟨W', hW', FileTree.noLinks_of_isDir hdir'⟩
  · exact hsame (by rw [((executeCommand_logs hw).after h).conn])

/-! ## The condition -/

/-- `DELE`, from the directory `W`: it is in the root already, or cannot leave
it. -/
def DeleReturns (server : ServerT) (s : Ctx) (W : Path) : Prop :=
  W = server.path ∨ ¬ s.os.tree.Enterable W

/-- `RETR`, from the directory `W`. -/
def RetrReturns (server : ServerT) (s : Ctx) (W : Path) : Prop :=
  s.os.tree.Enterable server.path ∨ W = server.path ∨ ¬ s.os.tree.Enterable W

/-- `CWD` and `CDUP`, from the directory `W`. -/
def ChangeReturns (server : ServerT) (s : Ctx) (W : Path) (path : CStr) : Prop :=
  s.os.tree.access s.os.cwd path = true → s.os.tree.opendir s.os.cwd path = true →
    s.os.tree.Enterable server.path ∨ s.target W path = server.path

/-- `LIST` with an argument, from the directory `W`. -/
def ListReturns (server : ServerT) (s : Ctx) (W : Path) (path : CStr) : Prop :=
  s.os.tree.access s.os.cwd path = true →
    (s.os.tree.chdir (s.wdFrom W) path = none → W = server.path ∨ ¬ s.os.tree.Enterable W) ∧
    ∀ d ∈ s.os.tree.chdir (s.wdFrom W) path, s.os.tree.Enterable server.path ∨ d = server.path

instance (server : ServerT) (s : Ctx) (W : Path) : Decidable (DeleReturns server s W) :=
  inferInstanceAs (Decidable (_ ∨ _))

instance (server : ServerT) (s : Ctx) (W : Path) : Decidable (RetrReturns server s W) :=
  inferInstanceAs (Decidable (_ ∨ _))

instance (server : ServerT) (s : Ctx) (W : Path) (path : CStr) :
    Decidable (ChangeReturns server s W path) :=
  inferInstanceAs (Decidable (_ → _))

instance (server : ServerT) (s : Ctx) (W : Path) (path : CStr) :
    Decidable (ListReturns server s W path) :=
  inferInstanceAs (Decidable (_ → _))

/-- What a command has to find for the process to be in the root afterwards. -/
def GoesBack (server : ServerT) (s : Ctx) (W : Path) (command : Command) : Prop :=
  (command.word = lit "DELE" → command.argc = 1 → DeleReturns server s W) ∧
  (command.word = lit "RETR" → s.conn.dataSocket ≠ none → command.argc = 1 →
    RetrReturns server s W) ∧
  (∀ path ∈ command.changesTo, ChangeReturns server s W path) ∧
  (command.word = lit "LIST" → s.conn.dataSocket ≠ none → ∀ path ∈ command.argv.head?,
    ListReturns server s W path)

instance (server : ServerT) (s : Ctx) (W : Path) (command : Command) :
    Decidable (GoesBack server s W command) :=
  inferInstanceAs (Decidable (_ ∧ _ ∧ _ ∧ _))

/-- The condition on an event. -/
def ReturnsHome (server : ServerT) (S : Sessions) : SessionEvent → Prop
  | .line id line _ => ∀ c ∈ S.conns id, c.loggedIn = true → ∀ W ∈ c.workingDirectory,
      ∀ command ∈ commandOf line, GoesBack server (Ctx.start S.world.os c) W command
  | _ => True

instance (server : ServerT) (S : Sessions) : ∀ e, Decidable (ReturnsHome server S e)
  | .line id .. => inferInstanceAs (Decidable (∀ c ∈ S.conns id, _))
  | .accept .. | .child .. | .hangup _ | .dataConnect _ => .isTrue trivial

/-! ## One line -/

section

variable {server : ServerT} {ans : Answers} {s s' : Ctx} {W : Path} {command : Command}
  {status : CommandStatus}

/-- The process stands in the root. -/
def AtHome (server : ServerT) (s : Ctx) : Prop := s.os.cwd = server.path

theorem AtHome.out (h : AtHome server s) (hs : s' = { s with out := s'.out }) :
    AtHome server s' := by
  rw [hs]
  exact h

theorem AtHome.wdFrom (h : AtHome server s) (hlinks : s.os.tree.NoLinks W)
    (hW : W = server.path ∨ ¬ s.os.tree.Enterable W) : s.wdFrom W = server.path := by
  rw [Ctx.wdFrom, FileTree.goto_pathStr_eq hlinks]
  split
  next henter => exact hW.resolve_right (not_not.mpr henter)
  next => exact h

theorem goto_root {t : FileTree} (hroot : t.NoLinks server.path) {d : Path}
    (hd : t.Enterable server.path ∨ d = server.path) :
    t.goto d (pathStr server.path) = server.path := by
  rw [FileTree.goto_pathStr_eq hroot]
  split
  next => rfl
  next hnot => exact hd.resolve_left hnot

theorem atHome_transfer (body : TransferBody) (command : Command) :
    Keeps (Preserves (AtHome server)) (executeDataSocketCommand ans body command) :=
  keeps_transfer (R := Preserves (AtHome server))
    (keeps_reply (fun s => Std.Refl.refl s) fun _ _ h => h) (fun _ _ h => h)
    (fun _ _ _ _ h => h) fun _ h => h

/-- The handlers that do not move at all. -/
theorem frame_atHome (server : ServerT) (ans : Answers) :
    Frame server ans [lit "DELE", lit "RETR", lit "LIST"] (Keeps (Preserves (AtHome server))) :=
  frame_of_syscalls (keeps_reply (fun s => Std.Refl.refl s) fun _ _ h => h) (by simp) (by simp)
    (fun _ _ h => h) (fun _ _ h => h) (fun _ _ _ _ h => h) fun _ _ _ _ h => h

/-- `DELE` stays where it went. -/
theorem atHome_dele (h₀ : AtHome server s) (hW : s.conn.workingDirectory = some W)
    (hlinks : s.os.tree.NoLinks W) (hC : s.conn.loggedIn = true → GoesBack server s W command)
    (hword : command.word = lit "DELE")
    (h : executeCommand server ans (some command) s = (.ok status, s')) : AtHome server s' := by
  rw [executeCommand_of_mem (by rw [hword]; exact List.mem_of_getElem? (i := 5) rfl)] at h
  rw [deleCommand, conn_bind_apply] at h
  rcases guard_eq_ok h with h | ⟨hlog, h⟩
  · exact h₀.out h
  rcases guard_eq_ok h with h | ⟨hargc, h⟩
  · exact h₀.out h
  have hwd := h₀.wdFrom hlinks ((hC (by simpa using hlog)).1 hword (not_not.mp hargc))
  cases harg : command.argv.head? with
  | none =>
    rw [harg] at h
    cases h
  | some path =>
    rw [harg, deref_some, pure_bind_apply, deleteFile_apply hW] at h
    cases hr : s.os.tree.remove (s.wdFrom W) path with
    | none =>
      rw [hr] at h
      rw [(refuse_eq_ok h).2]
      exact hwd
    | some t =>
      rw [hr] at h
      rw [(answer_eq_ok h).2]
      exact hwd

/-- `RETR` goes back, if it can. -/
theorem atHome_retr (h₀ : AtHome server s) (hroot : s.os.tree.NoLinks server.path)
    (hW : s.conn.workingDirectory = some W) (hlinks : s.os.tree.NoLinks W)
    (hC : s.conn.loggedIn = true → GoesBack server s W command)
    (hword : command.word = lit "RETR")
    (h : executeCommand server ans (some command) s = (.ok status, s')) : AtHome server s' := by
  rw [executeCommand_of_mem (by rw [hword]; exact List.mem_of_getElem? (i := 11) rfl)] at h
  rw [retrCommand, conn_bind_apply] at h
  rcases guard_eq_ok h with h | ⟨hlog, h⟩
  · exact h₀.out h
  rcases guard_eq_ok h with h | ⟨hdata, h⟩
  · exact h₀.out h
  rcases guard_eq_ok h with h | ⟨hargc, h⟩
  · exact h₀.out h
  have hback : s.os.tree.goto (s.wdFrom W) (pathStr server.path) = server.path := by
    refine goto_root hroot ?_
    exact ((hC (by simpa using hlog)).2.1 hword hdata (not_not.mp hargc)).imp id (h₀.wdFrom hlinks)
  cases harg : command.argv.head? with
  | none =>
    rw [harg] at h
    cases h
  | some path =>
    rw [harg, deref_some, pure_bind_apply] at h
    obtain ⟨b, s₁, hcheck, h⟩ := bind_eq_ok h
    have h₁ : AtHome server s₁ := by
      rw [checkFileExists_apply hW] at hcheck
      dsimp only at hcheck
      split at hcheck
      next =>
        rw [(answer_eq_ok hcheck).2]
        exact hback
      next =>
        rw [← (Prod.mk.inj hcheck).2]
        exact hback
    cases b with
    | true =>
      rw [if_pos rfl, pure_apply] at h
      rwa [← (Prod.mk.inj h).2]
    | false =>
      rw [if_neg (by simp)] at h
      exact (atHome_transfer .executeRetrCommand command).after h h₁

/-- `LIST` goes back from the directory it was asked for, but not when it did
not get there. -/
theorem atHome_checkListArgument {path : CStr} {b : Bool} (h₀ : AtHome server s)
    (hroot : s.os.tree.NoLinks server.path) (hW : s.conn.workingDirectory = some W)
    (hlinks : s.os.tree.NoLinks W)
    (hC : ListReturns server s W path)
    (h : checkListArgument server path s = (.ok b, s')) : AtHome server s' := by
  rw [checkListArgument, checkExists_bind_apply] at h
  by_cases hacc : s.os.tree.access s.os.cwd path = false
  · rw [if_pos hacc] at h
    rw [(answer_eq_ok h).2]
    exact h₀
  obtain ⟨hstay, hgo⟩ := hC (by simpa using hacc)
  rw [if_neg hacc, if_neg (by simp), checkDirectoryAccess_apply hW] at h
  cases hd : s.os.tree.chdir (s.wdFrom W) path with
  | none =>
    rw [hd] at h
    rw [(answer_eq_ok h).2]
    exact h₀.wdFrom hlinks (hstay hd)
  | some d =>
    have hback := goto_root hroot (hgo d hd)
    rw [hd] at h
    dsimp only at h
    split at h
    next => cases h
    next =>
      split at h
      next =>
        rw [← (Prod.mk.inj h).2]
        exact hback
      next =>
        rw [(answer_eq_ok h).2]
        exact hback

theorem atHome_list (h₀ : AtHome server s) (hroot : s.os.tree.NoLinks server.path)
    (hW : s.conn.workingDirectory = some W) (hlinks : s.os.tree.NoLinks W)
    (hC : s.conn.loggedIn = true → GoesBack server s W command)
    (hword : command.word = lit "LIST")
    (h : executeCommand server ans (some command) s = (.ok status, s')) : AtHome server s' := by
  rw [executeCommand_of_mem (by rw [hword]; exact List.mem_of_getElem? (i := 13) rfl)] at h
  rw [listCommand, conn_bind_apply] at h
  rcases guard_eq_ok h with h | ⟨hlog, h⟩
  · exact h₀.out h
  rcases guard_eq_ok h with h | ⟨hdata, h⟩
  · exact h₀.out h
  have hgo : ∀ {s₁ : Ctx}, AtHome server s₁ →
      executeDataSocketCommand ans .executeLsCommand command s₁ = (.ok status, s') →
        AtHome server s' := by
    intro s₁ h₁ ht
    exact (atHome_transfer .executeLsCommand command).after ht h₁
  cases harg : command.argv.head? with
  | none =>
    rw [harg] at h
    exact hgo h₀ h
  | some path =>
    rw [harg] at h
    obtain ⟨b, s₁, hcheck, h⟩ := bind_eq_ok h
    have h₁ := atHome_checkListArgument h₀ hroot hW hlinks
      ((hC (by simpa using hlog)).2.2.2 hword hdata path harg) hcheck
    cases b with
    | true =>
      rw [if_pos rfl, pure_apply] at h
      rwa [← (Prod.mk.inj h).2]
    | false =>
      rw [if_neg (by simp)] at h
      exact hgo h₁ h

theorem atHome_change (h₀ : AtHome server s) (hroot : s.os.tree.NoLinks server.path)
    (hW : s.conn.workingDirectory = some W)
    (hC : s.conn.loggedIn = true → GoesBack server s W command)
    (hword : command.word = lit "CWD" ∨ command.word = lit "CDUP")
    (h : executeCommand server ans (some command) s = (.ok status, s')) : AtHome server s' := by
  rcases change_cases hword h with h | ⟨path, hpath, hlog, h⟩
  · exact h₀.out h
  rcases changeDir_eq_ok hW h with h | ⟨hacc, hopen, -, hs'⟩
  · exact h₀.out h
  rw [hs']
  exact goto_root hroot ((hC hlog).2.2.1 path hpath hacc hopen)

/-- A line that meets the condition is handled from the root to the root. -/
theorem atHome_executeCommand {parsed : Option Command} (h₀ : AtHome server s)
    (hroot : s.os.tree.NoLinks server.path) (hW : s.conn.workingDirectory = some W)
    (hlinks : s.os.tree.NoLinks W)
    (hC : s.conn.loggedIn = true → ∀ command, parsed = some command → GoesBack server s W command)
    (h : executeCommand server ans parsed s = (.ok status, s')) : AtHome server s' := by
  by_cases hmoves : ∃ command, parsed = some command ∧
      command.word ∈ [lit "CWD", lit "CDUP", lit "DELE", lit "RETR", lit "LIST"]
  · obtain ⟨command, rfl, hw⟩ := hmoves
    have hC' := fun hlog => hC hlog command rfl
    simp only [List.mem_cons, List.not_mem_nil, or_false] at hw
    rcases hw with hw | hw | hw | hw | hw
    · exact atHome_change h₀ hroot hW hC' (.inl hw) h
    · exact atHome_change h₀ hroot hW hC' (.inr hw) h
    · exact atHome_dele h₀ hW hlinks hC' hw h
    · exact atHome_retr h₀ hroot hW hlinks hC' hw h
    · exact atHome_list h₀ hroot hW hlinks hC' hw h
  · rcases word_cases parsed with hr | ⟨command, rfl, hw⟩ | ⟨command, rfl, hw⟩
    · have := (frame_atHome server ans).executeCommand (fun command hc =>
        ⟨hr command hc, fun hmem => hmoves
          ⟨command, hc, List.mem_cons_of_mem _ (List.mem_cons_of_mem _ hmem)⟩⟩) s h₀
      rwa [h] at this
    · refine absurd ⟨command, rfl, ?_⟩ hmoves
      rcases hw with hw | hw
      · rw [hw]
        exact List.mem_cons_self
      · rw [hw]
        exact List.mem_cons_of_mem _ List.mem_cons_self
    · rw [AtHome, ((executeCommand_logs hw).after h).os]
      exact h₀

end

/-! ## Runs -/

/-- No step creates a directory or a link. -/
theorem later_of_step {server : ServerT} {S S' : Sessions} {e : SessionEvent}
    (h : S.step server e = .ok S') : FileTree.Later S.world.os.tree S'.world.os.tree := by
  cases e with
  | accept fd addr served =>
    obtain ⟨⟨c, w⟩, hacc, rfl⟩ := map_eq_ok h
    obtain ⟨-, -, rfl⟩ := World.accept_eq_ok hacc
    exact FileTree.later_refl _
  | line id line ans =>
    obtain ⟨c, parsed, hc, -, ⟨status, s, hx, -, rfl⟩ | ⟨command, -, -, rfl⟩⟩ := handleLine_eq_ok h
    · exact later_of_executeCommand hx
    · exact FileTree.later_refl _
  | child k cans =>
    obtain ⟨w, hw, rfl⟩ := map_eq_ok h
    obtain ⟨id, child, s, hk, hs, rfl⟩ := World.runChild_eq_ok hw
    rw [hs]
    exact run_later (s := Ctx.start _ child.connection) child.body
  | hangup id =>
    obtain rfl := Except.ok.inj h
    exact FileTree.later_refl _
  | dataConnect fd =>
    obtain ⟨w, hw, rfl⟩ := map_eq_ok h
    obtain ⟨pending, -, rfl⟩ := World.dataConnect_eq_ok hw
    exact FileTree.later_refl _

/-- What handling a line or tearing a session down leaves of the record of a
client and of the current directory. -/
theorem Placed.step {u : Setup} {S S' : Sessions} {e : SessionEvent} (hS : Placed u.server S)
    (h : S.step u.server e = .ok S') : Placed u.server S' := by
  have hl : FileTree.Later S.world.os.tree S'.world.os.tree := later_of_step h
  refine ⟨hS.root.later hl, fun id c hc => ?_⟩
  rcases record_cases h hc with ⟨hold, -⟩ | ⟨-, fd, addr, -, rfl⟩ |
    ⟨line, ans, c₀, parsed, status, s, -, hc₀, -, hx, rfl, hworld⟩
  · exact (hS.conns id c hold).later hl
  · exact ⟨u.server.path, rfl, hS.root.later hl⟩
  · rw [hworld]
    exact placed_executeCommand (s := Ctx.start S.world.os c₀) (hS.conns id c₀ hc₀) hS.root hx

/-- In every reachable state each record points to what is, or was, a
directory. -/
theorem placed_of_run {u : Setup} {events : List SessionEvent} {S : Sessions}
    (h : (sessions u).run events = .ok S) : Placed u.server S := by
  refine Machine.run_invariant (m := sessions u)
    (I := fun _ S => Placed u.server S) ?_ ?_ events S h
  · exact ⟨FileTree.noLinks_of_isDir u.root, fun _ _ hc => by cases hc⟩
  · intro _ _ _ _ hS hstep
    exact hS.step hstep

/-- One step that meets the condition, from the root. -/
theorem home_step {u : Setup} {S S' : Sessions} {e : SessionEvent} (hS : Placed u.server S)
    (hhome : S.world.os.cwd = u.server.path) (hC : ReturnsHome u.server S e)
    (h : S.step u.server e = .ok S') : S'.world.os.cwd = u.server.path := by
  cases e with
  | accept fd addr served =>
    obtain ⟨⟨c, w⟩, hacc, rfl⟩ := map_eq_ok h
    obtain ⟨-, -, rfl⟩ := World.accept_eq_ok hacc
    exact hhome
  | line id line ans =>
    obtain ⟨c, parsed, hc, hparse, ⟨status, s, hx, -, rfl⟩ | ⟨command, -, -, rfl⟩⟩ :=
      handleLine_eq_ok h
    · obtain ⟨W, hW, hlinks⟩ := hS.conns id c hc
      refine atHome_executeCommand (s := Ctx.start S.world.os c) hhome hS.root hW hlinks ?_ hx
      intro hlog command hcom
      exact hC c hc hlog W hW command ((commandOf_of_parse hparse).trans hcom)
    · exact hhome
  | child k cans =>
    obtain ⟨w, hw, rfl⟩ := map_eq_ok h
    obtain ⟨id, child, s, -, -, rfl⟩ := World.runChild_eq_ok hw
    exact hhome
  | hangup id =>
    obtain rfl := Except.ok.inj h
    exact hhome
  | dataConnect fd =>
    obtain ⟨w, hw, rfl⟩ := map_eq_ok h
    obtain ⟨pending, -, rfl⟩ := World.dataConnect_eq_ok hw
    exact hhome

/-- In a run whose steps all meet the condition the process stands in the root
after each of them. -/
theorem home_of_run {u : Setup} {events : List SessionEvent} {S : Sessions}
    (hmeets : (sessions u).Meets (ReturnsHome u.server) events)
    (hrun : (sessions u).run events = .ok S) : S.world.os.cwd = u.server.path := by
  have key : Placed u.server S ∧ S.world.os.cwd = u.server.path := by
    refine Machine.run_invariant_of_meets (m := sessions u) (C := ReturnsHome u.server)
      (I := fun _ S => Placed u.server S ∧ S.world.os.cwd =
        u.server.path) ?_ ?_ events S hmeets hrun
    · have hinit : (sessions u).run [] = .ok (sessions u).init := rfl
      exact ⟨placed_of_run hinit, rfl⟩
    · intro _ _ _ _ hI hC hstep
      exact ⟨hI.1.step hstep, home_step hI.1 hI.2 hC hstep⟩
  exact key.2

end MyFtp.Server
