import MyFtp.Posix.Lexical
import MyFtp.Server.Home

/-!
# Files outside the root

`LIST` and `CWD` look at where they got to. `RETR`, `STOR` and `DELE` do not: they
open or remove whatever the name they are given leads to.

> `acts_below_of_run`: in a tree without symbolic links, a run in which the names
> that lead to something are spelled below the root reads, writes and removes
> nothing outside it.
-/

namespace MyFtp.Server

open MyFtp.Posix
open Prog

/-! ## The condition -/

/-- The name is spelled below the root, read from the directory `d`. -/
def SpelledBelow (server : ServerT) (d : Path) (f : CStr) : Prop :=
  StrictlyBelow server.path (spelled d f)

instance (server : ServerT) (d : Path) (f : CStr) : Decidable (SpelledBelow server d f) :=
  inferInstanceAs (Decidable (StrictlyBelow _ _))

/-- A `DELE` that removes something has a name below the root. -/
def DelesBelow (server : ServerT) (s : Ctx) (W : Path) (command : Command) : Prop :=
  command.word = lit "DELE" → command.argc = 1 → ∀ f ∈ command.argv.head?,
    s.os.tree.removable (s.wdFrom W) f ≠ none → SpelledBelow server (s.wdFrom W) f

instance (server : ServerT) (s : Ctx) (W : Path) (command : Command) :
    Decidable (DelesBelow server s W command) :=
  inferInstanceAs (Decidable (_ → _ → _))

/-- So has a child that opens a file for writing, or has something to send. -/
def TransfersBelow (server : ServerT) (t : FileTree) (child : Child) : Prop :=
  ∀ f ∈ child.command.argv.head?,
    (child.body = .executeStorCommand → t.openWrite child.cwd f ≠ none →
      SpelledBelow server child.cwd f) ∧
    (child.body = .executeRetrCommand → ∀ W ∈ child.connection.workingDirectory,
      readable (t.openRead (t.goto child.cwd (pathStr W)) f) ≠ [] →
        SpelledBelow server (t.goto child.cwd (pathStr W)) f)

instance (server : ServerT) (t : FileTree) (child : Child) :
    Decidable (TransfersBelow server t child) := by
  unfold TransfersBelow
  infer_instance

/-- The condition on an event. -/
def NamesBelow (server : ServerT) (S : Sessions) : SessionEvent → Prop
  | .line id line _ => ∀ c ∈ S.conns id, c.loggedIn = true → ∀ W ∈ c.workingDirectory,
      ∀ command ∈ commandOf line, DelesBelow server (Ctx.start S.world.os c) W command
  | .child k _ => ∀ child ∈ S.world.children[k]?, TransfersBelow server S.world.os.tree child.2
  | _ => True

instance (server : ServerT) (S : Sessions) : ∀ e, Decidable (NamesBelow server S e)
  | .line id .. => inferInstanceAs (Decidable (∀ c ∈ S.conns id, _))
  | .child k _ => inferInstanceAs (Decidable (∀ child ∈ S.world.children[k]?, _))
  | .accept .. | .hangup _ | .dataConnect _ => .isTrue trivial

/-- What a step does to files it does below the root: nothing else is written or removed,
and what is sent is read there. -/
structure ActsBelow (server : ServerT) (S S' : Sessions) : Prop where
  files : ∀ p, ¬ StrictlyBelow server.path p →
    S'.world.os.tree.lookup p = S.world.os.tree.lookup p
  sent : ∀ id l, (id, .bytes l) ∈ S'.world.data → (id, .bytes l) ∈ S.world.data ∨
    ∃ p perm content, StrictlyBelow server.path p ∧
      S.world.os.tree.lookup p = some (.file perm content) ∧
        ∃ chunk ∈ chunks 1023 content, l = cstr chunk

/-! ## A line -/

section

variable {server : ServerT} {ans : Answers} {cans : ChildAnswers} {command : Command} {s s' : Ctx}
  {W : Path} {status : CommandStatus} {parsed : Option Command}

/-- All handlers but that of `DELE` leave the files alone, and send nothing. -/
theorem frame_idle (server : ServerT) (ans : Answers) :
    Frame server ans [lit "DELE"] (Keeps Idle) := by
  refine frame_of_syscalls idle_reply (fun _ => idle_chdir) (fun hdele => ?_) ?_ ?_ ?_ ?_
  · exact absurd (List.mem_singleton.mpr rfl) hdele
  · exact fun _ _ => ⟨rfl, rfl⟩
  · exact fun _ _ => ⟨rfl, rfl⟩
  · exact fun _ _ _ _ => ⟨rfl, rfl⟩
  · exact fun _ _ _ _ => ⟨rfl, rfl⟩

theorem executeCommand_idle (hword : ∀ command, parsed = some command → command.word ≠ lit "DELE") :
    Keeps Idle (executeCommand server ans parsed) := by
  intro s
  rcases word_cases parsed with hown | ⟨command, rfl, hdir⟩ | ⟨command, rfl, hlog⟩
  · exact (frame_idle server ans).executeCommand
      (fun command hc => ⟨hown command hc, by simpa using hword command hc⟩) s
  · have hr : Relocates s (executeCommand server ans (some command) s).2 :=
      executeCommand_relocates hdir s
    exact ⟨by rw [hr.os], hr.data⟩
  · have hr : Logs s (executeCommand server ans (some command) s).2 := executeCommand_logs hlog s
    exact ⟨by rw [hr.os], hr.data⟩

/-- `DELE` takes out what its name leads to. -/
theorem deleCommand_leaves (hW : s.conn.workingDirectory = some W)
    (h : deleCommand command s = (.ok status, s')) :
    s'.data = s.data ∧ (s'.os.tree = s.os.tree ∨ ∃ f p, s.conn.loggedIn = true ∧
      command.argc = 1 ∧ command.argv.head? = some f ∧
        s.os.tree.removable (s.wdFrom W) f = some p ∧ s'.os.tree = s.os.tree.drop p) := by
  unfold deleCommand at h
  rw [conn_bind_apply] at h
  have hrefuse : ∀ {r : Reply} (s₁ : Ctx), Idle s s₁ → refuse r s₁ = (.ok status, s') →
      s'.data = s.data ∧ s'.os.tree = s.os.tree := by
    intro r s₁ hidle hr
    rw [(refuse_eq_ok hr).2]
    exact ⟨hidle.2, hidle.1⟩
  by_cases hlog : s.conn.loggedIn = false
  · rw [if_pos hlog] at h
    obtain ⟨hdata, htree⟩ := hrefuse s (Std.Refl.refl s) h
    exact ⟨hdata, .inl htree⟩
  rw [if_neg hlog] at h
  by_cases hargc : command.argc = 1
  · rw [if_neg (not_not.mpr hargc)] at h
    cases hf : command.argv.head? with
    | none =>
      rw [hf] at h
      cases h
    | some f =>
      rw [hf, deref_some, pure_bind_apply, deleteFile_apply hW, FileTree.remove] at h
      cases hp : s.os.tree.removable (s.wdFrom W) f with
      | none =>
        rw [hp] at h
        obtain ⟨hdata, htree⟩ := hrefuse (s.inDir (s.wdFrom W)) ⟨rfl, rfl⟩ h
        exact ⟨hdata, .inl htree⟩
      | some p =>
        rw [hp] at h
        rw [(answer_eq_ok h).2]
        exact ⟨rfl, .inr ⟨f, p, by simpa using hlog, hargc, rfl, hp, rfl⟩⟩
  · rw [if_pos hargc] at h
    obtain ⟨hdata, htree⟩ := hrefuse s (Std.Refl.refl s) h
    exact ⟨hdata, .inl htree⟩

/-- A line that meets the condition changes nothing outside the root. -/
theorem executeCommand_below (hfree : s.os.tree.LinkFree) (hW : s.conn.workingDirectory = some W)
    (hC : s.conn.loggedIn = true → ∀ command, parsed = some command → DelesBelow server s W command)
    (h : executeCommand server ans parsed s = (.ok status, s')) :
    s'.data = s.data ∧ ∀ p, ¬ StrictlyBelow server.path p →
      s'.os.tree.lookup p = s.os.tree.lookup p := by
  by_cases hdele : ∃ command, parsed = some command ∧ command.word = lit "DELE"
  · obtain ⟨command, rfl, hword⟩ := hdele
    rw [executeCommand_of_mem (by rw [hword]; exact List.mem_of_getElem? (i := 5) rfl)] at h
    obtain ⟨hdata, htree | ⟨f, q, hlog, hargc, hf, hq, htree⟩⟩ := deleCommand_leaves hW h
    · exact ⟨hdata, fun p _ => by rw [htree]⟩
    · refine ⟨hdata, fun p hp => ?_⟩
      rw [htree]
      refine FileTree.lookup_drop_of_ne ?_
      -- what was removed is below the root, and `p` is not
      rintro rfl
      have hbelow := hC hlog command rfl hword hargc f hf (by rw [hq]; simp)
      unfold SpelledBelow at hbelow
      rw [← FileTree.removable_spelled hfree hq] at hbelow
      exact hp hbelow
  · have hidle : Idle s s' := (executeCommand_idle fun command hc hword =>
      hdele ⟨command, hc, hword⟩).after h
    exact ⟨hidle.2, fun p _ => by rw [hidle.1]⟩

/-! ## A child -/

/-- The files stay, and what is sent has the property `P`. -/
def SendsOnly (P : DataItem → Prop) (s s' : Ctx) : Prop :=
  s'.os.tree = s.os.tree ∧ ∀ item ∈ s'.data, item ∈ s.data ∨ P item

section

variable {P : DataItem → Prop}

instance : Std.Refl (SendsOnly P) := ⟨fun _ => ⟨rfl, fun _ h => .inl h⟩⟩

instance : IsTrans Ctx (SendsOnly P) := ⟨by
  intro a b c h h'
  refine ⟨h'.1.trans h.1, fun item hitem => ?_⟩
  rcases h'.2 item hitem with hold | hnew
  · exact h.2 item hold
  · exact .inr hnew⟩

theorem Idle.sendsOnly (h : Idle s s') : SendsOnly P s s' :=
  ⟨h.1, fun item hitem => .inl (by rwa [h.2] at hitem)⟩

theorem sendsOnly_reply (r : Reply) : Keeps (SendsOnly P) (reply r) :=
  fun s => (idle_reply r s).sendsOnly

theorem sendsOnly_chdir (path : CStr) : Keeps (SendsOnly P) (chdir path) :=
  fun s => (idle_chdir path s).sendsOnly

theorem sendsOnly_dataDprintf {item : DataItem} (h : P item) :
    Keeps (SendsOnly P) (dataDprintf cans item) := by
  intro s
  have hprint : (dataDprintf cans item s).2 = s ∨ _ := dataDprintf_leaves item s
  rcases hprint with hs | hs
  · rw [hs]
    exact Std.Refl.refl s
  · rw [hs]
    refine ⟨rfl, fun item' hitem => ?_⟩
    rcases List.mem_append.mp hitem with hold | hnew
    · exact .inl hold
    · rw [List.mem_singleton.mp hnew]
      exact .inr h

theorem sendsOnly_sendChunks {l : List (List Byte)} (h : ∀ chunk ∈ l, P (.bytes (cstr chunk))) :
    Keeps (SendsOnly P) (sendChunks cans l) := by
  induction l with
  | nil => exact keeps_pure _
  | cons chunk rest ih =>
    rw [List.forall_mem_cons] at h
    exact (sendsOnly_dataDprintf h.1).bind fun _ => ih h.2

end

/-- A listing sends listings. -/
theorem executeLsCommand_sendsOnly :
    Keeps (SendsOnly fun item => ∃ dir tree, item = .listing dir tree)
      (executeLsCommand server cans command) := by
  have hgoto : Keeps (SendsOnly fun item => ∃ dir tree, item = .listing dir tree)
      (gotoPath command) :=
    keeps_conn.bind fun _ => (keeps_deref _).bind fun _ => (sendsOnly_chdir _).bind fun _ =>
      (sendsOnly_chdir _).bind fun _ =>
        Keeps.ite (fun _ => keeps_refuse sendsOnly_reply _) fun _ => keeps_pure _
  have hlist : Keeps (SendsOnly fun item => ∃ dir tree, item = .listing dir tree)
      (listDirectory cans) :=
    Keeps.ite (fun _ => keeps_refuse sendsOnly_reply _) fun _ =>
      (sendsOnly_reply _).bind fun _ => (keeps_gets _).bind fun _ =>
        (sendsOnly_dataDprintf ⟨_, _, rfl⟩).bind fun _ => keeps_pure _
  exact hgoto.bind fun _ => Keeps.ite (fun _ => keeps_pure _) fun _ =>
    hlist.bind fun _ => Keeps.ite (fun _ => keeps_pure _) fun _ =>
      (sendsOnly_chdir _).bind fun _ => (sendsOnly_reply _).bind fun _ => keeps_pure _

/-- `execute_retr_command` sends pieces of the file its name opens from the connection's
directory, however far it gets. -/
theorem executeRetrCommand_sendsOnly (s : Ctx) :
    SendsOnly (fun item => ∃ W f, s.conn.workingDirectory = some W ∧
      command.argv.head? = some f ∧ ∃ chunk ∈
        chunks 1023 (readable (s.os.tree.openRead (s.wdFrom W) f)), item = .bytes (cstr chunk))
      s (executeRetrCommand server cans command s).2 := by
  unfold executeRetrCommand
  rw [reply_bind_apply, dprintf_bind_apply]
  split
  next => exact Std.Refl.refl s
  next =>
    rw [conn_bind_apply]
    dsimp only
    cases hW : s.conn.workingDirectory with
    | none => exact ⟨rfl, fun _ hitem => .inl hitem⟩
    | some W =>
      rw [deref_some, pure_bind_apply, chdir_bind_apply]
      cases hf : command.argv.head? with
      | none => exact ⟨rfl, fun _ hitem => .inl hitem⟩
      | some f =>
        rw [deref_some, pure_bind_apply, fopenRead, gets_bind_apply, chdir_bind_apply]
        dsimp only
        rw [← Ctx.wdFrom]
        -- the state in which the file is sent
        refine IsTrans.trans _ { s.inDir (s.os.tree.goto (s.wdFrom W) (pathStr server.path)) with
          out := s.out ++ s.os.delivers s.conn.clientSockfd .openingBinary } _
          (Idle.sendsOnly ⟨rfl, rfl⟩) ?_
        cases hopen : s.os.tree.openRead (s.wdFrom W) f with
        | none => exact keeps_refuse sendsOnly_reply _ _
        | some opened =>
          cases opened with
          | directory => exact ((sendsOnly_reply _).bind fun _ => keeps_pure _) _
          | regular p content =>
            refine ((sendsOnly_sendChunks fun chunk hchunk => ?_).bind fun _ =>
              (sendsOnly_reply _).bind fun _ => keeps_pure _) _
            refine ⟨W, f, rfl, rfl, chunk, ?_, rfl⟩
            rw [hopen]
            exact hchunk

/-- Nothing is sent. -/
def SendsNothing (s s' : Ctx) : Prop := s'.data = s.data

instance : Std.Refl SendsNothing := ⟨fun _ => rfl⟩

instance : IsTrans Ctx SendsNothing := ⟨fun _ _ _ h h' => Eq.trans h' h⟩

/-- `execute_stor_command` sends nothing. -/
theorem executeStorCommand_sendsNothing :
    Keeps SendsNothing (executeStorCommand cans command) := by
  have hreply : ∀ r, Keeps SendsNothing (reply r) := fun r s => (idle_reply r s).2
  have hwrite : ∀ target content, Keeps SendsNothing (fwriteAll target content) :=
    fun _ _ _ => rfl
  have hopen : ∀ path, Keeps SendsNothing (fopenWrite path) := by
    intro path s
    unfold fopenWrite
    split
    next => rfl
    next => rfl
  refine (keeps_deref _).bind fun _ => (hopen _).bind fun _ => (hreply _).bind fun _ => ?_
  split
  next => exact keeps_refuse hreply _
  next =>
    exact (hwrite _ _).bind fun _ => (hreply _).bind fun _ =>
      Keeps.ite (fun _ => (hwrite _ _).bind fun _ => keeps_pure _) fun _ => keeps_pure _

/-- A child that meets the condition changes nothing outside the root, and sends what it
reads below it. -/
theorem child_below (cans : ChildAnswers) {child : Child} {s : Ctx} (hfree : s.os.tree.LinkFree)
    (hC : TransfersBelow server s.os.tree child) (hcwd : s.os.cwd = child.cwd)
    (hconn : s.conn = child.connection) :
    (∀ p, ¬ StrictlyBelow server.path p →
      (child.body.run server cans child.command s).2.os.tree.lookup p = s.os.tree.lookup p) ∧
    ∀ l, .bytes l ∈ (child.body.run server cans child.command s).2.data → .bytes l ∈ s.data ∨
      ∃ p perm content, StrictlyBelow server.path p ∧
        s.os.tree.lookup p = some (.file perm content) ∧
          ∃ chunk ∈ chunks 1023 content, l = cstr chunk := by
  cases hbody : child.body with
  | executeLsCommand =>
    have hsends : SendsOnly (fun item => ∃ dir tree, item = .listing dir tree) s
        (executeLsCommand server cans child.command s).2 := executeLsCommand_sendsOnly s
    obtain ⟨htree, hdata⟩ := hsends
    refine ⟨fun p _ => congrArg (FileTree.lookup · p) htree, fun l hl => .inl ?_⟩
    rcases hdata _ hl with hold | ⟨dir, tree, hlist⟩
    · exact hold
    · cases hlist
  | executeRetrCommand =>
    have hsends : SendsOnly _ s (executeRetrCommand server cans child.command s).2 :=
      executeRetrCommand_sendsOnly s
    obtain ⟨htree, hdata⟩ := hsends
    refine ⟨fun p _ => congrArg (FileTree.lookup · p) htree, fun l hl => ?_⟩
    rcases hdata _ hl with hold | ⟨W, f, hW, hf, chunk, hchunk, hitem⟩
    · exact .inl hold
    · refine .inr ?_
      cases hitem
      have hfrom : s.wdFrom W = s.os.tree.goto child.cwd (pathStr W) := by rw [Ctx.wdFrom, hcwd]
      rw [hfrom] at hchunk
      rw [hconn] at hW
      have hne : readable (s.os.tree.openRead (s.os.tree.goto child.cwd (pathStr W)) f) ≠ [] := by
        intro hnil
        rw [hnil] at hchunk
        exact List.not_mem_nil hchunk
      have hbelow := (hC f hf).2 hbody W hW hne
      cases hopen : s.os.tree.openRead (s.os.tree.goto child.cwd (pathStr W)) f with
      | none =>
        rw [hopen] at hne
        exact absurd rfl hne
      | some opened =>
        cases opened with
        | directory =>
          rw [hopen] at hne
          exact absurd rfl hne
        | regular p content =>
          obtain ⟨hp, perm, hlookup⟩ := FileTree.openRead_spelled hfree hopen
          unfold SpelledBelow at hbelow
          rw [← hp] at hbelow
          rw [hopen] at hchunk
          exact ⟨p, perm, content, hbelow, hlookup, chunk, hchunk, rfl⟩
  | executeStorCommand =>
    have hnothing : SendsNothing s (executeStorCommand cans child.command s).2 :=
      executeStorCommand_sendsNothing s
    refine ⟨fun p hp => ?_, fun l hl => .inl ?_⟩
    · show (executeStorCommand cans child.command s).2.os.tree.lookup p = _
      cases hf : child.command.argv.head? with
      | none =>
        unfold executeStorCommand
        rw [hf]
        rfl
      | some f =>
        rw [executeStorCommand_tree hf, hcwd]
        cases hopen : s.os.tree.openWrite child.cwd f with
        | none => rfl
        | some target =>
          refine FileTree.lookup_store_of_ne ?_
          rintro rfl
          have hbelow := (hC f hf).1 hbody (by rw [hopen]; simp)
          unfold SpelledBelow at hbelow
          rw [← FileTree.openWrite_spelled hfree hopen] at hbelow
          exact hp hbelow
    · rw [← hnothing]
      exact hl

end

/-! ## Runs -/

section

variable {u : Setup} {events : List SessionEvent} {S S' : Sessions} {e : SessionEvent}

theorem linkFree_of_run (hlinks : u.tree.LinkFree) (h : (sessions u).run events = .ok S) :
    S.world.os.tree.LinkFree :=
  Machine.run_invariant (m := sessions u) (I := fun _ S => S.world.os.tree.LinkFree) hlinks
    (fun _ _ _ _ hS hstep => hS.later (later_of_step hstep)) events S h

/-- One step that meets the condition. -/
theorem actsBelow_step (hfree : S.world.os.tree.LinkFree) (hS : Placed u.server S)
    (hC : NamesBelow u.server S e) (h : S.step u.server e = .ok S') : ActsBelow u.server S S' := by
  cases e with
  | accept fd addr served =>
    obtain ⟨⟨c, w⟩, hacc, rfl⟩ := map_eq_ok h
    obtain ⟨-, -, rfl⟩ := World.accept_eq_ok hacc
    exact ⟨fun _ _ => rfl, fun _ _ hl => .inl hl⟩
  | line id line ans =>
    obtain ⟨c, parsed, hc, hparse, ⟨status, s, hx, -, rfl⟩ | ⟨command, -, -, rfl⟩⟩ :=
      handleLine_eq_ok h
    · obtain ⟨W, hW, -⟩ := hS.conns id c hc
      obtain ⟨hdata, hfiles⟩ := executeCommand_below (s := Ctx.start S.world.os c) hfree hW
        (fun hlog command hcommand =>
          hC c hc hlog W hW command ((commandOf_of_parse hparse).trans hcommand)) hx
      refine ⟨hfiles, fun id' l hl => .inl ?_⟩
      have hsame : S.world.data ++ s.data.map (id, ·) = S.world.data := by
        rw [hdata]
        exact List.append_nil _
      rw [← hsame]
      exact hl
    · refine ⟨fun _ _ => rfl, fun id' l hl => .inl ?_⟩
      simpa [Sessions.handled, World.merge, Ctx.goodbye, Ctx.start] using hl
  | child k cans =>
    obtain ⟨w, hw, rfl⟩ := map_eq_ok h
    obtain ⟨id, child, s, hk, hs, rfl⟩ := World.runChild_eq_ok hw
    have hchild : (∀ p, ¬ StrictlyBelow u.server.path p → _) ∧ _ := child_below cans
      (s := Ctx.start { S.world.os with cwd := child.cwd, desc := child.desc } child.connection)
      hfree (hC (id, child) hk) rfl rfl
    rw [← hs] at hchild
    refine ⟨hchild.1, fun id' l hl => ?_⟩
    rcases List.mem_append.mp hl with hold | hnew
    · exact .inl hold
    · obtain ⟨item, hitem, heq⟩ := List.mem_map.mp hnew
      cases heq
      rcases hchild.2 l hitem with hold | hread
      · cases hold
      · exact .inr hread
  | hangup id =>
    obtain rfl := Except.ok.inj h
    exact ⟨fun _ _ => rfl, fun _ _ hl => .inl hl⟩
  | dataConnect fd =>
    obtain ⟨w, hw, rfl⟩ := map_eq_ok h
    obtain ⟨pending, -, rfl⟩ := World.dataConnect_eq_ok hw
    exact ⟨fun _ _ => rfl, fun _ _ hl => .inl hl⟩

end

/-- **When nothing is touched outside the root.** In a tree without symbolic links, and
a run in which every name that removes something, opens a file for writing or has
something to send is spelled below the root, every step reads and changes files below
the root only; so outside it the tree is the one the server started with. -/
theorem acts_below_of_run (u : Setup) (hlinks : u.tree.LinkFree) (events : List SessionEvent)
    (S : Sessions) (hrun : (sessions u).run events = .ok S)
    (hmeets : (sessions u).Meets (NamesBelow u.server) events) :
    (∀ S₁ e S₂, (sessions u).Took events S₁ e S₂ → ActsBelow u.server S₁ S₂) ∧
      ∀ p, ¬ StrictlyBelow u.server.path p →
        S.world.os.tree.lookup p = u.tree.lookup p := by
  refine ⟨fun S₁ e S₂ htook => ?_, ?_⟩
  · have hC := htook.meets hmeets
    obtain ⟨l₁, l₂, -, hrun₁, hstep⟩ := htook
    exact actsBelow_step (linkFree_of_run hlinks hrun₁) (placed_of_run hrun₁) hC hstep
  · intro p hp
    have hboth : S.world.os.tree.LinkFree ∧ Placed u.server S ∧
        S.world.os.tree.lookup p = u.tree.lookup p := by
      refine Machine.run_invariant_of_meets (m := sessions u) (C := NamesBelow u.server)
        (I := fun _ S => S.world.os.tree.LinkFree ∧ Placed u.server S ∧
          S.world.os.tree.lookup p = u.tree.lookup p) ?_ ?_ events S hmeets hrun
      · have hinit : (sessions u).run [] = .ok (sessions u).init := rfl
        exact ⟨hlinks, placed_of_run hinit, rfl⟩
      · rintro l T e T' ⟨hfree, hplaced, hsame⟩ hC hstep
        refine ⟨hfree.later (later_of_step hstep), hplaced.step hstep, ?_⟩
        exact ((actsBelow_step hfree hplaced hC hstep).files p hp).trans hsame
    exact hboth.2.2

theorem linkFree_smallSetup : smallSetup.tree.LinkFree :=
  (((FileTree.linkFree_bare.put _ _ (by simp)).put _ _ (by simp)).put _ _ (by simp)).put _ _
    (by simp)

/-- A client on `/srv/ftp` removes `/srv/ftp2`, stores `/srv/notes` and has it sent. -/
def outside : List SessionEvent :=
  oneClient ["USER anonymous", "PASS", "DELE ../ftp2", "PORT 127,0,0,1,4,7"] ++
    [.line 0 (lit "STOR ../notes") (.fine 8), .child 0 (.fine (lit "one")),
      .line 0 (lit "PORT 127,0,0,1,4,7") (.fine 7), .line 0 (lit "RETR ../notes") (.fine 8),
      .child 0 (.fine [])]

theorem acts_outside : smallSetup.tree.LinkFree ∧ ∃ name, name.bytes = lit "notes" ∧
    ¬ StrictlyBelow smallSetup.server.path [srv, ftp2] ∧
    ¬ StrictlyBelow smallSetup.server.path [srv, name] ∧
    smallSetup.tree.lookup [srv, ftp2] = some (.dir .all) ∧
    smallSetup.tree.lookup [srv, name] = none ∧
    ∃ S, (sessions smallSetup).run outside = .ok S ∧
      S.world.os.tree.lookup [srv, ftp2] = none ∧
      S.world.os.tree.lookup [srv, name] = some (.file .rw (lit "one")) ∧
      S.world.data = [(0, .bytes (lit "one"))] := by
  refine ⟨linkFree_smallSetup, ⟨lit "notes", by decide⟩, rfl, by decide, by decide, ?_, ?_, ?_⟩
  · decide +kernel
  · decide +kernel
  · exact Machine.exists_of_run (by decide +kernel)

/-- A client that removes the directory `/srv/ftp/pub`. -/
theorem acts_below_of_run_dele :
    ∃ S, (sessions smallSetup).run (oneClient ["USER anonymous", "PASS", "DELE pub"]) = .ok S ∧
      ∀ p, ¬ StrictlyBelow smallSetup.server.path p →
        S.world.os.tree.lookup p = smallSetup.tree.lookup p :=
  ⟨_, rfl, (acts_below_of_run smallSetup linkFree_smallSetup
    (oneClient ["USER anonymous", "PASS", "DELE pub"]) _ rfl (by decide +kernel)).2⟩

end MyFtp.Server
