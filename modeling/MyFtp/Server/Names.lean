import MyFtp.Server.Children
import MyFtp.Server.Sessions

/-!
# What a file name means

`DELE` goes to the connection's directory and looks its name up there. `RETR`
goes there, looks the name up and goes back, and when that failed makes one more
test from where it is then. `STOR` goes nowhere: its child looks the name up from
wherever the process stood when it was forked.

> `names_agree_of_run`: in a run in which those are the same place where it
> matters, each of the three means by a name what it means from the connection's
> directory. So a file that was stored is sent back as it was stored, and
> removed, and nothing else is.
-/

namespace MyFtp.Server

open MyFtp.Posix
open MyFtp.Posix.FileTree (SameFrom)
open Prog

/-! ## The condition -/

/-- The commands of the parent find the file from the directory `W`, and what
does not open there cannot be read from the root either. -/
def LineFinds (server : ServerT) (s : Ctx) (W : Path) (command : Command) (f : CStr) : Prop :=
  (command.word = lit "DELE" → SameFrom (s.wdFrom W) W f) ∧
  (command.word = lit "RETR" → s.conn.dataSocket ≠ none →
    SameFrom (s.wdFrom W) W f ∧ (s.os.tree.openRead W f = none →
      s.os.tree.accessRead (s.os.tree.goto (s.wdFrom W) (pathStr server.path)) f = false))

instance (server : ServerT) (s : Ctx) (W : Path) (command : Command) (f : CStr) :
    Decidable (LineFinds server s W command f) :=
  inferInstanceAs (Decidable (_ ∧ _))

/-- A child finds the file from the directory `W`. One that sends it finds it
still there, and without NUL in it. -/
def ChildFinds (t : FileTree) (child : Child) (W : Path) (f : CStr) : Prop :=
  (child.body = .executeStorCommand → SameFrom child.cwd W f) ∧
  (child.body = .executeRetrCommand →
    SameFrom (t.goto child.cwd (pathStr W)) W f ∧ t.openRead W f ≠ none ∧
      NulFree (readable (t.openRead W f)))

instance (t : FileTree) (child : Child) (W : Path) (f : CStr) :
    Decidable (ChildFinds t child W f) :=
  inferInstanceAs (Decidable (_ ∧ _))

/-- The condition on an event: it concerns commands with one argument, of
clients that are logged in and whose directory exists. -/
def NamesAgree (server : ServerT) (S : Sessions) : SessionEvent → Prop
  | .line id line _ => ∀ c ∈ S.conns id, c.loggedIn = true → ∀ W ∈ c.workingDirectory,
      S.world.os.tree.isDir W = true → ∀ command ∈ commandOf line, command.argc = 1 →
        ∀ f ∈ command.argv.head?, LineFinds server (Ctx.start S.world.os c) W command f
  | .child k _ => ∀ child ∈ S.world.children[k]?, ∀ W ∈ child.2.connection.workingDirectory,
      S.world.os.tree.isDir W = true → ∀ f ∈ child.2.command.argv.head?,
        ChildFinds S.world.os.tree child.2 W f
  | _ => True

instance (server : ServerT) (S : Sessions) : ∀ e, Decidable (NamesAgree server S e)
  | .line id .. => inferInstanceAs (Decidable (∀ c ∈ S.conns id, _))
  | .child k _ => inferInstanceAs (Decidable (∀ child ∈ S.world.children[k]?, _))
  | .accept .. | .hangup _ | .dataConnect _ => .isTrue trivial

/-! ## What the commands should come to -/

/-- The transfer began: there is a child for it now, or the client was told that
there is none. -/
def Begins (S S' : Sessions) (id : ConnId) (body : TransferBody) (command : Command) (W : Path) :
    Prop :=
  (∃ child : Child, S'.world.children = S.world.children ++ [(id, child)] ∧ child.body = body ∧
    child.command = command ∧ child.connection.workingDirectory = some W ∧
      S'.world.sent = S.world.sent) ∨
  (S'.world.children = S.world.children ∧ ∃ l, S'.world.sent = S.world.sent ++ l ∧
    ∀ e ∈ l, e.2 = .failedToEstablish ∨ e.2 = .localError)

/-- A line of the client `id` whose only argument is `f`. -/
structure LineMeans (S S' : Sessions) (id : ConnId) (c : Connection) (command : Command)
    (W : Path) (f : CStr) : Prop where
  dele : command.word = lit "DELE" →
    match S.world.os.tree.removable W f with
    | some p => S'.world.os.tree = S.world.os.tree.drop p ∧
      S'.world.sent = S.world.sent ++ S.world.os.delivers c.clientSockfd .fileActionOkay
    | none => S'.world.os.tree = S.world.os.tree ∧
      S'.world.sent = S.world.sent ++ S.world.os.delivers c.clientSockfd .deleteFailed
  retr : command.word = lit "RETR" → c.dataSocket ≠ none → S'.world.os.tree = S.world.os.tree ∧
    if S.world.os.tree.openRead W f = none then
      S'.world.children = S.world.children ∧
        S'.world.sent = S.world.sent ++ S.world.os.delivers c.clientSockfd .permissionDenied
    else Begins S S' id .executeRetrCommand command W
  stor : command.word = lit "STOR" → c.dataSocket ≠ none → S'.world.os.tree = S.world.os.tree ∧
    Begins S S' id .executeStorCommand command W

/-- The state a child starts in. -/
def Sessions.childStart (S : Sessions) (child : Child) : Ctx :=
  Ctx.start { S.world.os with cwd := child.cwd, desc := child.desc } child.connection

/-- What the child of a `STOR` leaves in its file. -/
def Sessions.stores (S : Sessions) (child : Child) (cans : ChildAnswers) : List Byte :=
  storedContent cans ((S.childStart child).os.kills child.connection.clientSockfd)

/-- What is sent on a data connection of the client `id` is `content`. -/
def Sends (S S' : Sessions) (id : ConnId) (content : List Byte) : Prop :=
  ∃ items, S'.world.data = S.world.data ++ items.map (id, ·) ∧ sentBytes items = content

/-- A child of the client `id` whose command's argument is `f`. -/
structure ChildMeans (S S' : Sessions) (id : ConnId) (child : Child) (cans : ChildAnswers)
    (W : Path) (f : CStr) : Prop where
  stor : child.body = .executeStorCommand →
    S'.world.os.tree =
      match S.world.os.tree.openWrite W f with
      | none => S.world.os.tree
      | some target => S.world.os.tree.store target (S.stores child cans)
  retr : child.body = .executeRetrCommand → Connected (S.childStart child) cans →
    Sends S S' id (readable (S.world.os.tree.openRead W f)) ∧
      S'.world.sent = S.world.sent ++
        (S.childStart child).os.delivers child.connection.clientSockfd .openingBinary ++
          (S.childStart child).os.delivers child.connection.clientSockfd .transferComplete

/-- What an event should come to. -/
def NamesMean (S S' : Sessions) : SessionEvent → Prop
  | .line id line _ => ∀ c ∈ S.conns id, c.loggedIn = true → ∀ W ∈ c.workingDirectory,
      S.world.os.tree.isDir W = true → ∀ command ∈ commandOf line, command.argc = 1 →
        ∀ f ∈ command.argv.head?, LineMeans S S' id c command W f
  | .child k cans => ∀ child ∈ S.world.children[k]?, ∀ W ∈ child.2.connection.workingDirectory,
      S.world.os.tree.isDir W = true → ∀ f ∈ child.2.command.argv.head?,
        ChildMeans S S' child.1 child.2 cans W f
  | _ => True

/-! ## A line -/

section

variable {server : ServerT} {ans : Answers} {command : Command} {s s' : Ctx} {W : Path} {f : CStr}
  {status : CommandStatus}

/-- The parts of a transfer before and after the fork: descriptors and the data
socket. -/
def Quiet (s s' : Ctx) : Prop :=
  s'.os.tree = s.os.tree ∧ s'.forked = s.forked ∧ s'.out = s.out ∧
    s'.conn.workingDirectory = s.conn.workingDirectory

instance : Std.Refl Quiet := ⟨fun _ => ⟨rfl, rfl, rfl, rfl⟩⟩

instance : IsTrans Ctx Quiet := ⟨fun _ _ _ h h' =>
  ⟨h'.1.trans h.1, h'.2.1.trans h.2.1, h'.2.2.1.trans h.2.2.1, h'.2.2.2.trans h.2.2.2⟩⟩

theorem quiet_establish : Keeps Quiet (establishDataSocketConnection ans) :=
  follows_keeps.establish (fun _ _ => ⟨rfl, rfl, rfl, rfl⟩)
    (follows_keeps.acceptData (keeps_fail _) (keeps_fail _) fun _ _ _ _ => ⟨rfl, rfl, rfl, rfl⟩)

theorem quiet_destroy (status : CommandStatus) : Keeps Quiet (do
    let c ← conn
    destroyDataSocket c.dataSocket
    setDataSocket none
    return status) :=
  follows_keeps.destroy (fun _ _ => ⟨rfl, rfl, rfl, rfl⟩) (fun _ _ => ⟨rfl, rfl, rfl, rfl⟩) status

/-- `execute_data_socket_command` forks one child or tells the client. -/
theorem transfer_begins {body : TransferBody} (hW : s.conn.workingDirectory = some W)
    (h : executeDataSocketCommand ans body command s = (.ok status, s')) :
    s'.os.tree = s.os.tree ∧
      ((∃ child : Child, s'.forked = s.forked ++ [child] ∧ child.body = body ∧
        child.command = command ∧ child.connection.workingDirectory = some W ∧ s'.out = s.out) ∨
      (s'.forked = s.forked ∧ ∃ l, s'.out = s.out ++ l ∧
        ∀ e ∈ l, e.2 = .failedToEstablish ∨ e.2 = .localError)) := by
  rw [executeDataSocketCommand] at h
  obtain ⟨established, s₁, hest, h⟩ := bind_eq_ok h
  have hq : Quiet s s₁ := quiet_establish.after hest
  -- what the last lines leave of a state that is `s` but for a reply `l` and a child
  have hend : ∀ {s₂ : Ctx} {status' : CommandStatus}, (do
      let c ← conn
      destroyDataSocket c.dataSocket
      setDataSocket none
      return status' : M CommandStatus) s₂ = (.ok status, s') → Quiet s₂ s' := by
    intro s₂ status' h₂
    exact (quiet_destroy status').after h₂
  cases established with
  | false =>
    rw [if_pos rfl] at h
    obtain ⟨htree, hforked, hout, -⟩ := hend (reply_bind_eq_ok h)
    refine ⟨htree.trans hq.1, .inr ⟨hforked.trans hq.2.1,
      s₁.os.delivers s₁.conn.clientSockfd .failedToEstablish, ?_, ?_⟩⟩
    · exact hout.trans (congrArg (· ++ _) hq.2.2.1)
    · exact fun e he => .inl (mem_delivers_reply e he)
  | true =>
    rw [if_neg (by simp)] at h
    obtain ⟨forked, s₂, hfork, h⟩ := bind_eq_ok h
    rw [forkExecution_apply] at hfork
    split at hfork
    next =>
      -- the child has the record as it is now
      cases hfork
      rw [if_neg (by simp)] at h
      obtain ⟨htree, hforked, hout, -⟩ := hend h
      exact ⟨htree.trans hq.1, .inl ⟨_, hforked.trans (congrArg (· ++ _) hq.2.1), rfl, rfl,
        hq.2.2.2.trans hW, hout.trans hq.2.2.1⟩⟩
    next =>
      cases hfork
      rw [if_pos rfl] at h
      obtain ⟨htree, hforked, hout, -⟩ := hend (reply_bind_eq_ok h)
      refine ⟨htree.trans hq.1, .inr ⟨hforked.trans hq.2.1,
        s₁.os.delivers s₁.conn.clientSockfd .localError, ?_, ?_⟩⟩
      · exact hout.trans (congrArg (· ++ _) hq.2.2.1)
      · exact fun e he => .inr (mem_delivers_reply e he)

/-- `DELE`. -/
theorem deleCommand_eq (hlog : s.conn.loggedIn = true) (hargc : command.argc = 1)
    (hf : command.argv.head? = some f) : deleCommand command s = deleteFile f s := by
  rw [deleCommand, conn_bind_apply, if_neg (by simp [hlog]), if_neg (by simp [hargc]), hf,
    deref_some, pure_bind_apply]

/-- `RETR`. -/
theorem retrCommand_eq (hlog : s.conn.loggedIn = true) (hdata : s.conn.dataSocket ≠ none)
    (hargc : command.argc = 1) (hf : command.argv.head? = some f) :
    retrCommand server ans command s = (do
      if (← checkFileExists server f) then return .failure
      else executeDataSocketCommand ans .executeRetrCommand command : M CommandStatus) s := by
  rw [retrCommand, conn_bind_apply, if_neg (by simp [hlog]), if_neg hdata, if_neg (by simp [hargc]),
    hf, deref_some, pure_bind_apply]

/-- `STOR`. -/
theorem storCommand_eq (hlog : s.conn.loggedIn = true) (hdata : s.conn.dataSocket ≠ none)
    (hargc : command.argc = 1) :
    storCommand ans command s = executeDataSocketCommand ans .executeStorCommand command s := by
  rw [storCommand, conn_bind_apply, if_neg (by simp [hlog]), if_neg hdata, if_neg (by simp [hargc])]

/-- `DELE` removes what the name removes from the connection's directory. -/
theorem deleteFile_means (hW : s.conn.workingDirectory = some W) (hsame : SameFrom (s.wdFrom W) W f)
    (h : deleteFile f s = (.ok status, s')) :
    match s.os.tree.removable W f with
    | some p => s'.os.tree = s.os.tree.drop p ∧
      s'.out = s.out ++ s.os.delivers s.conn.clientSockfd .fileActionOkay
    | none => s'.os.tree = s.os.tree ∧
      s'.out = s.out ++ s.os.delivers s.conn.clientSockfd .deleteFailed := by
  rw [deleteFile_apply hW, FileTree.remove, hsame.removable] at h
  cases hp : s.os.tree.removable W f with
  | none =>
    rw [hp] at h
    rw [(refuse_eq_ok h).2]
    exact ⟨rfl, rfl⟩
  | some p =>
    rw [hp] at h
    rw [(answer_eq_ok h).2]
    exact ⟨rfl, rfl⟩

/-- The test of `RETR` opens what the name means from the connection's
directory, and calls what does not open a denied permission. -/
theorem checkFileExists_means (hW : s.conn.workingDirectory = some W)
    (hsame : SameFrom (s.wdFrom W) W f)
    (hread : s.os.tree.openRead W f = none →
      s.os.tree.accessRead (s.os.tree.goto (s.wdFrom W) (pathStr server.path)) f = false) :
    checkFileExists server f s =
      let back := s.inDir (s.os.tree.goto (s.wdFrom W) (pathStr server.path))
      if s.os.tree.openRead W f = none then
        (do reply .permissionDenied; return true : M Bool) back
      else (.ok false, back) := by
  rw [checkFileExists_apply hW, hsame.openRead]
  dsimp only
  by_cases hnone : s.os.tree.openRead W f = none
  · rw [if_pos hnone, if_pos hnone, if_neg (by simp [hread hnone])]
  · rw [if_neg hnone, if_neg hnone]

/-- `RETR` refuses with 550, or begins to send. -/
theorem retrCommand_means (hlog : s.conn.loggedIn = true) (hdata : s.conn.dataSocket ≠ none)
    (hargc : command.argc = 1) (hf : command.argv.head? = some f)
    (hW : s.conn.workingDirectory = some W) (hsame : SameFrom (s.wdFrom W) W f)
    (hread : s.os.tree.openRead W f = none →
      s.os.tree.accessRead (s.os.tree.goto (s.wdFrom W) (pathStr server.path)) f = false)
    (h : retrCommand server ans command s = (.ok status, s')) :
    s'.os.tree = s.os.tree ∧
      if s.os.tree.openRead W f = none then
        s'.forked = s.forked ∧
          s'.out = s.out ++ s.os.delivers s.conn.clientSockfd .permissionDenied
      else
        (∃ child : Child, s'.forked = s.forked ++ [child] ∧ child.body = .executeRetrCommand ∧
          child.command = command ∧ child.connection.workingDirectory = some W ∧ s'.out = s.out) ∨
        (s'.forked = s.forked ∧ ∃ l, s'.out = s.out ++ l ∧
          ∀ e ∈ l, e.2 = .failedToEstablish ∨ e.2 = .localError) := by
  rw [retrCommand_eq hlog hdata hargc hf] at h
  obtain ⟨refused, s₁, hcheck, h⟩ := bind_eq_ok h
  rw [checkFileExists_means hW hsame hread] at hcheck
  dsimp only at hcheck
  by_cases hnone : s.os.tree.openRead W f = none
  · rw [if_pos hnone] at hcheck
    obtain ⟨rfl, rfl⟩ := answer_eq_ok hcheck
    rw [if_pos rfl, pure_apply] at h
    rw [if_pos hnone, ← (Prod.mk.inj h).2]
    exact ⟨rfl, rfl, rfl⟩
  · rw [if_neg hnone] at hcheck
    cases hcheck
    rw [if_neg (by simp)] at h
    rw [if_neg hnone]
    have hbegins := transfer_begins (by exact hW) h
    exact hbegins

end

/-! ## An event -/

/-- A line that is not `QUIT`, of a client that has a record. -/
theorem handled_of_step {server : ServerT} {S S' : Sessions} {id : ConnId} {line : CStr}
    {ans : Answers} {c : Connection} {command : Command} {handler : Handler}
    (hc : S.conns id = some c) (hcommand : commandOf line = some command)
    (hword : (command.word, handler) ∈ commandHandlers) (hquit : command.word ≠ lit "QUIT")
    (h : S.handleLine server id line ans = .ok S') :
    ∃ status s, handler server ans command (Ctx.start S.world.os c) = (.ok status, s) ∧
      S'.world = S.world.merge id s := by
  obtain ⟨c₀, parsed, hc₀, hparse, ⟨status, s, hx, -, rfl⟩ | ⟨command', hparsed, hq, -⟩⟩ :=
    handleLine_eq_ok h
  · obtain rfl : c = c₀ := Option.some.inj (hc.symm.trans hc₀)
    rw [← (commandOf_of_parse hparse), hcommand, executeCommand_of_mem hword] at hx
    exact ⟨status, s, hx, rfl⟩
  · rw [← (commandOf_of_parse hparse), hcommand] at hparsed
    exact absurd (Option.some.inj hparsed ▸ hq) hquit

/-- What a line came to, seen from the outside. -/
theorem begins_of_transfer {S S' : Sessions} {id : ConnId} {s : Ctx} {c : Connection}
    {body : TransferBody} {command : Command} {W : Path} (hS' : S'.world = S.world.merge id s)
    (h : (∃ child : Child, s.forked = (Ctx.start S.world.os c).forked ++ [child] ∧
        child.body = body ∧ child.command = command ∧
          child.connection.workingDirectory = some W ∧ s.out = (Ctx.start S.world.os c).out) ∨
      (s.forked = (Ctx.start S.world.os c).forked ∧ ∃ l, s.out = (Ctx.start S.world.os c).out ++ l ∧
        ∀ e ∈ l, e.2 = .failedToEstablish ∨ e.2 = .localError)) :
    Begins S S' id body command W := by
  unfold Begins
  rw [hS']
  rcases h with ⟨child, hforked, hbody, hcommand, hW, hout⟩ | ⟨hforked, l, hout, hl⟩
  · refine .inl ⟨child, ?_, hbody, hcommand, hW, ?_⟩
    · rw [World.merge, hforked]
      rfl
    · rw [World.merge, hout]
      exact List.append_nil _
  · refine .inr ⟨?_, l, ?_, hl⟩
    · rw [World.merge, hforked]
      exact List.append_nil _
    · rw [World.merge, hout]
      rfl

theorem line_means {server : ServerT} {S S' : Sessions} {id : ConnId} {line : CStr} {ans : Answers}
    {c : Connection} {command : Command} {W : Path} {f : CStr}
    (hc : S.conns id = some c) (hlog : c.loggedIn = true) (hW : c.workingDirectory = some W)
    (hcommand : commandOf line = some command) (hargc : command.argc = 1)
    (hf : command.argv.head? = some f)
    (hC : LineFinds server (Ctx.start S.world.os c) W command f)
    (h : S.handleLine server id line ans = .ok S') : LineMeans S S' id c command W f := by
  refine ⟨fun hw => ?_, fun hw hdata => ?_, fun hw hdata => ?_⟩
  · obtain ⟨status, s, hx, hS'⟩ := handled_of_step hc hcommand
      (by rw [hw]; exact List.mem_of_getElem? (i := 5) rfl) (by rw [hw]; decide) h
    have hx : deleteFile f (Ctx.start S.world.os c) = (.ok status, s) := by
      rw [← deleCommand_eq hlog hargc hf]
      exact hx
    have hmeans := deleteFile_means hW (hC.1 hw) hx
    rw [hS']
    cases hp : S.world.os.tree.removable W f with
    | none =>
      rw [show (Ctx.start S.world.os c).os.tree.removable W f = none from hp] at hmeans
      exact ⟨hmeans.1, congrArg (S.world.sent ++ ·) hmeans.2⟩
    | some p =>
      rw [show (Ctx.start S.world.os c).os.tree.removable W f = some p from hp] at hmeans
      exact ⟨hmeans.1, congrArg (S.world.sent ++ ·) hmeans.2⟩
  · obtain ⟨status, s, hx, hS'⟩ := handled_of_step hc hcommand
      (by rw [hw]; exact List.mem_of_getElem? (i := 11) rfl) (by rw [hw]; decide) h
    obtain ⟨hsame, hread⟩ := hC.2 hw hdata
    obtain ⟨htree, hrest⟩ := retrCommand_means hlog hdata hargc hf hW hsame hread hx
    refine ⟨by rw [hS']; exact htree, ?_⟩
    by_cases hnone : S.world.os.tree.openRead W f = none
    · rw [if_pos (show (Ctx.start S.world.os c).os.tree.openRead W f = none from hnone)] at hrest
      rw [if_pos hnone, hS', World.merge, hrest.1, hrest.2]
      exact ⟨List.append_nil _, rfl⟩
    · rw [if_neg (show ¬ (Ctx.start S.world.os c).os.tree.openRead W f = none from hnone)] at hrest
      rw [if_neg hnone]
      exact begins_of_transfer hS' hrest
  · obtain ⟨status, s, hx, hS'⟩ := handled_of_step hc hcommand
      (by rw [hw]; exact List.mem_of_getElem? (i := 12) rfl) (by rw [hw]; decide) h
    have hx : executeDataSocketCommand ans .executeStorCommand command
        (Ctx.start S.world.os c) = (.ok status, s) := by
      rw [← storCommand_eq hlog hdata hargc]
      exact hx
    obtain ⟨htree, hrest⟩ := transfer_begins hW hx
    exact ⟨by rw [hS']; exact htree, begins_of_transfer hS' hrest⟩

theorem child_means {server : ServerT} {S S' : Sessions} {k : Nat} {cans : ChildAnswers}
    {id : ConnId} {child : Child} {W : Path} {f : CStr}
    (hk : S.world.children[k]? = some (id, child))
    (hW : child.connection.workingDirectory = some W) (hf : child.command.argv.head? = some f)
    (hC : ChildFinds S.world.os.tree child W f) (h : S.step server (.child k cans) = .ok S') :
    ChildMeans S S' id child cans W f := by
  obtain ⟨w, hw, rfl⟩ := map_eq_ok h
  obtain ⟨id', child', s, hk', hs, rfl⟩ := World.runChild_eq_ok hw
  cases hk.symm.trans hk'
  refine ⟨fun hbody => ?_, fun hbody hconnected => ?_⟩
  · rw [hbody] at hs
    show s.os.tree = _
    rw [hs, ← (hC.1 hbody).openWrite]
    exact executeStorCommand_tree hf
  · rw [hbody] at hs
    obtain ⟨hsame, hopen, hnul⟩ := hC.2 hbody
    have hread : (S.childStart child).os.tree.openRead ((S.childStart child).wdFrom W) f =
        S.world.os.tree.openRead W f := hsame.openRead _
    rw [← hread] at hopen hnul
    obtain ⟨items, hsent, hrun⟩ := executeRetrCommand_sends hconnected hf hW hopen hnul
    obtain rfl : s = _ := hs.trans (congrArg Prod.snd hrun)
    refine ⟨⟨items, rfl, hsent.trans (congrArg readable hread)⟩, ?_⟩
    exact (List.append_assoc ..).symm

/-! ## Runs -/

/-- **When names agree.** In a run whose events all meet the condition, each of
the three commands means by a name what it means from the connection's
directory. So once the child of a `STOR` has stored a file, as long as the name
means the same in the tree, the child of a `RETR` sends what was stored, and
`DELE` removes that file alone. -/
theorem names_agree_of_run (u : Setup) (events : List SessionEvent)
    (hmeets : (sessions u).Meets (NamesAgree u.server) events) :
    (∀ S e S', (sessions u).Took events S e S' → NamesMean S S' e) ∧
    ∀ S k cans S₁ id child W f target, (sessions u).Took events S (.child k cans) S₁ →
      S.world.children[k]? = some (id, child) → child.body = .executeStorCommand →
      child.connection.workingDirectory = some W → S.world.os.tree.isDir W = true →
      child.command.argv.head? = some f → S.world.os.tree.openWrite W f = some target →
      (∀ S₂ k' cans' S₃ id' child', (sessions u).Took events S₂ (.child k' cans') S₃ →
        S₂.world.children[k']? = some (id', child') → child'.body = .executeRetrCommand →
        child'.connection.workingDirectory = some W → S₂.world.os.tree.isDir W = true →
        child'.command.argv.head? = some f → Connected (S₂.childStart child') cans' →
        target.perm.r = true →
        S₂.world.os.tree.openRead W f = S₁.world.os.tree.openRead W f →
          Sends S₂ S₃ id' (S.stores child cans)) ∧
      ∀ S₂ id' line ans S₃ c command p, (sessions u).Took events S₂ (.line id' line ans) S₃ →
        S₂.conns id' = some c → c.loggedIn = true → c.workingDirectory = some W →
        S₂.world.os.tree.isDir W = true → commandOf line = some command →
        command.word = lit "DELE" → command.argc = 1 → command.argv.head? = some f →
        S₂.world.os.tree.removable W f = some p →
        S₁.world.os.tree.removable W f = some p →
        (∀ link, S₁.world.os.tree.lookup p ≠ some (.link link)) →
          p = target.path ∧ S₃.world.os.tree = S₂.world.os.tree.drop target.path := by
  have hmean : ∀ S e S', (sessions u).Took events S e S' → NamesMean S S' e := by
    intro S e S' htook
    have hC := htook.meets hmeets
    obtain ⟨-, -, -, -, hstep⟩ := htook
    cases e with
    | line id line ans =>
      intro c hc hlog W hW hdir command hcommand hargc f hf
      exact line_means hc hlog hW hcommand hargc hf
        (hC c hc hlog W hW hdir command hcommand hargc f hf) hstep
    | child k cans =>
      intro child hk W hW hdir f hf
      exact child_means hk hW hf (hC child hk W hW hdir f hf) hstep
    | accept fd addr served => trivial
    | hangup id => trivial
    | dataConnect fd => trivial
  refine ⟨hmean, ?_⟩
  intro S k cans S₁ id child W f target htook hk hbody hW hdir hf htarget
  have hstored := (hmean S _ S₁ htook (id, child) hk W hW hdir f hf).stor hbody
  rw [htarget] at hstored
  refine ⟨?_, ?_⟩
  · intro S₂ k' cans' S₃ id' child' htook' hk' hbody' hW' hdir' hf' hconnected hr hsame
    have hsent := (hmean S₂ _ S₃ htook' (id', child') hk' W hW' hdir' f hf').retr hbody' hconnected
    rw [hsame, hstored, FileTree.openRead_store htarget hr] at hsent
    exact hsent.1
  · intro S₂ id' line ans S₃ c command p htook' hc hlog hW' hdir' hcommand hw hargc hf' hp hp₁ hlink
    have hdropped :=
        (hmean S₂ _ S₃ htook' c hc hlog W hW' hdir' command hcommand hargc f hf').dele hw
    rw [hp] at hdropped
    rw [hstored] at hp₁ hlink
    have hpath : p = target.path :=
      (FileTree.removable_store htarget _ hp₁).resolve_right fun ⟨link, h⟩ => hlink link h
    rw [hpath] at hdropped
    exact ⟨hpath, hdropped.1⟩

/-- A client stores a file, has it sent back and deletes it. -/
def storedAndBack : List SessionEvent :=
  oneClient ["USER anonymous", "PASS", "PASV"] ++
    [.dataConnect 7, .line 0 (lit "STOR a") (.fine 7), .child 0 (.fine (lit "one\ntwo")),
      .line 0 (lit "PASV") (.fine 9), .dataConnect 9, .line 0 (lit "RETR a") (.fine 9),
      .child 0 (.fine []), .line 0 (lit "DELE a") (.fine 9)]

theorem names_agree_of_run_back : ∃ S₂ S₃,
    (sessions smallSetup).Took storedAndBack S₂ (.child 0 (.fine [])) S₃ ∧
      Sends S₂ S₃ 0 (lit "one\ntwo") :=
  ⟨_, _, ⟨storedAndBack.take 10, storedAndBack.drop 11, rfl, rfl, rfl⟩,
    ((names_agree_of_run smallSetup storedAndBack (by decide +kernel)).2 _ 0
      (.fine (lit "one\ntwo"))
      _ 0 _ [srv, ftp] (lit "a") _
      ⟨storedAndBack.take 6, storedAndBack.drop 7, rfl, rfl, rfl⟩ rfl rfl rfl rfl rfl rfl).1
        _ 0 (.fine []) _ 0 _ ⟨storedAndBack.take 10, storedAndBack.drop 11, rfl, rfl,
          rfl⟩ rfl rfl rfl
        rfl rfl ⟨⟨_, _, rfl, rfl⟩, rfl, rfl⟩ rfl rfl⟩

/-- The stored file of a client in `/srv/ftp/pub` lands in `/srv/ftp`. -/
theorem stor_lands_elsewhere : ∃ S S' child name,
    (sessions smallSetup).Took
        (oneClient ["USER anonymous", "PASS", "CWD pub", "PASV"] ++
          [.dataConnect 7, .line 0 (lit "STOR a") (.fine 7), .child 0 (.fine (lit "one"))])
        S (.child 0 (.fine (lit "one"))) S' ∧
      S.world.children[0]? = some (0, child) ∧ child.body = .executeStorCommand ∧
      child.command.argv.head? = some (lit "a") ∧ name.bytes = lit "a" ∧
      child.connection.workingDirectory = some [srv, ftp, pub] ∧
      S.world.os.tree.openWrite [srv, ftp, pub] (lit "a") = some ⟨[srv, ftp, pub], name, .rw⟩ ∧
      S'.world.os.tree.lookup [srv, ftp, pub, name] = none ∧
      S'.world.os.tree.lookup [srv, ftp, name] = some (.file .rw (lit "one")) :=
  ⟨_, _, _, ⟨lit "a", by decide⟩,
    ⟨oneClient ["USER anonymous", "PASS", "CWD pub", "PASV"] ++
      [.dataConnect 7, .line 0 (lit "STOR a") (.fine 7)], [], rfl, rfl, rfl⟩,
    rfl, rfl, rfl, rfl, rfl, by decide +kernel, by decide +kernel, by decide +kernel⟩

end MyFtp.Server
