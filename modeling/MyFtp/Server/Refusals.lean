import MyFtp.Server.Directories
import MyFtp.Server.Replies
import MyFtp.Server.Sessions

/-!
# What a refusal leaves

A line that is answered with 500 or 550 has changed nothing but the directory
the process stands in.

> `refused_changes_nothing`: in any run, after such an answer the records, the
> files, the descriptors and the children are what they were.

A handler that refuses has looked things up before, and has gone from one
directory to another for it. It refuses before it changes anything else
(`Intact`), and once it has changed something it says nothing that is a refusal
any more (`Polite`). `Careful` is the disjunction of the two. Silent steps that
leave the rest intact may stand in front of a careful program
(`Carefully.after`); so may a check, which is silent when it passes
(`Carefully.check`).
-/

namespace MyFtp.Server

open MyFtp.Posix
open Prog

/-- The process moved, and `l` went out. -/
def Intact (s : Ctx) (l : List (ConnId × Reply)) (s' : Ctx) : Prop :=
  s' = { s with os := { s.os with cwd := s'.os.cwd }, out := s.out ++ l }

/-- `l` went out, and there is no refusal in it. -/
def Polite (s : Ctx) (l : List (ConnId × Reply)) (s' : Ctx) : Prop :=
  s'.out = s.out ++ l ∧ ∀ e ∈ l, e.2.refuses = false

/-- A refusal went out only if all was left intact. -/
def Careful (s : Ctx) (l : List (ConnId × Reply)) (s' : Ctx) : Prop := Polite s l s' ∨ Intact s l s'

theorem intact_labelled : Labelled Intact := by
  refine ⟨fun s => ?_, fun {s s₁ s₂ l l'} h h' => ?_⟩
  · rw [Intact, List.append_nil]
  · rw [Intact] at h h' ⊢
    rw [h', h, List.append_assoc]

theorem polite_labelled : Labelled Polite := by
  refine ⟨fun s => ⟨(List.append_nil _).symm, by simp⟩, fun {s s₁ s₂ l l'} h h' => ?_⟩
  refine ⟨by rw [h'.1, h.1, List.append_assoc], fun e he => ?_⟩
  exact (List.mem_append.mp he).elim (h.2 e) (h'.2 e)

/-- What is polite after silent steps was polite from the start. -/
theorem Careful.after {s s₁ s' : Ctx} {l : List (ConnId × Reply)} (h : Intact s [] s₁)
    (h' : Careful s₁ l s') : Careful s l s' := by
  rcases h' with ⟨hout, hl⟩ | h'
  · refine .inl ⟨?_, hl⟩
    rw [hout, h, List.append_nil]
  · exact .inr (intact_labelled.trans h h')

/-! ## Polite programs -/

/-- A program that refuses nothing. -/
def Politely {α : Type} (p : M α) : Prop := Yields Polite (fun _ _ => True) p

theorem politely_follows : Follows Politely :=
  { pure := fun _ => yields_pure polite_labelled trivial
    gets := fun f => (silently_gets polite_labelled f).mono fun _ _ _ => trivial
    bind := fun hp hk => Yields.bind polite_labelled hp fun a _ _ => hk a
    undefined := yields_fail _ }

/-- A program that says nothing at all. -/
theorem politely_of_out {α : Type} {p : M α} (h : ∀ s, (p s).2.out = s.out) : Politely p := by
  intro s a s' hp
  have hs := h s
  rw [hp] at hs
  exact ⟨[], trivial, by rw [hs, List.append_nil], by simp⟩

theorem politely_reply (r : Reply) (h : r.refuses = false) : Politely (reply r) := by
  intro s a s' hp
  obtain ⟨-, rfl⟩ := dprintf_eq_ok hp
  refine ⟨_, trivial, rfl, fun e he => ?_⟩
  rw [mem_delivers_reply e he, h]

theorem politely_answer {r : Reply} (h : r.refuses = false) (status : CommandStatus) :
    Politely (do reply r; return status) :=
  politely_follows.bind (politely_reply r h) fun _ => politely_follows.pure _

theorem politely_transfer (ans : Answers) (body : TransferBody) (command : Command) :
    Politely (executeDataSocketCommand ans body command) := by
  have hdesc : ∀ fd d, Politely (setDesc fd d) := fun _ _ => politely_of_out fun _ => rfl
  exact politely_follows.transfer politely_reply (fun _ => politely_of_out fun _ => rfl)
    (fun fd => hdesc fd none)
    (politely_follows.acceptData (yields_fail _) (yields_fail _) fun fd d _ => hdesc fd d)
    (politely_of_out fun _ => rfl)

/-! ## Careful programs -/

/-- A program that refuses only while it has changed nothing. -/
def Carefully {α : Type} (p : M α) : Prop := Yields Careful (fun _ _ => True) p

theorem carefully_of_polite {α : Type} {p : M α} (h : Politely p) : Carefully p := by
  intro s a s' hp
  obtain ⟨l, -, hl⟩ := h s a s' hp
  exact ⟨l, trivial, .inl hl⟩

theorem intact_reply (r : Reply) : Yields Intact (fun _ _ => True) (reply r) := by
  intro s a s' hp
  obtain ⟨-, rfl⟩ := dprintf_eq_ok hp
  exact ⟨_, trivial, rfl⟩

theorem carefully_answer (r : Reply) (status : CommandStatus) :
    Carefully (do reply r; return status) := by
  intro s a s' hp
  obtain ⟨_, s₁, hr, hp⟩ := bind_eq_ok hp
  cases hp
  obtain ⟨l, -, hl⟩ := intact_reply r s _ _ hr
  exact ⟨l, trivial, .inr hl⟩

theorem carefully_refuse (r : Reply) : Carefully (refuse r) := carefully_answer r _

/-- Looking things up first. -/
theorem Carefully.after {α β : Type} {p : M α} {k : α → M β} (hp : Silently Intact p)
    (hk : ∀ a, Carefully (k a)) : Carefully (p >>= k) := by
  intro s b s' h
  obtain ⟨a, s₁, ha, hb⟩ := bind_eq_ok h
  obtain ⟨l, rfl, hs⟩ := hp s a s₁ ha
  obtain ⟨l, -, hs'⟩ := hk a s₁ b s' hb
  exact ⟨l, trivial, hs'.after hs⟩

/-- What a check says goes with its failing. -/
def SaysIfFailed (failed : Bool) (l : List (ConnId × Reply)) : Prop := failed = false → l = []

/-- A check first, which ends the handler when it fails. -/
theorem Carefully.check {p : M Bool} {q : M CommandStatus} (hp : Yields Intact SaysIfFailed p)
    (hq : Carefully q) : Carefully (do if (← p) then return .failure else q) := by
  intro s b s' h
  obtain ⟨failed, s₁, ha, hb⟩ := bind_eq_ok h
  obtain ⟨l, hl, hs⟩ := hp s failed s₁ ha
  cases failed with
  | true =>
    cases hb
    exact ⟨l, trivial, .inr hs⟩
  | false =>
    rw [hl rfl] at hs
    obtain ⟨l', -, hs'⟩ := hq s₁ b s' hb
    exact ⟨l', trivial, hs'.after hs⟩

theorem carefully_ite {α : Type} {c : Prop} [Decidable c] {p q : M α} (hp : Carefully p)
    (hq : Carefully q) : Carefully (if c then p else q) :=
  prop_ite (fun _ => hp) fun _ => hq

theorem silently_conn : Silently Intact conn := silently_gets intact_labelled _

theorem silently_deref {α : Type} (a : Option α) : Silently Intact (deref a) := by
  cases a with
  | none => exact yields_fail _
  | some a => exact silently_pure intact_labelled a

theorem silently_chdir (path : CStr) : Silently Intact (chdir path) :=
  silently_of_keeps <| keeps_chdir (R := fun s s' => Intact s [] s')
    (fun s _ => by rw [Intact, List.append_nil]) path

/-- The test every handler but three begins with. -/
theorem carefully_loggedIn {p : Connection → M CommandStatus} (hp : ∀ c, Carefully (p c)) :
    Carefully (do
      let c ← conn
      if c.loggedIn = false then refuse .pleaseLogin else p c) :=
  Carefully.after silently_conn fun c => carefully_ite (carefully_refuse _) (hp c)

/-! ## The checks -/

theorem says_failed (r : Reply) : Yields Intact SaysIfFailed (do reply r; return true : M Bool) :=
  Yields.bind intact_labelled (intact_reply r) fun _ _ _ =>
    yields_pure intact_labelled fun h => by cases h

theorem says_passed : Yields Intact SaysIfFailed (return false : M Bool) :=
  yields_pure intact_labelled fun _ => rfl

theorem says_ite {c : Prop} [Decidable c] {p q : M Bool} (hp : Yields Intact SaysIfFailed p)
    (hq : Yields Intact SaysIfFailed q) : Yields Intact SaysIfFailed (if c then p else q) :=
  prop_ite (fun _ => hp) fun _ => hq

theorem says_checkExists (failed : Reply) (path : CStr) :
    Yields Intact SaysIfFailed (checkExists failed path) :=
  Silently.bind intact_labelled (silently_gets intact_labelled _) fun _ =>
    says_ite (says_failed _) says_passed

theorem says_checkDirectory (directory : Bool) :
    Yields Intact SaysIfFailed (checkDirectory directory) :=
  says_ite says_passed (says_failed _)

theorem says_checkFileExists (server : ServerT) (path : CStr) :
    Yields Intact SaysIfFailed (checkFileExists server path) := by
  apply Silently.bind intact_labelled silently_conn
  intro c
  apply Silently.bind intact_labelled (silently_deref _)
  intro workingDirectory
  apply Silently.bind intact_labelled (silently_chdir _)
  intro _
  apply Silently.bind intact_labelled (silently_gets intact_labelled _)
  intro fp
  apply Silently.bind intact_labelled (silently_chdir _)
  intro _
  refine says_ite ?_ says_passed
  exact Silently.bind intact_labelled (silently_gets intact_labelled _) fun _ =>
    says_ite (says_failed _) (says_failed _)

theorem says_checkDirectoryAccess (server : ServerT) (path : CStr) :
    Yields Intact SaysIfFailed (checkDirectoryAccess server path) := by
  apply Silently.bind intact_labelled silently_conn
  intro c
  apply Silently.bind intact_labelled (silently_deref _)
  intro workingDirectory
  apply Silently.bind intact_labelled (silently_chdir _)
  intro _
  apply Silently.bind intact_labelled (silently_chdir _)
  intro entered
  refine says_ite (says_failed _) ?_
  apply Silently.bind intact_labelled (silently_gets intact_labelled _)
  intro current
  apply Silently.bind intact_labelled (silently_deref _)
  intro currentDirectory
  apply Silently.bind intact_labelled (silently_chdir _)
  intro _
  exact says_ite (says_failed _) says_passed

theorem says_checkListArgument (server : ServerT) (path : CStr) :
    Yields Intact SaysIfFailed (checkListArgument server path) := by
  refine Yields.bind intact_labelled (says_checkExists _ path) fun failed l hl => ?_
  cases failed with
  | true => exact yields_pure intact_labelled fun h => by cases h
  | false =>
    rw [hl rfl]
    exact says_checkDirectoryAccess server path

/-! ## The handlers -/

/-- `CWD` and `CDUP` take the new directory over only once they go through with
it. -/
theorem carefully_changeDir (server : ServerT) (path : CStr) :
    Carefully (changeDir server path) := by
  have hP := politely_follows
  have hchdir : ∀ path, Politely (chdir path) := fun path => politely_of_out fun s => by
    rw [chdir_apply]
  have hset : ∀ f, Politely (modifyConn f) := fun f => politely_of_out fun _ => rfl
  apply Carefully.check (says_checkExists _ path)
  apply Carefully.after (silently_gets intact_labelled _)
  intro directory
  apply Carefully.check (says_checkDirectory directory)
  apply carefully_of_polite
  refine hP.bind hP.conn fun _ => hP.bind (hP.deref _) fun _ => hP.bind (hchdir _) fun _ =>
    hP.bind (hchdir _) fun _ => hP.bind (hP.gets _) fun _ => hP.bind (hset _) fun _ =>
      hP.bind (hchdir _) fun _ => hP.bind ?_ fun _ => politely_answer rfl _
  exact hP.bind hP.conn fun _ => hP.bind (hP.deref _) fun _ => prop_ite
    (fun _ => hP.bind (hP.gets _) fun _ => hset _) fun _ => hP.pure _

/-- `remove` has removed nothing when it fails. -/
theorem carefully_deleteFile (path : CStr) : Carefully (deleteFile path) := by
  apply Carefully.after silently_conn
  intro c
  apply Carefully.after (silently_deref _)
  intro workingDirectory
  apply Carefully.after (silently_chdir _)
  intro _ s status s' h
  rw [remove_bind_apply] at h
  cases hremove : s.os.tree.remove s.os.cwd path with
  | none =>
    rw [hremove] at h
    exact carefully_refuse .deleteFailed s status s' h
  | some t =>
    rw [hremove] at h
    obtain ⟨l, -, hl⟩ := politely_answer (r := .fileActionOkay) rfl .success _ _ _ h
    exact ⟨l, trivial, .inl hl⟩

theorem carefully_port (ans : Answers) (arg : CStr) :
    Carefully (createActiveDataSocket ans arg) := by
  cases h : parseHostPortValues arg with
  | none =>
    rw [createActiveDataSocket, h]
    exact carefully_refuse _
  | some hostPort =>
    refine carefully_of_polite (politely_follows.active politely_reply ?_ (yields_fail _) ?_ h)
    · exact fun _ => politely_of_out fun _ => rfl
    · exact fun _ _ _ => politely_of_out fun _ => rfl

theorem carefully_retr (server : ServerT) (ans : Answers) (command : Command) :
    Carefully (retrCommand server ans command) := by
  refine carefully_loggedIn fun c => carefully_ite (carefully_refuse _) <|
    carefully_ite (carefully_refuse _) ?_
  refine Carefully.after (silently_deref _) fun path => ?_
  exact Carefully.check (says_checkFileExists server path)
    (carefully_of_polite (politely_transfer ans _ command))

theorem carefully_list (server : ServerT) (ans : Answers) (command : Command) :
    Carefully (listCommand server ans command) := by
  refine carefully_loggedIn fun c => carefully_ite (carefully_refuse _) ?_
  split
  next => exact carefully_of_polite (politely_transfer ans _ command)
  next path _ =>
    exact Carefully.check (says_checkListArgument server path)
      (carefully_of_polite (politely_transfer ans _ command))

theorem carefully_type (command : Command) : Carefully (typeCommand command) := by
  have hset : ∀ f, Politely (modifyConn f) := fun f => politely_of_out fun _ => rfl
  refine carefully_loggedIn fun c => carefully_ite (carefully_refuse _) ?_
  refine Carefully.after (silently_deref _) fun type => carefully_ite ?_ (carefully_ite ?_ ?_)
  · exact carefully_of_polite (politely_follows.bind (hset _) fun _ => politely_answer rfl _)
  · exact carefully_of_polite (politely_follows.bind (hset _) fun _ => politely_answer rfl _)
  · exact carefully_refuse _

/-- Every handler but those of `USER` and `PASS`, which refuse nothing. -/
theorem carefully_handler {name : CStr} {handler : Handler}
    (hmem : (name, handler) ∈ commandHandlers) (huser : name ≠ lit "USER")
    (hpass : name ≠ lit "PASS") (server : ServerT) (ans : Answers) (command : Command) :
    Carefully (handler server ans command) := by
  have hP := politely_follows
  simp only [commandHandlers, List.mem_cons, Prod.mk.injEq, List.not_mem_nil, or_false] at hmem
  rcases hmem with h | h | h | h | h | h | h | h | h | h | h | h | h | h | h <;>
    obtain ⟨rfl, rfl⟩ := h
  · exact absurd rfl huser
  · exact absurd rfl hpass
  · exact carefully_loggedIn fun _ => carefully_ite (carefully_refuse _) <|
      Carefully.after (silently_deref _) fun _ => carefully_changeDir server _
  · exact carefully_loggedIn fun _ => carefully_changeDir server _
  · exact carefully_of_polite (hP.pure _)
  · exact carefully_loggedIn fun _ => carefully_ite (carefully_refuse _) <|
      Carefully.after (silently_deref _) fun _ => carefully_deleteFile _
  · exact carefully_loggedIn fun _ => Carefully.after (silently_deref _) fun _ =>
      carefully_answer _ _
  · refine carefully_loggedIn fun _ => carefully_of_polite ?_
    refine politely_follows.passive politely_reply ?_ (yields_fail _) ?_
    · exact fun _ => politely_of_out fun _ => rfl
    · exact fun _ _ _ => politely_of_out fun _ => rfl
  · exact carefully_loggedIn fun _ => carefully_ite (carefully_refuse _) <|
      Carefully.after (silently_deref _) fun _ => carefully_port ans _
  · exact carefully_loggedIn fun _ => carefully_of_polite <|
      hP.bind (politely_reply _ rfl) fun _ => hP.bind (politely_reply _ rfl) fun _ =>
        politely_answer rfl _
  · exact carefully_loggedIn fun _ => carefully_answer _ _
  · exact carefully_retr server ans command
  · exact carefully_loggedIn fun _ => carefully_ite (carefully_refuse _) <|
      carefully_ite (carefully_refuse _) <| carefully_of_polite (politely_transfer ans _ command)
  · exact carefully_list server ans command
  · exact carefully_type command

/-- Every line. -/
theorem carefully_executeCommand (server : ServerT) (ans : Answers) (parsed : Option Command) :
    Carefully (executeCommand server ans parsed) := by
  have hunknown : Carefully (executeCommand server ans none) := by
    intro s status s' h
    obtain ⟨_, s₁, hprint, h⟩ := bind_eq_ok h
    cases h
    rw [notFoundMessage, conn_bind_apply] at hprint
    obtain ⟨l, -, hl⟩ := intact_reply _ s _ _ hprint
    exact ⟨l, trivial, .inr hl⟩
  cases parsed with
  | none => exact hunknown
  | some command =>
    by_cases hlogs : command.word = lit "USER" ∨ command.word = lit "PASS"
    · refine carefully_of_polite (politely_follows.logs politely_reply ?_ hlogs)
      exact fun f _ => politely_of_out fun _ => rfl
    obtain ⟨huser, hpass⟩ := not_or.mp hlogs
    cases hh : getCommandHandler command with
    | none =>
      rw [executeCommand_of_none hh]
      exact hunknown
    | some handler =>
      have hmem := getCommandHandler_mem hh
      rw [executeCommand_of_mem hmem]
      exact carefully_handler hmem huser hpass server ans command

/-! ## Runs -/

/-- A record put back where it came from. -/
theorem handled_same {S : Sessions} {id : ConnId} {c : Connection} (hc : S.conns id = some c)
    (w : World) : (S.handled id (true, c, w)).conns = S.conns := by
  rw [Sessions.handled, if_pos rfl, ← hc, Function.update_eq_self]

/-- **A refused command can be retried.** Among the replies the server sends while
it handles a line there is one with the code 500 or 550: then every record is as
it was before the line, the sender's and the others', and so is everything
outside the records but for the directory the process stands in. -/
theorem refused_changes_nothing (u : Setup) (events : List SessionEvent) (S S' : Sessions)
    (id : ConnId) (line : CStr) (ans : Answers)
    (htook : (sessions u).Took events S (.line id line ans) S') (l : List (ConnId × Reply))
    (hl : S'.world.sent = S.world.sent ++ l) (e : ConnId × Reply) (he : e ∈ l)
    (hcode : e.2.code = some 500 ∨ e.2.code = some 550) :
    S'.conns = S.conns ∧ S'.world = { S.world with
      os := { S.world.os with cwd := S'.world.os.cwd }, sent := S'.world.sent } := by
  have hrefuses : e.2.refuses = true := by
    rw [Reply.refuses]
    rcases hcode with h | h
    · rw [h]
      rfl
    · rw [h]
      rfl
  obtain ⟨-, -, -, -, hstep⟩ := htook
  obtain ⟨c, parsed, hc, -, ⟨status, s, hx, -, rfl⟩ | ⟨command, -, -, rfl⟩⟩ :=
    handleLine_eq_ok hstep
  · obtain ⟨l', -, ⟨hout, hpolite⟩ | hintact⟩ :=
      carefully_executeCommand u.server ans parsed _ _ _ hx
    · obtain rfl : l' = l := by
        have hsent : S.world.sent ++ s.out = S.world.sent ++ l := hl
        rw [hout] at hsent
        exact List.append_cancel_left hsent
      rw [hpolite e he] at hrefuses
      cases hrefuses
    · have hconn : s.conn = c := congrArg Ctx.conn hintact
      refine ⟨?_, ?_⟩
      · rw [hconn]
        exact handled_same hc _
      · show S.world.merge id s = _
        rw [World.merge, hintact]
        simp [Sessions.handled, Ctx.start]
  · -- the good-bye is no refusal
    have hsent : S.world.sent ++ (Ctx.start S.world.os c).goodbye.out = S.world.sent ++ l := hl
    have hout := List.append_cancel_left hsent
    rw [← hout, Ctx.goodbye] at he
    rw [mem_delivers_reply e (by simpa [Ctx.start] using he)] at hrefuses
    cases hrefuses

/-- A client that sets up a data socket and asks for a file that is not there
still has its data socket. -/
theorem refused_changes_nothing_retr : ∃ S S',
    (sessions smallSetup).Took
        (oneClient ["USER anonymous", "PASS", "PASV"] ++ [.line 0 (lit "RETR a") (.fine 7)])
        S (.line 0 (lit "RETR a") (.fine 7)) S' ∧
      (S.conns 0).any (fun c => c.dataSocket.isSome) = true ∧ S'.conns = S.conns := by
  obtain ⟨S, S', htook, hdata, hsent⟩ := Machine.exists_of_step (m := sessions smallSetup)
    (P := fun S S' => (S.conns 0).any (fun c => c.dataSocket.isSome) = true ∧
      S'.world.sent = S.world.sent ++ [(0, .permissionDenied)])
    (l := oneClient ["USER anonymous", "PASS", "PASV"]) (i := .line 0 (lit "RETR a") (.fine 7))
    (by decide +kernel)
  refine ⟨S, S', htook, hdata, ?_⟩
  exact (refused_changes_nothing smallSetup _ S S' 0 _ _ htook _ hsent _ (List.mem_singleton_self _)
    (.inr (by decide))).1

end MyFtp.Server
