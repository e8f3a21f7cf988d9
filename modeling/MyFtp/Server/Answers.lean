import MyFtp.Server.FinalReply
import MyFtp.Server.Login

/-!
# What the answer to a request looks like

Of the words the server knows the client of this repository sends nine. To a line with one of
them the server process says exactly one final reply, or it says nothing and forks a child.
A child says what it has to say, or it is stopped on the way and says a part of that.

> `request_answered`: this holds for every line with one of the nine words; a child is
> forked for a transfer only.

> `child_utters`: whatever becomes of a child, it says nothing, one reply, or a preliminary
> one and then a final one.

> `loggedIn_step`: the record of a client changes its login with `PASS` only, and then the
> reply says so.
-/

namespace MyFtp.Server

open MyFtp.Posix
open Prog

/-! ## Children -/

/-- What a child can have said when it ends or is stopped. -/
inductive Cut : List Reply → Prop
  | silent : Cut []
  | opened {r : Reply} (h : r.isPreliminary = true) : Cut [r]
  | answered {r : Reply} (h : r.isFinal = true) : Cut [r]
  | whole {r r' : Reply} (h : r.isPreliminary = true) (h' : r'.isFinal = true) : Cut [r, r']

section

variable {α : Type} {P : α → List Reply → Prop} {E : List Reply → Prop} {server : ServerT}
  {cans : ChildAnswers} {command : Command}

theorem utters_reply_bind {r : Reply} {k : Unit → M α} (hE : E [])
    (hk : Utters Told (fun b l => P b (r :: l)) (fun l => E (r :: l)) (k ())) :
    Utters Told P E (reply r >>= k) := by
  refine Utters.bind told_labelled (Q := fun _ l => l = [r]) (fun s => ?_) fun _ l hl => ?_
  · rw [show reply r s = dprintf s.conn.clientSockfd r s from rfl, dprintf_apply]
    split
    next => exact ⟨[], told_labelled.refl s, fun _ h => (by cases h), fun _ _ => hE⟩
    next hk =>
      refine ⟨[r], ⟨⟨rfl, rfl, rfl, rfl, rfl, rfl⟩, ?_, fun _ => by simpa using hk⟩, fun _ _ => rfl,
        fun _ h => by cases h⟩
      rw [List.flatMap_singleton]
  · rw [hl]
    exact hk

/-- A last word. -/
theorem utters_answer {r : Reply} {a : α} (hE : E []) (h : P a [r]) :
    Utters Told P E (do reply r; return a : M α) :=
  utters_reply_bind hE (utters_pure told_labelled h)

theorem utters_gets_bind {β : Type} {f : Ctx → β} {k : β → M α} (hE : E [])
    (hk : ∀ b, Utters Told P E (k b)) : Utters Told P E (gets f >>= k) :=
  Utters.bind_silent told_labelled (fun s => told_labelled.refl s) hE hk

theorem utters_conn_bind {k : Connection → M α} (hE : E [])
    (hk : ∀ c, Utters Told P E (k c)) : Utters Told P E (conn >>= k) :=
  utters_gets_bind hE hk

theorem utters_deref_bind {β : Type} {b : Option β} {k : β → M α} (hE : E [])
    (hk : ∀ b, Utters Told P E (k b)) : Utters Told P E (deref b >>= k) := by
  refine Utters.bind_silent told_labelled (fun s => ?_) hE hk
  cases b with
  | none => exact told_labelled.refl s
  | some b => exact told_labelled.refl s

theorem utters_chdir_bind {path : CStr} {k : Bool → M α} (hE : E [])
    (hk : ∀ b, Utters Told P E (k b)) : Utters Told P E (chdir path >>= k) :=
  Utters.bind_silent told_labelled (keeps_chdir (R := fun s s' => Told s [] s')
    (fun _ _ => told_nil ⟨rfl, rfl, rfl, rfl, rfl, rfl⟩ rfl) path) hE hk

theorem utters_ite {c : Prop} [Decidable c] {p q : M α} (hp : Utters Told P E p)
    (hq : Utters Told P E q) : Utters Told P E (if c then p else q) :=
  prop_ite (fun _ => hp) fun _ => hq

/-- Printing on the data connection says nothing on the other one, even where it is the end. -/
theorem mute_dataDprintf (item : DataItem) :
    Keeps (fun s s' => Told s [] s') (dataDprintf cans item) := by
  intro s
  have hprint : (dataDprintf cans item s).2 = s ∨ _ := dataDprintf_leaves item s
  rcases hprint with h | h
  · rw [h]
    exact told_labelled.refl s
  · rw [h]
    exact told_nil ⟨rfl, rfl, rfl, rfl, rfl, rfl⟩ rfl

theorem utters_sendChunks_bind {l : List (List Byte)} {k : Unit → M α} (hE : E [])
    (hk : Utters Told P E (k ())) : Utters Told P E (sendChunks cans l >>= k) := by
  refine Utters.bind_silent told_labelled ?_ hE fun _ => hk
  induction l with
  | nil => exact fun s => told_labelled.refl s
  | cons chunk rest ih =>
    intro s
    rcases bind_leaves (dataDprintf cans (.bytes (cstr chunk))) (fun _ => sendChunks cans rest) s
      with h | ⟨_, -, h⟩
    · rw [sendChunks, h]
      exact mute_dataDprintf _ s
    · rw [sendChunks, h]
      exact told_labelled.trans (mute_dataDprintf _ s) (ih _)

theorem utters_ls : Utters Told (fun _ l => Cut l) Cut (executeLsCommand server cans command) := by
  have hgoto : Utters Told (fun status l =>
      l = if status = .failure then [Reply.failedToListDirectory] else []) Cut
      (gotoPath command) :=
    utters_conn_bind .silent fun _ => utters_deref_bind .silent fun _ =>
      utters_chdir_bind .silent fun _ => utters_chdir_bind .silent fun _ =>
        utters_ite (utters_answer .silent rfl) (utters_pure told_labelled rfl)
  refine Utters.bind told_labelled hgoto fun status l hl => ?_
  by_cases hstatus : status = .failure
  · rw [if_pos hstatus] at hl ⊢
    rw [hl]
    exact utters_pure told_labelled (.answered rfl)
  rw [if_neg hstatus] at hl ⊢
  rw [hl]
  have hlist : Utters Told (fun status l =>
      l = [if status = .failure then Reply.localError else .hereComesListing]) Cut
      (listDirectory cans) := by
    refine utters_ite (utters_answer .silent rfl) ?_
    refine utters_reply_bind .silent (utters_gets_bind (.opened rfl) fun _ => ?_)
    exact Utters.bind_silent told_labelled (mute_dataDprintf _) (.opened rfl) fun _ =>
      utters_pure told_labelled rfl
  refine Utters.bind told_labelled hlist fun status' l' hl' => ?_
  by_cases hstatus' : status' = .failure
  · rw [if_pos hstatus'] at hl' ⊢
    rw [hl']
    exact utters_pure told_labelled (.answered rfl)
  · rw [if_neg hstatus'] at hl' ⊢
    rw [hl']
    exact utters_chdir_bind (.opened rfl) fun _ => utters_answer (.opened rfl) (.whole rfl rfl)

theorem utters_retr :
    Utters Told (fun _ l => Cut l) Cut (executeRetrCommand server cans command) := by
  refine utters_reply_bind .silent (utters_conn_bind (.opened rfl) fun _ =>
    utters_deref_bind (.opened rfl) fun _ => utters_chdir_bind (.opened rfl) fun _ =>
      utters_deref_bind (.opened rfl) fun _ => utters_gets_bind (.opened rfl) fun file =>
        utters_chdir_bind (.opened rfl) fun _ => ?_)
  split
  next => exact utters_answer (.opened rfl) (.whole rfl rfl)
  next => exact utters_answer (.opened rfl) (.whole rfl rfl)
  next =>
    exact utters_sendChunks_bind (.opened rfl) (utters_answer (.opened rfl) (.whole rfl rfl))

theorem utters_stor : Utters Told (fun _ l => Cut l) Cut (executeStorCommand cans command) := by
  have hopen : ∀ path, Keeps (fun s s' => Told s [] s') (fopenWrite path) := by
    intro path s
    rw [fopenWrite]
    split
    next => exact told_nil ⟨rfl, rfl, rfl, rfl, rfl, rfl⟩ rfl
    next => exact told_labelled.refl s
  have hwrite : ∀ target content, Keeps (fun s s' => Told s [] s') (fwriteAll target content) :=
    fun _ _ _ => told_nil ⟨rfl, rfl, rfl, rfl, rfl, rfl⟩ rfl
  refine utters_deref_bind .silent fun path =>
    Utters.bind_silent told_labelled (hopen path) .silent fun file => utters_reply_bind .silent ?_
  cases file with
  | none => exact utters_answer (.opened rfl) (.whole rfl rfl)
  | some target =>
    refine Utters.bind_silent told_labelled (hwrite _ _) (.opened rfl) fun _ =>
      utters_reply_bind (.opened rfl) (utters_ite ?_ ?_)
    · exact Utters.bind_silent told_labelled (hwrite _ _) (.whole rfl rfl) fun _ =>
        utters_pure told_labelled (.whole rfl rfl)
    · exact utters_pure told_labelled (.whole rfl rfl)

/-- Whatever a child runs, and wherever it is stopped. -/
theorem utters_run (body : TransferBody) :
    Utters Told (fun _ l => Cut l) Cut (body.run server cans command) := by
  cases body with
  | executeLsCommand => exact utters_ls
  | executeRetrCommand => exact utters_retr
  | executeStorCommand => exact utters_stor

end

/-- **What a child says.** A child says to its client nothing, one reply, or a preliminary one
and then a final one; nobody else is told anything. -/
theorem child_utters {u : Setup} {S S' : Sessions} {id : ConnId} {k : Nat} {child : Child}
    {cans : ChildAnswers} (hreach : (sessions u).Reachable S)
    (hk : S.world.children[k]? = some (id, child))
    (h : S.step u.server (.child k cans) = .ok S') :
    S'.world.children = S.world.children.eraseIdx k ∧
      ∃ l, S'.world.sent = S.world.sent ++ l.map (id, ·) ∧ Cut l := by
  obtain ⟨events, hrun⟩ := hreach
  obtain ⟨w, hw, rfl⟩ := map_eq_ok h
  obtain ⟨id', child', s, hk', hs, rfl⟩ := World.runChild_eq_ok hw
  cases hk.symm.trans hk'
  have hready := ready_of_run hrun id child (List.mem_of_getElem? hk)
  have hsig : S.world.os.signals .sigpipe = .default := (sound_of_run hrun).sigpipe
  have hutters : Utters Told (fun _ l => Cut l) Cut
      (child.body.run u.server cans child.command) := utters_run child.body
  obtain ⟨l, htold, hok, herror⟩ := hutters
    (Ctx.start { S.world.os with cwd := child.cwd, desc := child.desc } child.connection)
  have hcut : Cut l := by
    cases hend : (child.body.run u.server cans child.command
      (Ctx.start { S.world.os with cwd := child.cwd, desc := child.desc } child.connection)).1 with
    | ok status => exact hok status hend
    | error e => exact herror e hend
  have hsent := (htold.sent_to hready.control hsig).1
  rw [← hs] at hsent
  exact ⟨rfl, l, congrArg (S.world.sent ++ ·) hsent, hcut⟩

/-! ## Requests -/

/-- The words the client sends. -/
def requestNames : List CStr :=
  [lit "USER", lit "PASS", lit "PWD", lit "CWD", lit "PASV", lit "RETR", lit "STOR", lit "LIST",
    lit "QUIT"]

/-- The words that begin a transfer. -/
def transferNames : List CStr := [lit "RETR", lit "STOR", lit "LIST"]

/-- One final reply, and the session goes on. -/
def Single (status : CommandStatus) (l : List Reply) : Prop :=
  status ≠ .quit ∧ ∃ r, l = [r] ∧ r.isFinal = true

theorem single_answer {r : Reply} {status : CommandStatus} (h : r.isFinal = true)
    (hstatus : status ≠ .quit) :
    Yields Told Single (do reply r; return status : M CommandStatus) :=
  told_answer ⟨hstatus, r, rfl, h⟩

theorem single_loggedIn {p : Connection → M CommandStatus} (hp : ∀ c, Yields Told Single (p c)) :
    Yields Told Single (do
      let c ← conn
      if c.loggedIn = false then refuse .pleaseLogin else p c) :=
  silently_conn_bind fun c => told_ite (single_answer rfl (by simp)) (hp c)

/-- A check passes without a word, or says the one reply. -/
theorem single_check {p : M Bool} {q : M CommandStatus} {r : Reply} (hr : r.isFinal = true)
    (hp : Yields Told (fun failed l => l = if failed then [r] else []) p)
    (hq : Yields Told Single q) :
    Yields Told Single (do if (← p) then return .failure else q) := by
  refine Yields.bind told_labelled hp fun failed l hl => ?_
  rw [hl]
  cases failed with
  | true => exact yields_pure told_labelled ⟨by simp, r, rfl, hr⟩
  | false => exact hq

theorem single_changeDir (server : ServerT) (path : CStr) :
    Yields Told Single (changeDir server path) := by
  refine single_check (r := .failedToChangeDirectory) rfl
    (silently_gets_bind fun _ => told_ite (told_answer rfl) (yields_pure told_labelled rfl))
    (silently_gets_bind fun directory => ?_)
  refine single_check (r := .failedToChangeDirectory) rfl
    (told_ite (yields_pure told_labelled rfl) (told_answer rfl)) ?_
  refine silently_conn_bind fun _ => silently_deref_bind fun _ => silently_chdir_bind fun _ =>
    silently_chdir_bind fun _ => silently_gets_bind fun _ =>
      silently_modifyConn_bind (fun _ => ⟨rfl, rfl⟩) fun _ => silently_chdir_bind fun _ => ?_
  have hcheck : Silently Told (checkNewPath server) :=
    silently_conn_bind fun _ => silently_deref_bind fun _ =>
      told_ite
        (silently_gets_bind fun _ => silently_of_keeps fun _ =>
          told_nil ⟨rfl, rfl, rfl, rfl, rfl, rfl⟩ rfl)
        (silently_pure told_labelled _)
  exact hcheck.bind told_labelled fun _ => single_answer rfl (by simp)

theorem single_user (command : Command) : Yields Told Single (userCommand command) :=
  silently_conn_bind fun _ => told_ite (single_answer rfl (by simp))
    (silently_modifyConn_bind (fun _ => ⟨rfl, rfl⟩) fun _ => single_answer rfl (by simp))

/-- `PASS` lets the client in and says so, or does neither. -/
theorem passCommand_said {command : Command} {s s' : Ctx} {status : CommandStatus}
    (h : passCommand command s = (.ok status, s')) :
    status ≠ .quit ∧ ∃ r, Told s [r] s' ∧ r.isFinal = true ∧
      (s.conn.loggedIn = false → (s'.conn.loggedIn = true ↔ r.code = some 230)) := by
  obtain ⟨checked, s₁, hcheck, h⟩ := bind_eq_ok h
  have hrefused : ∀ {r : Reply}, (s.conn.loggedIn = false → r.code ≠ some 230) →
      r.isFinal = true → refuse r s = (.ok checked, s₁) →
      status ≠ .quit ∧ ∃ r, Told s [r] s' ∧ r.isFinal = true ∧
        (s.conn.loggedIn = false → (s'.conn.loggedIn = true ↔ r.code = some 230)) := by
    intro r hr hfinal hrefuse
    obtain ⟨l, rfl, htold⟩ := told_refuse r s checked s₁ hrefuse
    obtain ⟨rfl, hs₁⟩ := refuse_eq_ok hrefuse
    rw [if_pos rfl] at h
    cases h
    refine ⟨by simp, r, htold, hfinal, fun hl => ?_⟩
    rw [hs₁, hl]
    simp [hr hl]
  rw [checkPreconditions, conn_bind_apply] at hcheck
  split at hcheck
  next hlog => exact hrefused (fun hl => by rw [hl] at hlog; cases hlog) rfl hcheck
  next hlog =>
    split at hcheck
    next => exact hrefused (fun _ => by decide) rfl hcheck
    next huser =>
      cases hcheck
      rw [if_neg (by simp), processLogin, conn_bind_apply] at h
      obtain ⟨user, hu⟩ := Option.ne_none_iff_exists'.mp huser
      rw [hu, deref_some, pure_bind_apply] at h
      split at h
      next =>
        obtain ⟨_, s₂, hreply, h⟩ := bind_eq_ok h
        obtain ⟨l, rfl, htold⟩ := told_reply _ _ _ s₂ hreply
        cases h
        refine ⟨by simp, _, ⟨⟨htold.desc, htold.signals, htold.hungup, htold.control,
          htold.dataSocket, htold.forked⟩, htold.out, htold.heard⟩, rfl, fun _ => ?_⟩
        exact ⟨fun _ => by decide, fun _ => rfl⟩
      next =>
        rw [modifyConn_bind_apply] at h
        obtain ⟨l, rfl, htold⟩ := told_refuse _ _ status s' h
        obtain ⟨rfl, rfl⟩ := refuse_eq_ok h
        refine ⟨by simp, _, ⟨⟨htold.desc, htold.signals, htold.hungup, htold.control,
          htold.dataSocket, htold.forked⟩, htold.out, htold.heard⟩, rfl, fun hl => ?_⟩
        rw [hl]
        exact ⟨fun h => (by cases h), fun h => absurd h (by decide)⟩

/-- A word with a handler of its own that says one reply. -/
theorem single_handler {name : CStr} {handler : Handler} (hmem : (name, handler) ∈ commandHandlers)
    (hname : name = lit "USER" ∨ name = lit "PWD" ∨ name = lit "CWD") (server : ServerT)
    (ans : Answers) (command : Command) : Yields Told Single (handler server ans command) := by
  simp only [commandHandlers, List.mem_cons, Prod.mk.injEq, List.not_mem_nil, or_false] at hmem
  have hother : name ∉ [lit "USER", lit "PWD", lit "CWD"] →
      Yields Told Single (handler server ans command) := by
    intro hnot
    simp only [List.mem_cons, List.not_mem_nil, or_false] at hnot
    exact absurd hname hnot
  rcases hmem with h | h | h | h | h | h | h | h | h | h | h | h | h | h | h <;>
    obtain ⟨rfl, rfl⟩ := h
  case inl => exact single_user command
  case inr.inr.inl =>
    exact single_loggedIn fun _ => told_ite (single_answer rfl (by simp))
      (silently_deref_bind fun _ => single_changeDir server _)
  case inr.inr.inr.inr.inr.inr.inl =>
    exact single_loggedIn fun _ => silently_deref_bind fun _ => single_answer rfl (by simp)
  all_goals exact hother (by decide)

/-- What the handling of a line leaves behind: one final reply, or a child. -/
def Leaves (id : ConnId) (command : Command) (s : Ctx) : Prop :=
  (∃ r, s.out = [(id, r)] ∧ r.isFinal = true ∧ s.forked = []) ∨
    (s.out = [] ∧ command.word ∈ transferNames ∧ ∃ child, s.forked = [child])

section

variable {u : Setup} {S S' : Sessions} {id : ConnId} {line : CStr} {ans : Answers}
  {server : ServerT} {command : Command} {status : CommandStatus} {s s' : Ctx}

theorem leaves_of_told {r : Reply} (hs : Speaks id s) (hout : s.out = []) (hforked : s.forked = [])
    (hr : r.isFinal = true) (h : Told s [r] s') : Leaves id command s' := by
  refine .inl ⟨r, ?_, hr, h.forked.trans hforked⟩
  rw [(h.sent hs).1, hout]
  rfl

/-- `PASV` says one thing. -/
theorem pasv_leaves (server : ServerT) (hs : Speaks id s) (hout : s.out = [])
    (hforked : s.forked = [])
    (hword : command.word = lit "PASV") (h : pasvCommand ans s = (.ok status, s')) :
    Leaves id command s' := by
  have houtcome : Outcome server ans id (some command) status s s' := pasv_outcome hs hword h
  cases houtcome with
  | answered l hstatus hfinal htold hother => exact absurd hword (hother command rfl).1
  | quit command' hparsed hquit hstatus hs' =>
    cases hparsed
    rw [hword] at hquit
    exact absurd hquit (by decide)
  | declined command' r hparsed hword' hstatus hr htold hoffer =>
    refine leaves_of_told hs hout hforked ?_ htold
    rcases hr with rfl | rfl
    · rfl
    · rfl
  | setUp command' hparsed hword' hstatus hlog hoffer hup hset =>
    cases hparsed
    have hone : ∀ {r : Reply}, s.out ++ [(id, r)] = [(id, r)] := by
      intro r
      rw [hout]
      rfl
    cases hset with
    | offered fd d x r hsocket hfree hof hlisten =>
      refine .inl ⟨r, hone, ?_, hforked⟩
      unfold offer at hof
      rw [if_pos hword] at hof
      cases hof
      rfl
    | noSocket => exact .inl ⟨.localError, hone, rfl, hforked⟩
    | deaf => exact .inl ⟨.localError, hone, rfl, hforked⟩
  | transfer command' body cwd hparsed hbody hrun =>
    cases hparsed
    have hw := (transferOf_eq_some hbody).1
    rw [hword] at hw
    cases body with
    | executeLsCommand => exact absurd hw (by decide)
    | executeRetrCommand => exact absurd hw (by decide)
    | executeStorCommand => exact absurd hw (by decide)

/-- A transfer is refused, or it leaves a child. -/
theorem transfer_leaves {body : TransferBody} {W : Path} (hs : Speaks id s) (hout : s.out = [])
    (hforked : s.forked = []) (hW : s.conn.workingDirectory = some W)
    (hbody : bodyOf command.word = some body)
    (h : executeCommand server ans (some command) s = (.ok status, s')) :
    Leaves id command s' := by
  have hword := bodyOf_eq_some.mp hbody
  have hfinds : body = .executeLsCommand → ListFinds s W command := by
    rintro rfl
    rw [executeCommand_of_mem (by rw [← hword]; exact List.mem_of_getElem? (i := 13) rfl)] at h
    exact listFinds_of_ok hW h
  have htransfer : command.word ∈ transferNames := by
    rw [← hword]
    cases body with
    | executeLsCommand => decide
    | executeRetrCommand => decide
    | executeStorCommand => decide
  have hof : transferOf server s command =
      if (transferTests server s W command body).1 = none then some body else none := by
    unfold transferOf
    rw [hbody, Option.bind_some, hW, Option.bind_some]
  rw [transferCommand_tests hW hbody hfinds] at h
  rcases htests : transferTests server s W command body with ⟨_ | r, cwd⟩
  · rw [htests] at h hof
    obtain ⟨-, -, d, hd⟩ := transferOf_eq_some hof
    obtain ⟨-, connected, d₁, desc₁, -, -, rfl⟩ := transfer_outcome (hs.inDir cwd) hd h
    have houtput : ((s.inDir cwd).transferred id ans body command connected d₁ desc₁).out =
        (transferReplies connected ans.fork).map (id, ·) := by
      show s.out ++ _ = _
      rw [hout]
      rfl
    have hchild : ((s.inDir cwd).transferred id ans body command connected d₁ desc₁).forked =
        transferChildren connected ans.fork
          ⟨body, command, { s.conn with dataSocket := some d₁ }, cwd, desc₁⟩ := by
      show s.forked ++ _ = _
      rw [hforked]
      rfl
    cases connected with
    | false => exact .inl ⟨.failedToEstablish, houtput, rfl, hchild⟩
    | true =>
      cases hfork : ans.fork with
      | false =>
        rw [hfork] at houtput hchild
        exact .inl ⟨.localError, houtput, rfl, hchild⟩
      | true =>
        rw [hfork] at houtput hchild
        exact .inr ⟨houtput, htransfer, _, hchild⟩
  · rw [htests] at h
    obtain ⟨l, rfl, htold⟩ := told_refuse _ _ status s' h
    exact leaves_of_told hs hout hforked (transferTests_final (by rw [htests])) htold.from

/-- Every request of the client. -/
theorem executeCommand_leaves {W : Path} (hs : Speaks id s) (hout : s.out = [])
    (hforked : s.forked = []) (hW : s.conn.workingDirectory = some W)
    (hword : command.word ∈ requestNames) (hquit : status ≠ .quit)
    (h : executeCommand server ans (some command) s = (.ok status, s')) :
    Leaves id command s' := by
  have hsingle : ∀ {handler : Handler}, (command.word, handler) ∈ commandHandlers →
      command.word = lit "USER" ∨ command.word = lit "PWD" ∨ command.word = lit "CWD" →
        Leaves id command s' := by
    intro handler hmem hname
    rw [executeCommand_of_mem hmem] at h
    obtain ⟨l, ⟨-, r, rfl, hr⟩, htold⟩ :=
      single_handler hmem hname server ans command s status s' h
    exact leaves_of_told hs hout hforked hr htold
  have hmem : ∀ {i : Nat} {name : CStr} {handler : Handler},
      commandHandlers[i]? = some (name, handler) → command.word = name →
        (command.word, handler) ∈ commandHandlers := by
    intro i name handler hi hname
    rw [hname]
    exact List.mem_of_getElem? hi
  simp only [requestNames, List.mem_cons, List.not_mem_nil, or_false] at hword
  rcases hword with hw | hw | hw | hw | hw | hw | hw | hw | hw
  · exact hsingle (hmem (i := 0) rfl hw) (.inl hw)
  · rw [executeCommand_of_mem (hmem (i := 1) rfl hw)] at h
    obtain ⟨-, r, htold, hr, -⟩ := passCommand_said h
    exact leaves_of_told hs hout hforked hr htold
  · exact hsingle (hmem (i := 6) rfl hw) (.inr (.inl hw))
  · exact hsingle (hmem (i := 2) rfl hw) (.inr (.inr hw))
  · rw [executeCommand_of_mem (hmem (i := 7) rfl hw)] at h
    exact pasv_leaves server hs hout hforked hw h
  · have hbody : bodyOf command.word = some .executeRetrCommand := bodyOf_eq_some.mpr hw.symm
    exact transfer_leaves hs hout hforked hW hbody h
  · have hbody : bodyOf command.word = some .executeStorCommand := bodyOf_eq_some.mpr hw.symm
    exact transfer_leaves hs hout hforked hW hbody h
  · have hbody : bodyOf command.word = some .executeLsCommand := bodyOf_eq_some.mpr hw.symm
    exact transfer_leaves hs hout hforked hW hbody h
  · rw [executeCommand_of_mem (hmem (i := 4) rfl hw)] at h
    cases h
    exact absurd rfl hquit

/-- **What a request is answered.** A line with one of the nine words gets one final reply from
the server process, or it is a transfer and leaves a child. -/
theorem request_answered (hreach : (sessions u).Reachable S) (hup : S.world.os.hungup id = false)
    (hcommand : commandOf line = some command) (hword : command.word ∈ requestNames)
    (h : S.step u.server (.line id line ans) = .ok S') :
    (∃ r, S'.world.sent = S.world.sent ++ [(id, r)] ∧ r.isFinal = true ∧
        S'.world.children = S.world.children) ∨
      (S'.world.sent = S.world.sent ∧ command.word ∈ transferNames ∧
        ∃ child, S'.world.children = S.world.children ++ [(id, child)]) := by
  obtain ⟨events, hrun⟩ := hreach
  obtain ⟨c, parsed, hc, hparse, hcases⟩ := handleLine_eq_ok h
  obtain ⟨hspeaks, W, hW⟩ := speaks_of_run hrun hc
  have hparsed : parsed = some command := (commandOf_of_parse hparse).symm.trans hcommand
  rcases hcases with ⟨status, s, hx, hquit, rfl⟩ | ⟨command', -, -, rfl⟩
  · rw [hparsed] at hx
    rcases executeCommand_leaves hspeaks rfl rfl hW hword hquit hx with
      ⟨r, hout, hr, hforked⟩ | ⟨hout, htransfer, child, hforked⟩
    · refine .inl ⟨r, congrArg (S.world.sent ++ ·) hout, hr, ?_⟩
      show S.world.children ++ s.forked.map (id, ·) = _
      rw [hforked]
      exact List.append_nil _
    · refine .inr ⟨?_, htransfer, child, ?_⟩
      · show S.world.sent ++ s.out = _
        rw [hout, List.append_nil]
      · show S.world.children ++ s.forked.map (id, ·) = _
        rw [hforked]
        rfl
  · refine .inl ⟨.serviceClosing, ?_, rfl, List.append_nil _⟩
    have hctl : S.world.os.desc c.clientSockfd = some (.control id) := hspeaks.owns.control
    show S.world.sent ++ ([] ++ S.world.os.delivers c.clientSockfd .serviceClosing) = _
    rw [delivers_of_control hctl hup]
    rfl

/-- Who is logged in after an event of the automaton that is no `PASS`. -/
theorem loggedIn_next {c c' : Connection} {state : Login} {e : LoginEvent}
    (he : ∀ password, e ≠ .pass password) (hc : c.HasLogin state)
    (hc' : c'.HasLogin (state.next e)) : c'.loggedIn = c.loggedIn := by
  cases e with
  | pass password => exact absurd rfl (he password)
  | other =>
    cases state with
    | nobody => exact hc'.1.trans hc.1.symm
    | named user => exact hc'.1.trans hc.1.symm
    | granted user h => exact hc'.1.trans hc.1.symm
  | user name =>
    cases state with
    | nobody =>
      cases name with
      | none => exact hc'.1.trans hc.1.symm
      | some name => exact hc'.1.trans hc.1.symm
    | named user =>
      cases name with
      | none => exact hc'.1.trans hc.1.symm
      | some name => exact hc'.1.trans hc.1.symm
    | granted user h => exact hc'.1.trans hc.1.symm

/-- **What a line does to the login.** Nothing, unless it is `PASS`. A client that is not logged
in is let in by `PASS` exactly when the reply is a 230. -/
theorem loggedIn_step {c c' : Connection} (hreach : (sessions u).Reachable S)
    (hcommand : commandOf line = some command) (hc : S.conns id = some c)
    (hc' : S'.conns id = some c') (h : S.step u.server (.line id line ans) = .ok S') :
    (command.word ≠ lit "PASS" → c'.loggedIn = c.loggedIn) ∧
      (command.word = lit "PASS" → c.loggedIn = false →
        ∃ r, S'.world.sent = S.world.sent ++ [(id, r)] ∧
          (c'.loggedIn = true ↔ r.code = some 230)) := by
  obtain ⟨events, hrun⟩ := hreach
  obtain ⟨c₀, parsed, hc₀, hparse, hcases⟩ := handleLine_eq_ok h
  obtain rfl : c = c₀ := Option.some.inj (hc.symm.trans hc₀)
  have hspeaks := (speaks_of_run hrun hc).1
  have hparsed : parsed = some command := (commandOf_of_parse hparse).symm.trans hcommand
  rcases hcases with ⟨status, s, hx, hquit, rfl⟩ | ⟨command', -, -, rfl⟩
  · obtain rfl : s.conn = c' := Option.some.inj ((handled_stays ..).symm.trans hc')
    refine ⟨fun hword => ?_, fun hword hl => ?_⟩
    · refine loggedIn_next (fun password he => ?_) (login_of_run hrun id c hc)
        (executeCommand_hasLogin hparse hx (login_of_run hrun id c hc))
      unfold loginEvent at he
      rw [hcommand] at he
      dsimp only at he
      rw [if_neg hword] at he
      split at he
      next => cases he
      next => cases he
    · rw [hparsed, executeCommand_of_mem (by
        rw [hword]; exact List.mem_of_getElem? (i := 1) rfl)] at hx
      obtain ⟨-, r, htold, -, hr⟩ := passCommand_said hx
      refine ⟨r, ?_, hr hl⟩
      show S.world.sent ++ s.out = _
      rw [(htold.sent hspeaks).1]
      rfl
  · rw [handled_leaves] at hc'
    cases hc'

end

end MyFtp.Server
