import MyFtp.Server.Children

/-!
# What is said to the client

A program that leaves the data socket and the descriptors alone says a list of
replies to its client and nothing to anybody else (`Told`). The rules of
`Prog.Yields` give that list along the text of a handler, whichever branches it
takes:

> `answered_handler`: a handler that has nothing to do with data sockets says
> one final reply; `QUIT` leaves that to the caller.

> `run_complete`: a child says one final reply, and at most one preliminary
> reply before it.
-/

namespace MyFtp.Server

open MyFtp.Posix
open Prog

/-! ## Replies by their code -/

/-- A reply in the hundreds: another one follows. -/
def Reply.isPreliminary (r : Reply) : Bool := r.code.any fun n => 100 ≤ n && n < 200

/-- A reply that ends the handling of a command. The first line of the help text has
a hyphen behind its code and ends nothing. -/
def Reply.isFinal (r : Reply) : Bool :=
  r != .helpFirst && r.code.any fun n => 200 ≤ n && n < 600

/-- One final reply. The help text counts as one. -/
def OneFinal (l : List Reply) : Prop :=
  (∃ r, l = [r] ∧ r.isFinal = true) ∨ l = [.helpFirst, .helpCommands, .helpOk]

/-- One final reply, and at most one preliminary reply before it. -/
def Complete (l : List Reply) : Prop :=
  OneFinal l ∨ ∃ r l', l = r :: l' ∧ r.isPreliminary = true ∧ OneFinal l'

theorem oneFinal_singleton {r : Reply} (h : r.isFinal = true) : OneFinal [r] := .inl ⟨r, rfl, h⟩

/-! ## Saying something -/

/-- What is left alone where no data socket is set up, used or given up. -/
structure Settled (s s' : Ctx) : Prop where
  desc : s'.os.desc = s.os.desc
  signals : s'.os.signals = s.os.signals
  hungup : s'.os.hungup = s.os.hungup
  control : s'.conn.clientSockfd = s.conn.clientSockfd
  dataSocket : s'.conn.dataSocket = s.conn.dataSocket
  forked : s'.forked = s.forked

/-- The replies `l` were said to the client, which was there if there were any. -/
structure Told (s : Ctx) (l : List Reply) (s' : Ctx) : Prop extends Settled s s' where
  out : s'.out = s.out ++ l.flatMap (s.os.delivers s.conn.clientSockfd)
  heard : l ≠ [] → s.os.kills s.conn.clientSockfd = false

theorem Settled.delivers {s s' : Ctx} (h : Settled s s') :
    s'.os.delivers s'.conn.clientSockfd = s.os.delivers s.conn.clientSockfd := by
  funext r
  unfold Os.delivers
  rw [h.desc, h.hungup, h.control]

theorem Settled.kills {s s' : Ctx} (h : Settled s s') :
    s'.os.kills s'.conn.clientSockfd = s.os.kills s.conn.clientSockfd := by
  unfold Os.kills
  rw [h.desc, h.hungup, h.signals, h.control]

theorem told_labelled : Labelled Told := by
  refine ⟨fun s => ⟨⟨rfl, rfl, rfl, rfl, rfl, rfl⟩, (List.append_nil s.out).symm, absurd rfl⟩, ?_⟩
  intro s s₁ s₂ l l' h h'
  refine ⟨⟨h'.desc.trans h.desc, h'.signals.trans h.signals, h'.hungup.trans h.hungup,
    h'.control.trans h.control, h'.dataSocket.trans h.dataSocket, h'.forked.trans h.forked⟩, ?_, ?_⟩
  · rw [h'.out, h.out, h.toSettled.delivers, List.flatMap_append, List.append_assoc]
  · intro hne
    by_cases hl : l = []
    · rw [← h.toSettled.kills]
      exact h'.heard fun hl' => hne (by rw [hl, hl']; rfl)
    · exact h.heard hl

/-- Moving about, files, and the parts of a record that are not descriptors. -/
theorem told_nil {s s' : Ctx} (h : Settled s s') (hout : s'.out = s.out) : Told s [] s' :=
  ⟨h, by rw [hout]; exact (List.append_nil _).symm, absurd rfl⟩

section

variable {α : Type} {P : α → List Reply → Prop}

theorem told_reply (r : Reply) : Yields Told (fun _ l => l = [r]) (reply r) := by
  intro s a s' h
  obtain ⟨hk, rfl⟩ := dprintf_eq_ok h
  refine ⟨[r], rfl, ⟨rfl, rfl, rfl, rfl, rfl, rfl⟩, ?_, fun _ => hk⟩
  rw [List.flatMap_singleton]

theorem silently_conn_bind {k : Connection → M α} (hk : ∀ c, Yields Told P (k c)) :
    Yields Told P (conn >>= k) :=
  Silently.bind told_labelled (silently_gets told_labelled _) hk

theorem silently_gets_bind {β : Type} {f : Ctx → β} {k : β → M α} (hk : ∀ b, Yields Told P (k b)) :
    Yields Told P (gets f >>= k) :=
  Silently.bind told_labelled (silently_gets told_labelled _) hk

theorem silently_deref_bind {β : Type} {b : Option β} {k : β → M α}
    (hk : ∀ b, Yields Told P (k b)) : Yields Told P (deref b >>= k) := by
  cases b with
  | none => exact yields_fail _
  | some b => exact Silently.bind told_labelled (silently_pure told_labelled b) hk

theorem silently_chdir_bind {path : CStr} {k : Bool → M α} (hk : ∀ b, Yields Told P (k b)) :
    Yields Told P (chdir path >>= k) := by
  refine Silently.bind told_labelled (silently_of_keeps ?_) hk
  exact keeps_chdir (R := fun s s' => Told s [] s')
    (fun _ _ => told_nil ⟨rfl, rfl, rfl, rfl, rfl, rfl⟩ rfl) path

theorem silently_modifyConn_bind {f : Connection → Connection} {k : Unit → M α}
    (hf : ∀ c, (f c).clientSockfd = c.clientSockfd ∧ (f c).dataSocket = c.dataSocket)
    (hk : ∀ b, Yields Told P (k b)) : Yields Told P (modifyConn f >>= k) := by
  refine Silently.bind told_labelled (silently_of_keeps fun s => ?_) hk
  exact told_nil ⟨rfl, rfl, rfl, (hf s.conn).1, (hf s.conn).2, rfl⟩ rfl

theorem told_reply_bind {r : Reply} {k : Unit → M α}
    (hk : Yields Told (fun b l => P b (r :: l)) (k ())) : Yields Told P (reply r >>= k) := by
  refine Yields.bind told_labelled (told_reply r) fun _ l hl => ?_
  rw [hl]
  exact hk

theorem told_ite {c : Prop} [Decidable c] {p q : M α} (hp : Yields Told P p)
    (hq : Yields Told P q) : Yields Told P (if c then p else q) :=
  prop_ite (fun _ => hp) fun _ => hq

/-- A last word. -/
theorem told_answer {r : Reply} {a : α} (h : P a [r]) :
    Yields Told P (do reply r; return a : M α) :=
  told_reply_bind (yields_pure told_labelled h)

end

/-! ## Handlers -/

/-- A handler is done, and has said so. -/
def Answered (status : CommandStatus) (l : List Reply) : Prop := status ≠ .quit ∧ OneFinal l

/-- A check either passes without a word or gives the answer. -/
def Checked (failed : Bool) (l : List Reply) : Prop := if failed then OneFinal l else l = []

theorem answered_refuse {r : Reply} (h : r.isFinal = true) : Yields Told Answered (refuse r) :=
  told_answer ⟨by simp, oneFinal_singleton h⟩

theorem answered_success {r : Reply} (h : r.isFinal = true) :
    Yields Told Answered (do reply r; return .success : M CommandStatus) :=
  told_answer ⟨by simp, oneFinal_singleton h⟩

/-- A handler goes on when a check passes. -/
theorem answered_check {p : M Bool} {q : M CommandStatus} (hp : Yields Told Checked p)
    (hq : Yields Told Answered q) :
    Yields Told Answered (do if (← p) then return .failure else q) := by
  refine Yields.bind told_labelled hp fun failed l hl => ?_
  cases failed with
  | true => exact yields_pure told_labelled ⟨by simp, by simpa [Checked] using hl⟩
  | false =>
    obtain rfl : l = [] := by simpa [Checked] using hl
    exact hq

/-- The test every handler but three begins with. -/
theorem answered_loggedIn {p : Connection → M CommandStatus}
    (hp : ∀ c, Yields Told Answered (p c)) :
    Yields Told Answered (do
      let c ← conn
      if c.loggedIn = false then refuse .pleaseLogin else p c) :=
  silently_conn_bind fun c => told_ite (answered_refuse rfl) (hp c)

theorem checked_checkExists {failed : Reply} (h : failed.isFinal = true) (path : CStr) :
    Yields Told Checked (checkExists failed path) :=
  silently_gets_bind fun _ => told_ite (told_answer (by simpa [Checked] using oneFinal_singleton h))
    (yields_pure told_labelled rfl)

theorem checked_checkDirectory (directory : Bool) :
    Yields Told Checked (checkDirectory directory) :=
  told_ite (yields_pure told_labelled rfl)
    (told_answer (by simpa [Checked] using oneFinal_singleton rfl))

theorem answered_changeDir (server : ServerT) (path : CStr) :
    Yields Told Answered (changeDir server path) := by
  refine answered_check (checked_checkExists rfl path) (silently_gets_bind fun directory => ?_)
  refine answered_check (checked_checkDirectory directory) ?_
  refine silently_conn_bind fun _ => silently_deref_bind fun _ => silently_chdir_bind fun _ =>
    silently_chdir_bind fun _ => silently_gets_bind fun _ =>
      silently_modifyConn_bind (fun _ => ⟨rfl, rfl⟩) fun _ => silently_chdir_bind fun _ => ?_
  have hcheck : Silently Told (checkNewPath server) :=
    silently_conn_bind fun _ => silently_deref_bind fun _ =>
      told_ite
        (silently_gets_bind fun _ => silently_of_keeps fun _ =>
          told_nil ⟨rfl, rfl, rfl, rfl, rfl, rfl⟩ rfl)
        (silently_pure told_labelled _)
  exact hcheck.bind told_labelled fun _ => answered_success rfl

theorem answered_user (command : Command) : Yields Told Answered (userCommand command) :=
  silently_conn_bind fun _ => told_ite (answered_refuse rfl)
    (silently_modifyConn_bind (fun _ => ⟨rfl, rfl⟩) fun _ => answered_success rfl)

theorem answered_pass (command : Command) : Yields Told Answered (passCommand command) := by
  have hcheck : Yields Told (fun status l => if status = .failure then OneFinal l else l = [])
      checkPreconditions :=
    silently_conn_bind fun _ => told_ite (told_answer (oneFinal_singleton rfl))
      (told_ite (told_answer (oneFinal_singleton rfl)) (yields_pure told_labelled rfl))
  refine Yields.bind told_labelled hcheck fun status l hl => ?_
  by_cases hstatus : status = .failure
  · rw [if_pos hstatus] at hl ⊢
    exact yields_pure told_labelled ⟨by simp, by simpa using hl⟩
  · rw [if_neg hstatus] at hl ⊢
    rw [hl]
    refine silently_conn_bind fun _ => silently_deref_bind fun _ => told_ite ?_ ?_
    · exact told_reply_bind (silently_modifyConn_bind (fun _ => ⟨rfl, rfl⟩) fun _ =>
        yields_pure told_labelled ⟨by simp, oneFinal_singleton rfl⟩)
    · exact silently_modifyConn_bind (fun _ => ⟨rfl, rfl⟩) fun _ => answered_refuse rfl

theorem answered_dele (command : Command) : Yields Told Answered (deleCommand command) := by
  refine answered_loggedIn fun _ => told_ite (answered_refuse rfl)
    (silently_deref_bind fun path => ?_)
  refine silently_conn_bind fun _ => silently_deref_bind fun _ => silently_chdir_bind fun _ => ?_
  have hremove : Silently Told (remove path) := by
    refine silently_of_keeps ?_
    exact keeps_remove (R := fun s s' => Told s [] s')
      (fun _ _ => told_nil ⟨rfl, rfl, rfl, rfl, rfl, rfl⟩ rfl)
      (fun s => told_labelled.refl s) path
  exact hremove.bind told_labelled fun _ => told_ite (answered_refuse rfl) (answered_success rfl)

theorem answered_help : Yields Told Answered helpCommand :=
  answered_loggedIn fun _ => told_reply_bind (told_reply_bind (told_reply_bind
    (yields_pure told_labelled ⟨by simp, .inr rfl⟩)))

theorem answered_type (command : Command) : Yields Told Answered (typeCommand command) :=
  answered_loggedIn fun _ => told_ite (answered_refuse rfl) <| silently_deref_bind fun _ =>
    told_ite (silently_modifyConn_bind (fun _ => ⟨rfl, rfl⟩) fun _ => answered_success rfl) <|
      told_ite (silently_modifyConn_bind (fun _ => ⟨rfl, rfl⟩) fun _ => answered_success rfl)
        (answered_refuse rfl)

/-- The names whose handlers set up data sockets or use them. -/
def dataNames : List CStr := [lit "PASV", lit "PORT", lit "RETR", lit "STOR", lit "LIST"]

/-- A handler without data sockets gives one answer, or is `QUIT`. -/
theorem answered_handler {name : CStr} {handler : Handler}
    (hmem : (name, handler) ∈ commandHandlers)
    (hdata : name ∉ dataNames) (server : ServerT) (ans : Answers) (command : Command) :
    Yields Told (fun status l => Answered status l ∨ status = .quit ∧ l = [] ∧ name = lit "QUIT")
      (handler server ans command) := by
  have hleft : ∀ {p : M CommandStatus}, Yields Told Answered p →
      Yields Told (fun status l => Answered status l ∨ status = .quit ∧ l = [] ∧ name =
        lit "QUIT") p :=
    fun hp => hp.mono fun _ _ h => .inl h
  simp only [commandHandlers, List.mem_cons, Prod.mk.injEq, List.not_mem_nil, or_false] at hmem
  rcases hmem with h | h | h | h | h | h | h | h | h | h | h | h | h | h | h <;>
    obtain ⟨hname, rfl⟩ := h
  · exact hleft (answered_user command)
  · exact hleft (answered_pass command)
  · exact hleft (answered_loggedIn fun _ => told_ite (answered_refuse rfl) <|
      silently_deref_bind fun _ => answered_changeDir server _)
  · exact hleft (answered_loggedIn fun _ => answered_changeDir server _)
  · exact yields_pure told_labelled (.inr ⟨rfl, rfl, hname⟩)
  · exact hleft (answered_dele command)
  · exact hleft (answered_loggedIn fun _ => silently_deref_bind fun _ => answered_success rfl)
  · exact absurd (by rw [hname]; decide) hdata
  · exact absurd (by rw [hname]; decide) hdata
  · exact hleft answered_help
  · exact hleft (answered_loggedIn fun _ => answered_success rfl)
  · exact absurd (by rw [hname]; decide) hdata
  · exact absurd (by rw [hname]; decide) hdata
  · exact absurd (by rw [hname]; decide) hdata
  · exact hleft (answered_type command)

theorem answered_unknown (server : ServerT) (ans : Answers) :
    Yields Told Answered (executeCommand server ans none) := by
  intro s status s' h
  have hfinal : (if s.conn.loggedIn then Reply.unknownCommand else .pleaseLogin).isFinal =
      true := by
    split
    next => rfl
    next => rfl
  obtain ⟨u, s₁, hreply, hstatus⟩ := bind_eq_ok h
  rw [notFoundMessage, conn_bind_apply] at hreply
  obtain ⟨l, rfl, hT⟩ := told_reply _ s u s₁ hreply
  cases hstatus
  exact ⟨_, ⟨by simp, oneFinal_singleton hfinal⟩, hT⟩

/-! ## Children -/

section

variable {server : ServerT} {cans : ChildAnswers} {command : Command}

theorem silently_dataDprintf (item : DataItem) : Silently Told (dataDprintf cans item) := by
  refine silently_of_keeps fun s => ?_
  have hleaves : (dataDprintf cans item s).2 = s ∨ _ := dataDprintf_leaves item s
  rcases hleaves with h | h
  · rw [h]
    exact told_labelled.refl s
  · rw [h]
    exact told_nil ⟨rfl, rfl, rfl, rfl, rfl, rfl⟩ rfl

theorem silently_sendChunks (l : List (List Byte)) : Silently Told (sendChunks cans l) := by
  induction l with
  | nil => exact silently_pure told_labelled _
  | cons chunk rest ih => exact (silently_dataDprintf _).bind told_labelled fun _ => ih

/-- A preliminary reply and a final one. -/
theorem complete_pair {r r' : Reply} (h : r.isPreliminary = true) (h' : r'.isFinal = true) :
    Complete [r, r'] :=
  .inr ⟨r, [r'], rfl, h, oneFinal_singleton h'⟩

theorem complete_ls : Yields Told (fun _ l => Complete l)
    (executeLsCommand server cans command) := by
  have hgoto : Yields Told
      (fun status l => if status = .failure then OneFinal l else l = []) (gotoPath command) :=
    silently_conn_bind fun _ => silently_deref_bind fun _ => silently_chdir_bind fun _ =>
      silently_chdir_bind fun _ => told_ite (told_answer (oneFinal_singleton rfl))
        (yields_pure told_labelled rfl)
  have hlist : Yields Told
      (fun status l => l = [if status = .failure then Reply.localError else .hereComesListing])
      (listDirectory cans) :=
    told_ite (told_answer rfl) (told_reply_bind (silently_gets_bind fun _ =>
      (silently_dataDprintf _).bind told_labelled fun _ => yields_pure told_labelled rfl))
  refine Yields.bind told_labelled hgoto fun status l hl => ?_
  by_cases hstatus : status = .failure
  · rw [if_pos hstatus] at hl ⊢
    exact yields_pure told_labelled (.inl (by simpa using hl))
  rw [if_neg hstatus] at hl ⊢
  rw [hl]
  refine Yields.bind told_labelled hlist fun status' l' hl' => ?_
  by_cases hstatus' : status' = .failure
  · rw [if_pos hstatus'] at hl' ⊢
    rw [hl']
    exact yields_pure told_labelled (.inl (oneFinal_singleton rfl))
  · rw [if_neg hstatus'] at hl' ⊢
    rw [hl']
    exact silently_chdir_bind fun _ => told_answer (complete_pair rfl rfl)

theorem complete_retr : Yields Told (fun _ l => Complete l)
    (executeRetrCommand server cans command) := by
  refine told_reply_bind (silently_conn_bind fun _ => silently_deref_bind fun _ =>
    silently_chdir_bind fun _ => silently_deref_bind fun _ => silently_gets_bind fun file =>
      silently_chdir_bind fun _ => ?_)
  split
  next => exact told_answer (complete_pair rfl rfl)
  next => exact told_answer (complete_pair rfl rfl)
  next =>
    exact (silently_sendChunks _).bind told_labelled fun _ => told_answer (complete_pair rfl rfl)

theorem complete_stor : Yields Told (fun _ l => Complete l) (executeStorCommand cans command) := by
  have hopen : ∀ path, Silently Told (fopenWrite path) := by
    intro path
    refine silently_of_keeps fun s => ?_
    rw [fopenWrite]
    split
    next => exact told_nil ⟨rfl, rfl, rfl, rfl, rfl, rfl⟩ rfl
    next => exact told_labelled.refl s
  have hwrite : ∀ target content, Silently Told (fwriteAll target content) :=
    fun _ _ => silently_of_keeps fun _ => told_nil ⟨rfl, rfl, rfl, rfl, rfl, rfl⟩ rfl
  refine silently_deref_bind fun path => (hopen path).bind told_labelled fun file =>
    told_reply_bind ?_
  cases file with
  | none => exact told_answer (complete_pair rfl rfl)
  | some target =>
    refine (hwrite _ _).bind told_labelled fun _ => told_reply_bind (told_ite ?_ ?_)
    · exact (hwrite _ _).bind told_labelled fun _ =>
        yields_pure told_labelled (complete_pair rfl rfl)
    · exact yields_pure told_labelled (complete_pair rfl rfl)

/-- Whatever a child runs, it says one thing when it is done, and at most one before. -/
theorem run_complete (body : TransferBody) :
    Yields Told (fun _ l => Complete l) (body.run server cans command) := by
  cases body with
  | executeLsCommand => exact complete_ls
  | executeRetrCommand => exact complete_retr
  | executeStorCommand => exact complete_stor

end

end MyFtp.Server
