import MyFtp.Client.Survival

/-!
# The client speaks in rounds

A round is a line that the client sends and what it reads before the next one: one reply, or
two when the first one announces a transfer.

> `client_rounds`: whatever is typed and whatever comes back, the log of a session is the
> greeting, a number of rounds and at most one `QUIT` after that; first the rounds of the login,
> up to the reply that lets the client in, and then the others. So a line is sent only behind
> rounds that are over.

It is the text of the commands that says so: behind every `send` there is a `read_response`.
-/

namespace MyFtp.Client

open MyFtp.Posix
open MyFtp.Server (Command CommandStatus parseBuffer)
open Prog

/-! ## Rounds -/

/-- A line, and the replies that were read before the next one. -/
structure Round where
  line : CStr
  heard : List (Awaits × Option CStr)
  deriving DecidableEq

/-- What a round leaves on the log. -/
def Round.log (r : Round) : List Said := .sent r.line :: r.heard.map fun x => .heard x.1 x.2

/-- What the request says that a reply is waited for. -/
def Awaits.words : Awaits → List CStr
  | .user => [lit "USER"]
  | .pass => [lit "PASS"]
  | .pwd => [lit "PWD"]
  | .newDirectory => [lit "PWD"]
  | .cwd => [lit "CWD"]
  | .pasv _ => [lit "PASV"]
  | .opening => [lit "RETR", lit "STOR", lit "LIST"]
  | .quit => [lit "QUIT"]
  | .greeting => []
  | .complete => []

/-- The line is one of the words, alone or with something behind a space. -/
def IsFor (line : CStr) (awaits : Awaits) : Prop :=
  ∃ word ∈ awaits.words, line = word ++ lit "\r\n" ∨ ∃ rest, line = word ++ lit " " ++ rest

/-- The reply announces a transfer. -/
def Opens (response : Option CStr) : Prop := ∃ text, response = some text ∧
  hasCode text "150" = true

/-- The round was gone through to its end. -/
inductive Round.Whole : Round → Prop
  | single {line : CStr} {awaits : Awaits} {response : Option CStr} (hfor : IsFor line awaits)
      (hopens : awaits = .opening → ¬ Opens response) : Whole ⟨line, [(awaits, response)]⟩
  | transfer {line : CStr} {response last : Option CStr} (hfor : IsFor line .opening)
      (hopens : Opens response) : Whole ⟨line, [(.opening, response), (.complete, last)]⟩

theorem Round.Whole.isFor {r : Round} (h : r.Whole) :
    ∃ awaits response rest, r.heard = (awaits, response) :: rest ∧ IsFor r.line awaits := by
  cases h with
  | single hfor hopens => exact ⟨_, _, _, rfl, hfor⟩
  | transfer hfor hopens => exact ⟨_, _, _, rfl, hfor⟩

/-- The reply that lets the client in. -/
def Round.Grants (r : Round) : Prop :=
  ∃ text, r.heard = [(.pass, some text)] ∧ hasCode text "230" = true

/-- A round of the login that did not let the client in. -/
def Round.Asking (r : Round) : Prop :=
  (∃ awaits response, r.heard = [(awaits, response)] ∧ (awaits = .user ∨ awaits = .pass)) ∧
    ¬ r.Grants

/-- A round of a command. -/
def Round.OfCommand (r : Round) : Prop := ∀ x ∈ r.heard, x.1 ≠ .user ∧ x.1 ≠ .pass

/-- The rounds of a session: first the login, then the commands. -/
inductive Session : List Round → Prop
  | out {asking : List Round} (hasking : ∀ r ∈ asking, r.Asking) : Session asking
  | inside {asking commands : List Round} {grants : Round} (hasking : ∀ r ∈ asking, r.Asking)
      (hgrants : grants.Grants) (hcommands : ∀ r ∈ commands, r.OfCommand) :
      Session (asking ++ grants :: commands)

/-! ## What is read -/

/-- The first `n` replies. Behind the last one the stream is at its end. -/
def firstReplies (n : Nat) (replies : List (Option (List Byte))) : List (Option CStr) :=
  (List.range n).map fun i => replies[i]?.join.map cstr

theorem length_firstReplies (n : Nat) (replies : List (Option (List Byte))) :
    (firstReplies n replies).length = n := by
  rw [firstReplies, List.length_map, List.length_range]

theorem firstReplies_add (m n : Nat) (replies : List (Option (List Byte))) :
    firstReplies (m + n) replies = firstReplies m replies ++ firstReplies n (replies.drop m) := by
  unfold firstReplies
  rw [List.range_add, List.map_append, List.map_map]
  congr 1
  refine List.map_congr_left fun i _ => ?_
  rw [Function.comp_apply, List.getElem?_drop]

theorem firstReplies_one (replies : List (Option (List Byte))) :
    firstReplies 1 replies = [(replies.headD none).map cstr] := by
  cases replies with
  | nil => rfl
  | cons reply replies => rfl

/-- The client went through rounds that make up a list in `S`, with the replies that were
there. -/
def TalkedAs (S : List Round → Prop) (s s' : Ctx) : Prop :=
  ∃ rounds, S rounds ∧ (∀ r ∈ rounds, r.Whole) ∧ s'.log = s.log ++ rounds.flatMap Round.log ∧
    (rounds.flatMap Round.heard).map Prod.snd =
      firstReplies (rounds.flatMap Round.heard).length s.replies ∧
    s'.replies = s.replies.drop (rounds.flatMap Round.heard).length

/-- Through rounds that all satisfy `P`. -/
def Talked (P : Round → Prop) : Ctx → Ctx → Prop := TalkedAs fun rounds => ∀ r ∈ rounds, P r

section

variable {P : Round → Prop} {S S₁ S₂ : List Round → Prop} {s s₁ s' : Ctx} {α : Type}

theorem TalkedAs.trans (h : TalkedAs S₁ s s₁) (h' : TalkedAs S₂ s₁ s')
    (hS : ∀ l l', S₁ l → S₂ l' → S (l ++ l')) : TalkedAs S s s' := by
  obtain ⟨rounds, hrounds, hall, hlog, hread, hleft⟩ := h
  obtain ⟨rounds', hrounds', hall', hlog', hread', hleft'⟩ := h'
  refine ⟨rounds ++ rounds', hS _ _ hrounds hrounds',
    fun r hr => (List.mem_append.mp hr).elim (hall r) (hall' r), ?_, ?_, ?_⟩
  · rw [hlog', hlog, List.flatMap_append, List.append_assoc]
  · rw [List.flatMap_append, List.map_append, List.length_append, firstReplies_add, hread, hread',
      hleft]
  · rw [hleft', hleft, List.drop_drop, List.flatMap_append, List.length_append]

/-- Nothing is said. -/
theorem talkedAs_nil (hS : S []) (hlog : s'.log = s.log) (hreplies : s'.replies = s.replies) :
    TalkedAs S s s' :=
  ⟨[], hS, by simp, by rw [hlog]; exact (List.append_nil _).symm, rfl, hreplies⟩

theorem talked_same (hlog : s'.log = s.log) (hreplies : s'.replies = s.replies) :
    Talked P s s' :=
  talkedAs_nil (by simp) hlog hreplies

instance : Std.Refl (Talked P) := ⟨fun _ => talked_same rfl rfl⟩

instance : IsTrans Ctx (Talked P) :=
  ⟨fun _ _ _ h h' => TalkedAs.trans h h' fun _ _ hl hl' r hr =>
    (List.mem_append.mp hr).elim (hl r) (hl' r)⟩

/-- A line is sent and one reply read. -/
theorem talkedAs_round {line : CStr} {awaits : Awaits} (hfor : IsFor line awaits)
    (hopens : awaits = .opening → ¬ Opens ((s.replies.headD none).map cstr))
    (hS : S [⟨line, [(awaits, (s.replies.headD none).map cstr)]⟩]) :
    TalkedAs S s ((s.note (.sent line)).heardNext awaits) := by
  refine ⟨_, hS, ?_, ?_, (firstReplies_one s.replies).symm, ?_⟩
  · exact List.forall_mem_singleton.mpr (.single hfor hopens)
  · exact List.append_assoc s.log [_] [_]
  · show s.replies.tail = s.replies.drop 1
    rw [List.drop_one]

/-- A request and its reply. -/
theorem talked_ask {line : CStr} {awaits : Awaits} {k : Option CStr → C α}
    (hfor : IsFor line awaits) (hne : awaits ≠ .opening)
    (hP : ∀ response, P ⟨line, [(awaits, response)]⟩)
    (hk : ∀ response, Keeps (Talked P) (k response)) :
    Keeps (Talked P) (send line >>= fun _ => nextResponse awaits >>= k) := by
  intro s
  have hround : Talked P s ((s.note (.sent line)).heardNext awaits) :=
    talkedAs_round hfor (fun h => absurd h hne) (List.forall_mem_singleton.mpr (hP _))
  exact IsTrans.trans _ _ _ hround (hk _ _)

end

/-! ## The commands -/

theorem talked_complain {P : Round → Prop} (response : CStr) :
    Keeps (Talked P) (complain response) :=
  Keeps.ite (fun _ => keeps_fail _) fun _ => keeps_pure _

theorem talked_displayCurrentPath {P : Round → Prop} (response : CStr) :
    Keeps (Talked P) (displayCurrentPath response) := by
  unfold displayCurrentPath
  split
  next => exact keeps_pure _
  next => exact keeps_modify fun _ => talked_same rfl rfl

/-- A word and its argument. -/
theorem isFor_commandLine {word path : CStr} {awaits : Awaits} (h : word ∈ awaits.words) :
    IsFor (commandLine word path) awaits := by
  refine ⟨word, h, .inr ⟨path ++ lit "\r\n", ?_⟩⟩
  rw [commandLine]
  simp only [List.append_assoc]

theorem ofCommand_single {line : CStr} {awaits : Awaits} {response : Option CStr}
    (huser : awaits ≠ .user) (hpass : awaits ≠ .pass) :
    Round.OfCommand ⟨line, [(awaits, response)]⟩ :=
  fun _ hx => by rw [List.mem_singleton.mp hx]; exact ⟨huser, hpass⟩

/-- A request of a command that is no transfer. -/
theorem talked_plain {line : CStr} {awaits : Awaits} {α : Type} {k : Option CStr → C α}
    (hfor : IsFor line awaits) (hne : awaits ≠ .opening) (huser : awaits ≠ .user)
    (hpass : awaits ≠ .pass) (hk : ∀ response, Keeps (Talked Round.OfCommand) (k response)) :
    Keeps (Talked Round.OfCommand) (send line >>= fun _ => nextResponse awaits >>= k) :=
  talked_ask hfor hne (fun _ => ofCommand_single huser hpass) hk

theorem talked_quit : Keeps (Talked Round.OfCommand) quitCommand := by
  refine talked_plain ⟨lit "QUIT", by decide, .inl rfl⟩ (by simp) (by simp) (by simp)
    fun response => ?_
  cases response with
  | none => exact keeps_pure _
  | some response => exact keeps_pure _

theorem talked_pwd (command : Command) : Keeps (Talked Round.OfCommand) (pwdCommand command) := by
  refine Keeps.ite (fun _ => keeps_pure _) fun _ => ?_
  refine talked_plain ⟨lit "PWD", by decide, .inl rfl⟩ (by simp) (by simp) (by simp)
    fun response => ?_
  cases response with
  | none => exact keeps_pure _
  | some response =>
    refine Keeps.ite (fun _ => ?_) fun _ => ?_
    · exact (talked_complain response).bind fun _ => keeps_pure _
    · exact (talked_displayCurrentPath response).bind fun _ => keeps_pure _

theorem talked_displayNewPath : Keeps (Talked Round.OfCommand) displayNewPath := by
  refine talked_plain ⟨lit "PWD", by decide, .inl rfl⟩ (by simp) (by simp) (by simp)
    fun response => ?_
  cases response with
  | none => exact keeps_fail _
  | some response =>
    refine Keeps.ite (fun _ => ?_) fun _ => talked_displayCurrentPath response
    exact (talked_complain response).bind fun _ => keeps_fail _

theorem talked_cd (command : Command) : Keeps (Talked Round.OfCommand) (cdCommand command) := by
  refine Keeps.ite (fun _ => keeps_pure _) fun _ => ?_
  refine talked_plain (isFor_commandLine (by decide)) (by simp) (by simp) (by simp)
    fun response => ?_
  cases response with
  | none => exact keeps_pure _
  | some response =>
    refine Keeps.ite (fun _ => ?_) fun _ => talked_displayNewPath.bind fun _ => keeps_pure _
    exact (talked_complain response).bind fun _ => keeps_pure _

theorem talked_dataSocket (calls : Calls) :
    Keeps (Talked Round.OfCommand) (initializeClientDataSocket calls) := by
  rw [initializeClientDataSocket_eq]
  refine talked_plain ⟨lit "PASV", List.mem_singleton_self _, .inl rfl⟩ (by simp)
    (by simp) (by simp) fun response => ?_
  cases response with
  | none => exact keeps_pure _
  | some response =>
    refine Keeps.ite (fun _ => keeps_pure _) fun _ => ?_
    rcases setupDataSocket calls.socket (parsePasvResponse response) with e | _ | d
    · exact keeps_fail _
    · exact keeps_pure _
    · exact fun _ => talked_same rfl rfl

/-- The second reply is read exactly when the first one opens the transfer. -/
theorem checkResponses_state (s : Ctx) :
    (¬ Opens ((s.replies.headD none).map cstr) ∧ (checkResponses s).2 = s.heardNext .opening) ∨
      (Opens ((s.replies.headD none).map cstr) ∧
        (checkResponses s).2 = (s.heardNext .opening).heardNext .complete) := by
  unfold checkResponses
  rw [nextResponse_bind_apply]
  cases (s.replies.headD none).map cstr with
  | none =>
    refine .inl ⟨?_, rfl⟩
    rintro ⟨_, h, -⟩
    cases h
  | some text =>
    dsimp only
    by_cases hcode : hasCode text "150" = false
    · rw [if_pos hcode]
      refine .inl ⟨?_, rfl⟩
      rintro ⟨text', h, hcode'⟩
      cases h
      rw [hcode] at hcode'
      cases hcode'
    · rw [if_neg hcode, nextResponse_bind_apply]
      refine .inr ⟨⟨text, rfl, by simpa using hcode⟩, ?_⟩
      cases (((s.heardNext .opening).replies.headD none).map cstr) with
      | none => rfl
      | some _ => rfl

/-- A transfer is one round. -/
theorem talked_transfer {line : CStr} (hfor : IsFor line .opening) :
    Keeps (Talked Round.OfCommand) (do send line; checkResponses) := by
  intro s
  have hrun : ((do send line; checkResponses : C CommandStatus) s).2 =
      (checkResponses (s.note (.sent line))).2 := rfl
  rw [hrun]
  rcases checkResponses_state (s.note (.sent line)) with ⟨hopens, heq⟩ | ⟨hopens, heq⟩
  · rw [heq]
    exact talkedAs_round hfor (fun _ => hopens)
      (List.forall_mem_singleton.mpr (ofCommand_single (by simp) (by simp)))
  · rw [heq]
    refine ⟨[⟨line, [(.opening, (s.replies.headD none).map cstr),
      (.complete, (s.replies.tail.headD none).map cstr)]⟩], ?_, ?_, ?_, ?_, ?_⟩
    · refine List.forall_mem_singleton.mpr fun x hx => ?_
      simp only [List.mem_cons, List.not_mem_nil, or_false] at hx
      rcases hx with rfl | rfl
      · exact ⟨by simp, by simp⟩
      · exact ⟨by simp, by simp⟩
    · exact List.forall_mem_singleton.mpr (.transfer hfor hopens)
    · show ((s.log ++ [_]) ++ [_]) ++ [_] = _
      rw [List.append_assoc, List.append_assoc]
      rfl
    · show _ = firstReplies (1 + 1) s.replies
      rw [firstReplies_add, firstReplies_one, firstReplies_one, List.drop_one]
      rfl
    · show s.replies.tail.tail = s.replies.drop 2
      rw [← List.drop_one, ← List.drop_one, List.drop_drop]

theorem talked_get (calls : Calls) (command : Command) :
    Keeps (Talked Round.OfCommand) (getCommand calls command) := by
  refine Keeps.ite (fun _ => keeps_pure _) fun _ => (talked_dataSocket calls).bind fun _ => ?_
  exact Keeps.ite (fun _ => keeps_pure _) fun _ =>
    talked_transfer (isFor_commandLine (by decide))

theorem talked_put (calls : Calls) (command : Command) :
    Keeps (Talked Round.OfCommand) (putCommand calls command) := by
  refine Keeps.ite (fun _ => keeps_pure _) fun _ => (talked_dataSocket calls).bind fun _ => ?_
  refine Keeps.ite (fun _ => keeps_pure _) fun _ => ?_
  exact Keeps.ite (fun _ => keeps_pure _) fun _ => talked_transfer (isFor_commandLine (by decide))

theorem talked_ls (calls : Calls) (command : Command) :
    Keeps (Talked Round.OfCommand) (lsCommand calls command) := by
  refine (talked_dataSocket calls).bind fun _ => ?_
  exact Keeps.ite (fun _ => keeps_pure _) fun _ => talked_transfer (isFor_commandLine (by decide))

theorem talked_executeCommand (calls : Calls) (command : Command) :
    Keeps (Talked Round.OfCommand) (executeCommand calls command) := by
  unfold executeCommand
  split
  next => exact keeps_pure _
  next handler hfind =>
    have hmem := List.mem_of_find?_eq_some hfind
    simp only [commandHandlers, List.mem_cons, List.not_mem_nil, or_false] at hmem
    rcases hmem with rfl | rfl | rfl | rfl | rfl | rfl | rfl | rfl
    · exact talked_quit
    · exact keeps_pure _
    · exact keeps_pure _
    · exact talked_ls calls command
    · exact talked_cd command
    · exact talked_pwd command
    · exact talked_get calls command
    · exact talked_put calls command

theorem talked_clientLoop (inputs : List (CStr × Calls)) :
    Keeps (Talked Round.OfCommand) (clientLoop inputs) := by
  induction inputs with
  | nil => exact keeps_pure ()
  | cons input inputs ih =>
    have hloop : Keeps (Talked Round.OfCommand) (loopExecution input.1 input.2) := by
      unfold loopExecution
      split
      next => exact keeps_fail _
      next => exact keeps_pure _
      next command _ => exact talked_executeCommand input.2 command
    exact hloop.bind fun _ => Keeps.ite (fun _ => keeps_pure ()) fun _ => ih

/-! ## The login -/

theorem asking_user (line : CStr) (response : Option CStr) :
    Round.Asking ⟨line, [(.user, response)]⟩ := by
  refine ⟨⟨_, _, rfl, .inl rfl⟩, ?_⟩
  rintro ⟨text, h, -⟩
  cases h

theorem talked_sendUser (username : CStr) :
    Keeps (Talked Round.Asking) (sendUserCommand username) := by
  refine talked_ask ⟨lit "USER", by decide, .inr ⟨username, rfl⟩⟩ (by simp) (asking_user _)
    fun response => ?_
  cases response with
  | none => exact keeps_pure _
  | some response => exact keeps_pure _

/-- The login up to the reply that lets the client in. -/
def LetIn (rounds : List Round) : Prop :=
  ∃ asking grants, rounds = asking ++ [grants] ∧ (∀ r ∈ asking, r.Asking) ∧ grants.Grants

/-- What `PASS` comes to. -/
theorem talked_sendPass (password : CStr) (s : Ctx) :
    (∃ s', sendPassCommand password s = (.ok true, s') ∧
        TalkedAs (fun rounds => ∃ r, rounds = [r] ∧ r.Grants) s s') ∨
      ((∀ s', sendPassCommand password s ≠ (.ok true, s')) ∧
        Talked Round.Asking s (sendPassCommand password s).2) := by
  have hfor : IsFor (lit "PASS " ++ password) .pass :=
    ⟨lit "PASS", by decide, .inr ⟨password, rfl⟩⟩
  have hround : ∀ {S : List Round → Prop},
      S [⟨lit "PASS " ++ password, [(.pass, (s.replies.headD none).map cstr)]⟩] → TalkedAs S s
        ((s.note (.sent (lit "PASS " ++ password))).heardNext .pass) :=
    fun hS => talkedAs_round hfor (fun h => by cases h) hS
  unfold sendPassCommand send
  rw [modify_bind_apply, nextResponse_bind_apply, Ctx.replies_note]
  have hasking : ∀ {response : Option CStr}, (∀ text, response = some text →
      hasCode text "230" = false) →
        Round.Asking ⟨lit "PASS " ++ password, [(.pass, response)]⟩ := by
    intro response hcode
    refine ⟨⟨_, _, rfl, .inr rfl⟩, ?_⟩
    rintro ⟨text, h, hcode'⟩
    cases h
    rw [hcode text rfl] at hcode'
    cases hcode'
  cases hresponse : (s.replies.headD none).map cstr with
  | none =>
    rw [hresponse] at hround
    refine .inr ⟨fun s' h => (by cases h), hround ?_⟩
    exact List.forall_mem_singleton.mpr (hasking fun _ h => by cases h)
  | some text =>
    rw [hresponse] at hround
    dsimp only
    by_cases hcode : hasCode text "230" = true
    · rw [if_pos hcode]
      exact .inl ⟨_, rfl, hround ⟨_, rfl, text, rfl, hcode⟩⟩
    · rw [if_neg hcode]
      have htalked := hround (S := fun rounds => ∀ r ∈ rounds, r.Asking)
        (List.forall_mem_singleton.mpr (hasking fun _ h => by cases h; simpa using hcode))
      unfold complain
      split
      next => exact .inr ⟨fun s' h => (by cases h), htalked⟩
      next => exact .inr ⟨fun s' h => (by cases h), htalked⟩

/-- Asking goes on. -/
theorem Talked.then_letIn {s s₁ s' : Ctx} (h : Talked Round.Asking s s₁)
    (h' : TalkedAs LetIn s₁ s') : TalkedAs LetIn s s' := by
  refine TalkedAs.trans h h' fun l l' hl hl' => ?_
  obtain ⟨asking, grants, rfl, hasking, hgrants⟩ := hl'
  refine ⟨l ++ asking, grants, (List.append_assoc ..).symm, fun r hr => ?_, hgrants⟩
  exact (List.mem_append.mp hr).elim (hl r) (hasking r)

/-- The login succeeds with the round that lets the client in, and not without. -/
theorem talked_loginLoop : ∀ (inputs : List (CStr × Calls)) (s : Ctx),
    (∃ inputs' s', loginLoop inputs s = (.ok (true, inputs'), s') ∧ TalkedAs LetIn s s') ∨
      ((∀ inputs' s', loginLoop inputs s ≠ (.ok (true, inputs'), s')) ∧
        Talked Round.Asking s (loginLoop inputs s).2)
  | [], s => .inr ⟨fun inputs' s' h => (by cases h), Std.Refl.refl s⟩
  | (username, _) :: inputs, s => by
    have huser := talked_sendUser username s
    unfold loginLoop
    rcases hrun : sendUserCommand username s with ⟨e | known, s₁⟩
    · rw [hrun] at huser
      rw [bind_of_error hrun]
      exact .inr ⟨fun inputs' s' h => (by cases h), huser⟩
    rw [hrun] at huser
    rw [bind_of_ok hrun]
    cases known with
    | false => exact .inr ⟨fun inputs' s' h => (by cases h), huser⟩
    | true =>
      rw [if_neg (by simp)]
      cases inputs with
      | nil => exact .inr ⟨fun inputs' s' h => (by cases h), huser⟩
      | cons input inputs =>
        obtain ⟨password, calls⟩ := input
        dsimp only
        rcases talked_sendPass password s₁ with ⟨s₂, hpass, hgrants⟩ | ⟨hpass, hasking⟩
        · rw [bind_of_ok hpass, if_pos rfl]
          refine .inl ⟨inputs, s₂, rfl, Talked.then_letIn huser ?_⟩
          refine TalkedAs.trans (Std.Refl.refl s₁ : Talked Round.Asking s₁ s₁) hgrants ?_
          rintro l _ hl ⟨r, rfl, hr⟩
          exact ⟨l, r, rfl, hl, hr⟩
        · have hsofar : Talked Round.Asking s (sendPassCommand password s₁).2 :=
            IsTrans.trans _ _ _ huser hasking
          rcases hrun' : sendPassCommand password s₁ with ⟨e | entered, s₂⟩
          · rw [hrun'] at hsofar
            rw [bind_of_error hrun']
            exact .inr ⟨fun inputs' s' h => (by cases h), hsofar⟩
          rw [hrun'] at hsofar
          rw [bind_of_ok hrun']
          cases entered with
          | true => exact absurd hrun' (hpass s₂)
          | false =>
            rw [if_neg (by simp)]
            rcases talked_loginLoop inputs s₂ with ⟨inputs', s', hloop, hin⟩ | ⟨hloop, hout⟩
            · exact .inl ⟨inputs', s', hloop, hsofar.then_letIn hin⟩
            · exact .inr ⟨hloop, IsTrans.trans _ _ _ hsofar hout⟩

/-! ## Sessions -/

/-- The log is the greeting, the rounds of a session, and the last `QUIT`, to which no reply is
read. -/
structure SpeaksInRounds (replies : List (Option (List Byte))) (log : List Said)
    (rounds : List Round) (last : List CStr) : Prop where
  session : Session rounds
  whole : ∀ r ∈ rounds, r.Whole
  order : log = .heard .greeting ((replies.headD none).map cstr) ::
    (rounds.flatMap Round.log ++ last.map .sent)
  last : last = [] ∨ last = [lit "QUIT\r\n"]
  read : (log.filterMap Said.reply).map Prod.snd =
    firstReplies (log.filterMap Said.reply).length replies

theorem reply_of_round (r : Round) : r.log.filterMap Said.reply = r.heard := by
  unfold Round.log
  rw [List.filterMap_cons, List.filterMap_map]
  exact List.filterMap_some

theorem replies_of_rounds (rounds : List Round) :
    (rounds.flatMap Round.log).filterMap Said.reply = rounds.flatMap Round.heard := by
  rw [List.filterMap_flatMap]
  exact congrArg (fun f => rounds.flatMap f) (funext reply_of_round)

theorem lines_of_rounds (rounds : List Round) :
    (rounds.flatMap Round.log).filterMap Said.line = rounds.map Round.line := by
  have hround : ∀ r : Round, r.log.filterMap Said.line = [r.line] := by
    intro r
    have hnone : (r.heard.map fun x => Said.heard x.1 x.2).filterMap Said.line = [] := by
      rw [List.filterMap_map]
      exact List.filterMap_eq_nil_iff.mpr fun _ _ => rfl
    exact congrArg (r.line :: ·) hnone
  rw [List.filterMap_flatMap, funext hround, ← List.map_eq_flatMap]

/-- The replies that are read. -/
theorem replies_of_log {response : Option CStr} {log : List Said} {rounds : List Round}
    {last : List CStr}
    (h : log = .heard .greeting response :: (rounds.flatMap Round.log ++ last.map .sent)) :
    log.filterMap Said.reply = (.greeting, response) :: rounds.flatMap Round.heard := by
  have hlast : (last.map Said.sent).filterMap Said.reply = [] := by
    rw [List.filterMap_map]
    exact List.filterMap_eq_nil_iff.mpr fun _ _ => rfl
  have hgreeting : ∀ l, (Said.heard .greeting response :: l).filterMap Said.reply =
      (.greeting, response) :: l.filterMap Said.reply := fun _ => rfl
  rw [h, hgreeting, List.filterMap_append, replies_of_rounds, hlast, List.append_nil]

/-- The greeting comes first. -/
theorem speaksInRounds_of_talked {replies : List (Option (List Byte))} {s : Ctx} {log : List Said}
    {last : List CStr} (h : TalkedAs Session ((Ctx.start replies).heardNext .greeting) s)
    (hlog : log = s.log ++ last.map .sent) (hlast : last = [] ∨ last = [lit "QUIT\r\n"]) :
    ∃ rounds, SpeaksInRounds replies log rounds last := by
  obtain ⟨rounds, hsession, hwhole, hlog', hread, -⟩ := h
  have hall : log = .heard .greeting ((replies.headD none).map cstr) ::
      (rounds.flatMap Round.log ++ last.map .sent) := by
    rw [hlog, hlog']
    rfl
  refine ⟨rounds, hsession, hwhole, hall, hlast, ?_⟩
  rw [replies_of_log hall, List.map_cons, hread, List.length_cons, Nat.add_comm, firstReplies_add,
    firstReplies_one, List.drop_one]
  rfl

/-- The lines that are sent. -/
theorem SpeaksInRounds.lines {replies : List (Option (List Byte))} {log : List Said}
    {rounds : List Round} {last : List CStr} (h : SpeaksInRounds replies log rounds last) :
    log.filterMap Said.line = rounds.map Round.line ++ last := by
  have hlast : (last.map Said.sent).filterMap Said.line = last := by
    rw [List.filterMap_map]
    exact List.filterMap_some
  have hgreeting : ∀ response l, (Said.heard .greeting response :: l).filterMap Said.line =
      l.filterMap Said.line := fun _ _ => rfl
  rw [h.order, hgreeting, List.filterMap_append, lines_of_rounds, hlast]

/-- Every session is one in rounds. -/
theorem client_speaks (inputs : List (CStr × Calls)) (replies : List (Option (List Byte))) :
    ∃ rounds last, SpeaksInRounds replies (client inputs (.start replies)).2.log rounds last := by
  unfold client login
  rw [bind_assoc, nextResponse_bind_apply]
  dsimp only
  rcases talked_loginLoop inputs ((Ctx.start replies).heardNext .greeting) with
    ⟨inputs', s₁, hloop, hin⟩ | ⟨hloop, hout⟩
  · rw [bind_of_ok hloop]
    dsimp only
    rw [if_pos rfl]
    have hcommands := talked_clientLoop inputs' s₁
    have hsession : TalkedAs Session ((Ctx.start replies).heardNext .greeting)
        (clientLoop inputs' s₁).2 := by
      refine TalkedAs.trans hin hcommands ?_
      rintro _ commands ⟨asking, grants, rfl, hasking, hgrants⟩ hcommands
      rw [List.append_assoc]
      exact .inside hasking hgrants hcommands
    rcases hrun : clientLoop inputs' s₁ with ⟨e | u, s₂⟩
    · rw [hrun] at hsession
      rw [bind_of_error hrun]
      obtain ⟨rounds, h⟩ := speaksInRounds_of_talked hsession (List.append_nil _).symm (.inl rfl)
      exact ⟨rounds, [], h⟩
    · rw [hrun] at hsession
      rw [bind_of_ok hrun]
      obtain ⟨rounds, h⟩ := @speaksInRounds_of_talked _ _ _ [lit "QUIT\r\n"] hsession rfl
        (.inr rfl)
      exact ⟨rounds, _, h⟩
  · have hsession : TalkedAs Session ((Ctx.start replies).heardNext .greeting)
        (loginLoop inputs ((Ctx.start replies).heardNext .greeting)).2 := by
      obtain ⟨rounds, hasking, hrest⟩ := hout
      exact ⟨rounds, .out hasking, hrest⟩
    rcases hrun : loginLoop inputs ((Ctx.start replies).heardNext .greeting) with ⟨e | r, s₁⟩
    · rw [hrun] at hsession
      rw [bind_of_error hrun]
      obtain ⟨rounds, h⟩ := speaksInRounds_of_talked hsession (List.append_nil _).symm (.inl rfl)
      exact ⟨rounds, [], h⟩
    · rw [hrun] at hsession
      rw [bind_of_ok hrun]
      obtain ⟨entered, inputs'⟩ := r
      cases entered with
      | true => exact absurd hrun (hloop inputs' s₁)
      | false =>
        dsimp only
        rw [if_neg (by simp)]
        obtain ⟨rounds, h⟩ := @speaksInRounds_of_talked _ _ _ [lit "QUIT\r\n"] hsession rfl
          (.inr rfl)
        exact ⟨rounds, _, h⟩

/-! ## Before a line -/

/-- What is read does not stand in the way of looking for a line. -/
theorem sent_behind_heard {heard : List (Awaits × Option CStr)} {rest before after : List Said}
    {line : CStr}
    (h : heard.map (fun x => Said.heard x.1 x.2) ++ rest = before ++ .sent line :: after) :
    ∃ before', before = heard.map (fun x => .heard x.1 x.2) ++ before' ∧
      rest = before' ++ .sent line :: after := by
  rcases List.append_eq_append_iff.mp h with ⟨l, hbefore, hrest⟩ | ⟨l, hheard, hafter⟩
  · exact ⟨l, hbefore, hrest⟩
  · cases l with
    | nil => exact ⟨[], by rw [hheard, List.append_nil, List.append_nil], hafter.symm⟩
    | cons x l =>
      -- the line would be one of the replies
      obtain ⟨rfl, -⟩ := List.cons.inj hafter
      have hmem : Said.sent line ∈ heard.map fun x => Said.heard x.1 x.2 := by
        rw [hheard]
        simp
      obtain ⟨y, -, hy⟩ := List.mem_map.mp hmem
      cases hy

/-- A line is the first of its round, or the last of all. -/
theorem rounds_before {rounds : List Round} {last : List CStr} (hlast : last.length ≤ 1)
    {before after : List Said} {line : CStr}
    (h : rounds.flatMap Round.log ++ last.map .sent = before ++ .sent line :: after) :
    ∃ n, before = (rounds.take n).flatMap Round.log ∧
      (rounds.map Round.line ++ last)[n]? = some line := by
  induction rounds generalizing before with
  | nil =>
    refine ⟨0, ?_⟩
    cases last with
    | nil => simp at h
    | cons text last =>
      obtain rfl : last = [] := List.eq_nil_of_length_eq_zero (by simpa using hlast)
      cases before with
      | nil =>
        obtain ⟨hline, -⟩ := List.cons.inj h
        cases hline
        exact ⟨rfl, rfl⟩
      | cons x before => simp at h
  | cons r rounds ih =>
    cases before with
    | nil =>
      obtain ⟨hline, -⟩ := List.cons.inj h
      cases hline
      exact ⟨0, rfl, rfl⟩
    | cons x before =>
      rw [List.flatMap_cons, List.append_assoc] at h
      obtain ⟨rfl, hrest⟩ := List.cons.inj h
      obtain ⟨before', rfl, hlater⟩ := sent_behind_heard hrest
      obtain ⟨n, rfl, hn⟩ := ih hlater
      exact ⟨n + 1, by rw [List.take_succ_cons, List.flatMap_cons]; rfl, hn⟩

/-- **The client speaks in rounds.** Whatever is typed, whatever the system calls return and
whatever the server replies, the log of the control connection is this: the greeting is read;
then, round after round, a line is sent and one reply read, or two if the first one opens a
transfer that the line asks for; only a `QUIT` at the very end is not waited for. So when a line
is sent, every reply of the rounds before it has been read, and nothing else. The client sends
nothing but `USER` and `PASS` before a reply to `PASS` lets it in, and neither of them after
it. -/
theorem client_rounds (inputs : List (CStr × Calls)) (replies : List (Option (List Byte))) :
    ∃ rounds last, SpeaksInRounds replies (client inputs (.start replies)).2.log rounds last ∧
      ∀ before line after, (client inputs (.start replies)).2.log = before ++ .sent line :: after →
        ∃ n, (rounds.map Round.line ++ last)[n]? = some line ∧
          before = .heard .greeting ((replies.headD none).map cstr) ::
            (rounds.take n).flatMap Round.log := by
  obtain ⟨rounds, last, hspeaks⟩ := client_speaks inputs replies
  refine ⟨rounds, last, hspeaks, fun before line after hsplit => ?_⟩
  have hone : last.length ≤ 1 := by
    rcases hspeaks.last with h | h
    · rw [h]
      exact Nat.zero_le 1
    · rw [h]
      exact Nat.le_refl 1
  rw [hspeaks.order] at hsplit
  cases before with
  | nil => cases hsplit
  | cons x before =>
    obtain ⟨rfl, hrest⟩ := List.cons.inj hsplit
    obtain ⟨n, rfl, hn⟩ := rounds_before hone hrest
    exact ⟨n, hn, rfl⟩

end MyFtp.Client
