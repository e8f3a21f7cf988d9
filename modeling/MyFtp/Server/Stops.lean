import MyFtp.Server.Outcome

/-!
# Where the handling of a line can stop

A handler that does not return is terminated by `SIGPIPE`, or waits in `accept`,
or was given a descriptor that is in use, which does not happen (`Stopped`). The
one exception is a directory that is gone: `getcwd` then gives a null pointer,
and `CWD`, `CDUP` and `LIST` use what it gave.

> `executeCommand_stops`: there is no other.

> `executeCommand_lost`: the exception does happen.
-/

namespace MyFtp.Server

open MyFtp.Posix
open Prog

/-- Why a handler does not return. -/
inductive Stopped (ans : Answers) (s : Ctx) : Halt → Prop
  /-- The client is gone, and the handler prints something. -/
  | gone (h : s.os.kills s.conn.clientSockfd = true) : Stopped ans s .sigpipe
  /-- Nobody has connected to the passive data socket yet. -/
  | waiting (d : DataSocket) (l : Fd) (hd : s.conn.dataSocket = some d)
      (hmode : d.dataSocketMode = .passive) (hl : d.dataSockfd = some l)
      (hpending : s.os.desc l = some (.listener 0)) : Stopped ans s .blocked
  /-- A new descriptor would be one that is open. -/
  | taken (fd : Fd) (hgiven : ans.socket = some fd ∨ ∃ peer, ans.accept = some (fd, peer))
      (hopen : s.os.desc fd ≠ none) : Stopped ans s .disabled

/-- The directory that a command of a logged-in client takes over or looks at is
still there. -/
def Command.FindsDirectory (command : Command) (s : Ctx) (W : Path) : Prop :=
  (s.conn.loggedIn = true → ∀ path ∈ command.changesTo, s.os.tree.access s.os.cwd path = true →
      s.os.tree.opendir s.os.cwd path = true → s.os.tree.isDir (s.target W path) = true) ∧
    (command.word = lit "LIST" → ListFinds s W command)

instance (command : Command) (s : Ctx) (W : Path) : Decidable (command.FindsDirectory s W) :=
  inferInstanceAs (Decidable ((_ → _) ∧ (_ → _)))

section

variable {server : ServerT} {ans : Answers} {command : Command} {body : TransferBody} {s s' : Ctx}
  {W : Path} {status : CommandStatus} {id : ConnId} {E : Halt → Prop}

/-! ## Saying something -/

theorem kills_congr {os os' : Os} {fd : Fd} (hdesc : os'.desc fd = os.desc fd)
    (hsignals : os'.signals = os.signals) (hhungup : os'.hungup = os.hungup) :
    os'.kills fd = os.kills fd := by
  unfold Os.kills
  rw [hdesc, hsignals, hhungup]

theorem stops_reply_bind {α : Type} {r : Reply} {k : Unit → M α}
    (hE : s.os.kills s.conn.clientSockfd = true → E .sigpipe)
    (hk : Stops E (k ()) { s with out := s.out ++ s.os.delivers s.conn.clientSockfd r }) :
    Stops E (reply r >>= k) s := by
  intro e s₁ h
  rw [reply_bind_apply, dprintf_bind_apply] at h
  split at h
  next hkills =>
    cases h
    exact hE hkills
  next => exact hk e s₁ h

theorem stops_answer {α : Type} (hE : s.os.kills s.conn.clientSockfd = true → E .sigpipe)
    (r : Reply) (a : α) : Stops E (do reply r; return a : M α) s :=
  stops_reply_bind hE (stops_pure a)

theorem stops_refuse (hE : s.os.kills s.conn.clientSockfd = true → E .sigpipe) (r : Reply) :
    Stops E (refuse r) s := stops_answer hE r _

/-- The test every handler but three begins with. -/
theorem stops_loggedIn {p : Connection → M CommandStatus}
    (hE : s.os.kills s.conn.clientSockfd = true → E .sigpipe)
    (hp : s.conn.loggedIn = true → Stops E (p s.conn) s) :
    Stops E (do
      let c ← conn
      if c.loggedIn = false then refuse .pleaseLogin else p c) s := by
  show Stops E (if s.conn.loggedIn = false then refuse .pleaseLogin else p s.conn) s
  exact stops_ite (fun _ => stops_refuse hE _) fun hlog => hp (by simpa using hlog)

/-- An argument that was counted is there. -/
theorem stops_argument {α : Type} {k : CStr → M α} (hargc : command.argc = 1)
    (hk : ∀ arg, command.argv.head? = some arg → Stops E (k arg) s) :
    Stops E (deref command.argv.head? >>= k) s := by
  obtain ⟨arg, harg⟩ := head?_of_argc hargc
  rw [harg, deref_some]
  exact hk arg harg

/-! ## The handlers -/

theorem stops_user (hE : s.os.kills s.conn.clientSockfd = true → E .sigpipe) :
    Stops E (userCommand command) s := by
  unfold userCommand
  show Stops E (if s.conn.loggedIn then refuse .cantChangeUser else _) s
  exact stops_ite (fun _ => stops_refuse hE _) fun _ => stops_answer (by exact hE) _ _

theorem stops_pass (hE : s.os.kills s.conn.clientSockfd = true → E .sigpipe) :
    Stops E (passCommand command) s := by
  unfold passCommand
  have hcheck : checkPreconditions s =
      (if s.conn.loggedIn then refuse .alreadyLoggedIn
        else if s.conn.user = none then refuse .loginWithUserFirst
        else return .success : M CommandStatus) s := rfl
  by_cases hpass : s.conn.loggedIn = true ∨ s.conn.user = none
  · -- one of the checks fails
    refine Stops.bind (fun e s₁ h => ?_) fun status s₁ h => ?_
    · rw [hcheck] at h
      split at h
      next => exact stops_refuse hE _ e s₁ h
      next =>
        split at h
        next => exact stops_refuse hE _ e s₁ h
        next => cases h
    · rw [hcheck] at h
      have hfailure : status = .failure := by
        split at h
        next => exact (refuse_eq_ok h).1
        next hlog =>
          rw [if_pos (hpass.resolve_left (by simpa using hlog))] at h
          exact (refuse_eq_ok h).1
      rw [if_pos hfailure]
      exact stops_pure _
  · rw [not_or] at hpass
    rw [if_neg (by simpa using hpass.1), if_neg hpass.2] at hcheck
    refine Stops.bind (stops_of_ok hcheck) fun status s₁ h => ?_
    rw [hcheck] at h
    cases h
    rw [if_neg (by simp)]
    unfold processLogin
    obtain ⟨user, huser⟩ := Option.ne_none_iff_exists'.mp hpass.2
    show Stops E (deref s.conn.user >>= _) s
    rw [huser, deref_some]
    refine stops_ite (fun _ => stops_reply_bind hE (stops_pure _)) fun _ => ?_
    exact stops_refuse (by exact hE) _

theorem stops_dele (hE : s.os.kills s.conn.clientSockfd = true → E .sigpipe)
    (hW : s.conn.workingDirectory = some W) : Stops E (deleCommand command) s := by
  unfold deleCommand
  refine stops_loggedIn hE fun _ => stops_ite (fun _ => stops_refuse hE _) fun hargc => ?_
  refine stops_argument (not_not.mp hargc) fun path _ => ?_
  intro e s₁ h
  rw [deleteFile_apply hW] at h
  split at h
  next => exact stops_refuse (by exact hE) _ e s₁ h
  next => exact stops_answer (by exact hE) _ _ e s₁ h

theorem stops_help (hE : s.os.kills s.conn.clientSockfd = true → E .sigpipe) :
    Stops E helpCommand s :=
  stops_loggedIn hE fun _ => stops_reply_bind hE (stops_reply_bind (by exact hE)
    (stops_answer (by exact hE) _ _))

theorem stops_type (hE : s.os.kills s.conn.clientSockfd = true → E .sigpipe) :
    Stops E (typeCommand command) s := by
  unfold typeCommand
  refine stops_loggedIn hE fun _ => stops_ite (fun _ => stops_refuse hE _) fun hargc => ?_
  refine stops_argument (not_not.mp hargc) fun type _ => ?_
  unfold changeType
  refine stops_ite (fun _ => stops_answer (by exact hE) _ _) fun _ => ?_
  exact stops_ite (fun _ => stops_answer (by exact hE) _ _) fun _ => stops_refuse hE _

/-- `change_dir` runs into the null pointer where the directory is gone. -/
theorem stops_changeDir (hE : s.os.kills s.conn.clientSockfd = true → E .sigpipe)
    (hW : s.conn.workingDirectory = some W) {path : CStr}
    (hfinds : s.os.tree.access s.os.cwd path = true → s.os.tree.opendir s.os.cwd path = true →
      s.os.tree.isDir (s.target W path) = true) : Stops E (changeDir server path) s := by
  intro e s₁ h
  rw [changeDir_apply hW] at h
  split at h
  next => exact stops_refuse hE _ e s₁ h
  next hpass =>
    rw [not_or] at hpass
    have hdir := hfinds (by simpa using hpass.1) (by simpa using hpass.2)
    rw [if_neg (by simp [hdir])] at h
    exact stops_answer (by exact hE) _ _ e s₁ h

/-- A new descriptor does not change who is gone. -/
theorem Speaks.gone_withDesc (hs : Speaks id s) {fd : Fd} (hfree : s.os.desc fd = none)
    (x : Option Desc) (hk : (s.withDesc fd x).os.kills s.conn.clientSockfd = true) :
    Stopped ans s .sigpipe := by
  have hdesc := (hs.control_withDesc hfree x).trans hs.owns.control.symm
  have hsame : (s.withDesc fd x).os.kills s.conn.clientSockfd = _ := kills_congr hdesc rfl rfl
  exact .gone (hsame ▸ hk)

theorem stops_passive (hs : Speaks id s) : Stops (Stopped ans s)
    (createPassiveDataSocket ans) s := by
  unfold createPassiveDataSocket
  have hgone : s.os.kills s.conn.clientSockfd = true → Stopped ans s .sigpipe := .gone
  have hsetup := setupPassiveDataSocket_apply ans s
  cases hsocket : ans.socket with
  | none =>
    rw [hsocket] at hsetup
    intro e s₁ h
    rw [bind_of_ok hsetup] at h
    exact stops_refuse (by exact hgone) _ e s₁ h
  | some fd =>
    rw [hsocket] at hsetup
    dsimp only at hsetup
    by_cases hfree : s.os.desc fd = none
    · have hkills : ∀ x, _ → Stopped ans s .sigpipe := hs.gone_withDesc hfree
      rw [if_pos hfree] at hsetup
      by_cases hdeaf : ans.bind = false ∨ ans.listen = false
      · rw [if_pos hdeaf] at hsetup
        intro e s₁ h
        rw [bind_of_ok hsetup] at h
        exact stops_refuse (by exact hkills _) _ e s₁ h
      · rw [if_neg hdeaf] at hsetup
        intro e s₁ h
        rw [bind_of_ok hsetup] at h
        have hports : splitPort (passiveSocket ans fd).port = some _ := splitPort_port ans.port
        dsimp only at h
        rw [hports, deref_some] at h
        exact stops_answer (by exact hkills _) _ _ e s₁ h
    · rw [if_neg hfree] at hsetup
      exact stops_of_error (bind_of_error hsetup _) (.taken fd (.inl hsocket) hfree)

theorem stops_active (hs : Speaks id s) (arg : CStr) :
    Stops (Stopped ans s) (createActiveDataSocket ans arg) s := by
  have hgone : s.os.kills s.conn.clientSockfd = true → Stopped ans s .sigpipe := .gone
  unfold createActiveDataSocket
  cases parseHostPortValues arg with
  | none => exact stops_refuse hgone _
  | some hostPort =>
    have hsetup := setupActiveDataSocket_apply ans hostPort s
    cases hsocket : ans.socket with
    | none =>
      rw [hsocket] at hsetup
      intro e s₁ h
      dsimp only at h
      rw [bind_of_ok hsetup] at h
      exact stops_refuse (by exact hgone) _ e s₁ h
    | some fd =>
      rw [hsocket] at hsetup
      dsimp only at hsetup ⊢
      by_cases hfree : s.os.desc fd = none
      · have hkills : ∀ x, _ → Stopped ans s .sigpipe := hs.gone_withDesc hfree
        rw [if_pos hfree] at hsetup
        intro e s₁ h
        rw [bind_of_ok hsetup] at h
        exact stops_answer (by exact hkills _) _ _ e s₁ h
      · rw [if_neg hfree] at hsetup
        exact stops_of_error (bind_of_error hsetup _) (.taken fd (.inl hsocket) hfree)

theorem stops_establish {d : DataSocket} (hd : s.conn.dataSocket = some d) :
    Stops (Stopped ans s) (establishDataSocketConnection ans) s := by
  intro e s₁ h
  unfold establishDataSocketConnection at h
  rw [conn_bind_apply, hd, deref_some, pure_bind_apply] at h
  cases hmode : d.dataSocketMode with
  | active =>
    rw [hmode] at h
    cases h
  | passive =>
    rw [hmode] at h
    dsimp only at h
    rcases acceptData_cases ans d.dataSockfd s with hacc | ⟨hacc, l, hl, -, hpending⟩ |
      ⟨l, pending, newFd, peer, hl, hpending, haccept, ⟨hopen, hacc⟩ | ⟨hfree, hacc⟩⟩
    · rw [acceptConnection_of_none hacc] at h
      cases h
    · rw [acceptConnection, bind_of_error hacc] at h
      cases h
      exact .waiting d l hd hmode hl hpending
    · rw [acceptConnection, bind_of_error hacc] at h
      cases h
      exact .taken newFd (.inr ⟨peer, haccept⟩) hopen
    · rw [acceptConnection_of_some hacc] at h
      cases h

theorem stops_transfer (hs : Speaks id s) {d : DataSocket} (hd : s.conn.dataSocket = some d) :
    Stops (Stopped ans s) (executeDataSocketCommand ans body command) s := by
  unfold executeDataSocketCommand
  refine Stops.bind (stops_establish hd) fun connected s₁ hest => ?_
  obtain ⟨d₁, desc₁, hreach, rfl⟩ := establish_reaches hd hest
  have hdesc : desc₁ s.conn.clientSockfd = s.os.desc s.conn.clientSockfd :=
    hreach.desc_of_control hs hd
  have hgone : ∀ s₂ : Ctx, s₂.os = (s.withData desc₁ (some d₁)).os →
      s₂.os.kills s.conn.clientSockfd = true → Stopped ans s .sigpipe := by
    intro s₂ hos hk
    rw [hos] at hk
    have hsame : (s.withData desc₁ (some d₁)).os.kills s.conn.clientSockfd = _ :=
      kills_congr hdesc rfl rfl
    exact .gone (hsame ▸ hk)
  have hgiven : ∀ (s₂ : Ctx) (status : CommandStatus), s₂.conn.dataSocket = some d₁ →
      Stops (Stopped ans s) (do
        let c ← conn
        destroyDataSocket c.dataSocket
        setDataSocket none
        return status : M CommandStatus) s₂ :=
    fun s₂ status hd₂ => stops_of_ok (giveUp_apply hd₂ status)
  refine stops_ite (fun _ => ?_) fun _ => ?_
  · exact stops_reply_bind (hgone _ rfl) (hgiven _ _ rfl)
  · refine Stops.bind (fun e s₂ h => ?_) fun status s₂ h => ?_
    · rw [forkExecution_apply] at h
      split at h
      next => cases h
      next => cases h
    · have hs₂ : s₂.os = (s.withData desc₁ (some d₁)).os ∧
          s₂.conn = (s.withData desc₁ (some d₁)).conn := by
        rw [forkExecution_apply] at h
        split at h
        next =>
          cases h
          exact ⟨rfl, rfl⟩
        next =>
          cases h
          exact ⟨rfl, rfl⟩
      have hd₂ : s₂.conn.dataSocket = some d₁ := by
        rw [hs₂.2]
        rfl
      refine stops_ite (fun _ => ?_) fun _ => hgiven _ _ hd₂
      refine stops_reply_bind ?_ (hgiven _ _ hd₂)
      rw [show s₂.conn.clientSockfd = s.conn.clientSockfd from by rw [hs₂.2]; rfl]
      exact hgone s₂ hs₂.1

/-- The three transfers: their tests refuse, or a transfer is begun. -/
theorem stops_transferCommand (hs : Speaks id s) (hW : s.conn.workingDirectory = some W)
    (hbody : bodyOf command.word = some body)
    (hfinds : body = .executeLsCommand → ListFinds s W command) :
    Stops (Stopped ans s) (executeCommand server ans (some command)) s := by
  have hgone : s.os.kills s.conn.clientSockfd = true → Stopped ans s .sigpipe := .gone
  have htests : executeCommand server ans (some command) s = _ :=
    transferCommand_tests hW hbody hfinds
  intro e s₁ h
  rw [htests] at h
  match ht : transferTests server s W command body with
  | (some r, cwd) =>
    rw [ht] at h
    exact stops_refuse (by exact hgone) r e s₁ h
  | (none, cwd) =>
    rw [ht] at h
    have hd : ∃ d, s.conn.dataSocket = some d := by
      unfold transferTests at ht
      split at ht
      next => cases ht
      next =>
        split at ht
        next => cases ht
        next hdata => exact Option.ne_none_iff_exists'.mp hdata
    obtain ⟨d, hd⟩ := hd
    have hstop : Stopped ans (s.inDir cwd) e := stops_transfer (hs.inDir cwd) hd e s₁ h
    cases hstop with
    | gone hk => exact hgone hk
    | waiting d l hd hmode hl hpending => exact .waiting d l hd hmode hl hpending
    | taken fd hgiven hopen => exact .taken fd hgiven hopen

/-- A line stops where `Stopped` says, unless it uses a directory that is gone. -/
theorem executeCommand_stops {parsed : Option Command} (hs : Speaks id s)
    (hW : s.conn.workingDirectory = some W)
    (hfinds : ∀ command, parsed = some command → command.FindsDirectory s W) :
    Stops (Stopped ans s) (executeCommand server ans parsed) s := by
  have hgone : s.os.kills s.conn.clientSockfd = true → Stopped ans s .sigpipe := .gone
  have hunknown : Stops (Stopped ans s) (executeCommand server ans none) s :=
    stops_reply_bind hgone (stops_pure _)
  cases parsed with
  | none => exact hunknown
  | some command =>
    obtain ⟨hchange, hlist⟩ := hfinds command rfl
    cases hh : getCommandHandler command with
    | none =>
      rw [executeCommand_of_none hh]
      exact hunknown
    | some handler =>
      have hmem := getCommandHandler_mem hh
      have htransfer : ∀ body : TransferBody, command.word = body.word →
          (body = .executeLsCommand → ListFinds s W command) →
          Stops (Stopped ans s) (executeCommand server ans (some command)) s :=
        fun _ hword hls => stops_transferCommand hs hW (bodyOf_eq_some.mpr hword.symm) hls
      rw [executeCommand_of_mem hmem] at htransfer ⊢
      simp only [commandHandlers, List.mem_cons, Prod.mk.injEq, List.not_mem_nil,
        or_false] at hmem
      rcases hmem with h | h | h | h | h | h | h | h | h | h | h | h | h | h | h <;>
        obtain ⟨hword, rfl⟩ := h
      · exact stops_user hgone
      · exact stops_pass hgone
      · refine stops_loggedIn hgone fun hlog => stops_ite (fun _ => stops_refuse hgone _) ?_
        refine fun hargc => stops_argument (not_not.mp hargc) fun path hpath => ?_
        have hto : command.changesTo = some path := by
          unfold Command.changesTo
          rw [if_pos hword, if_pos (not_not.mp hargc), hpath]
        exact stops_changeDir hgone hW (hchange hlog path hto)
      · refine stops_loggedIn hgone fun hlog => ?_
        have hto : command.changesTo = some (lit "..") := by
          unfold Command.changesTo
          rw [if_neg (by rw [hword]; decide), if_pos hword]
        exact stops_changeDir hgone hW (hchange hlog _ hto)
      · exact stops_pure _
      · exact stops_dele hgone hW
      · refine stops_loggedIn hgone fun _ => ?_
        rw [hW, deref_some]
        exact stops_answer hgone _ _
      · exact stops_loggedIn hgone fun _ => stops_passive hs
      · exact stops_loggedIn hgone fun _ => stops_ite (fun _ => stops_refuse hgone _) fun hargc =>
          stops_argument (not_not.mp hargc) fun arg _ => stops_active hs arg
      · exact stops_help hgone
      · exact stops_loggedIn hgone fun _ => stops_answer hgone _ _
      · exact htransfer .executeRetrCommand hword fun h => (by cases h)
      · exact htransfer .executeStorCommand hword fun h => (by cases h)
      · exact htransfer .executeLsCommand hword fun _ => hlist hword
      · exact stops_type hgone

/-- Where it does use one, it runs into the null pointer. -/
theorem executeCommand_lost (hW : s.conn.workingDirectory = some W)
    (hlost : ¬ command.FindsDirectory s W) :
    ∃ s₁, executeCommand server ans (some command) s = (.error .undefined, s₁) := by
  unfold Command.FindsDirectory at hlost
  rw [not_and_or] at hlost
  rcases hlost with hlost | hlost
  · -- `CWD` or `CDUP`
    push Not at hlost
    obtain ⟨hlog, path, hpath, hacc, hopen, hdir⟩ := hlost
    have hchange : changeDir server path s = _ := changeDir_apply hW path
    rw [if_neg (by simp [hacc, hopen]), if_pos (by simpa using hdir)] at hchange
    obtain ⟨s₁, hs₁⟩ : ∃ s₁, changeDir server path s = (.error .undefined, s₁) := ⟨_, hchange⟩
    refine ⟨s₁, ?_⟩
    unfold Command.changesTo at hpath
    split at hpath
    next hword =>
      split at hpath
      next hargc =>
        rw [executeCommand_of_mem (by rw [hword]; exact List.mem_of_getElem? (i := 2) rfl)]
        unfold cwdCommand
        rw [conn_bind_apply, if_neg (by simp [hlog]), if_neg (not_not.mpr hargc),
          Option.mem_def.mp hpath, deref_some, pure_bind_apply, hs₁]
      next => cases hpath
    next =>
      split at hpath
      next hword =>
        rw [executeCommand_of_mem (by rw [hword]; exact List.mem_of_getElem? (i := 3) rfl)]
        unfold cdupCommand
        rw [conn_bind_apply, if_neg (by simp [hlog])]
        cases hpath
        exact hs₁
      next => cases hpath
  · -- `LIST`
    rw [Classical.not_imp] at hlost
    obtain ⟨hword, hlost⟩ := hlost
    unfold ListFinds at hlost
    push Not at hlost
    obtain ⟨hlog, hdata, path, hpath, hacc, d, hd, hdir⟩ := hlost
    have hcheck : checkListArgument server path s = _ := checkExists_bind_apply _ _ _
    rw [if_neg (by simp [hacc]), if_neg (by simp), checkDirectoryAccess_apply hW,
      Option.mem_def.mp hd] at hcheck
    dsimp only at hcheck
    rw [if_pos (by simpa using hdir)] at hcheck
    refine ⟨s.inDir d, ?_⟩
    rw [executeCommand_of_mem (by rw [hword]; exact List.mem_of_getElem? (i := 13) rfl)]
    unfold listCommand
    rw [conn_bind_apply, if_neg (by simp [hlog]), if_neg hdata, Option.mem_def.mp hpath]
    exact bind_of_error hcheck _

end

end MyFtp.Server
