import MyFtp.Server.Frame
import MyFtp.Server.Sessions

/-!
# Who is logged in

The login of a connection depends on its own `USER` and `PASS` lines and on
nothing else. `Login` says what it depends on them for: a small automaton, in
which being logged in carries the proof that the user is one of the two
permitted names. What it accepts is read off the trace (`granted_iff`).

The handlers refine it: a connection's `loggedIn` and `user` are at every
moment those of the automaton after the connection's lines so far
(`login_of_run`), because thirteen of the handlers leave both fields alone.

> `loggedIn_iff_trace`: a connection is logged in exactly if its lines contain a
> `USER` with a permitted name and later a `PASS` without argument, with neither
> of the two in between; and it stays so, with the same user, until it is
> destroyed.
-/

namespace MyFtp.Server

open MyFtp.Posix
open Prog

/-! ## The automaton -/

/-- The two names that can log in. -/
def Permitted (user : CStr) : Prop := user = lit "Anonymous" ∨ user = lit "anonymous"

instance (user : CStr) : Decidable (Permitted user) := inferInstanceAs (Decidable (_ ∨ _))

/-- What a line is for the login: `USER` with its first argument, `PASS` with
its password, or something else. -/
inductive LoginEvent
  | user (name : Option CStr)
  | pass (password : CStr)
  | other
  deriving DecidableEq

/-- How far a client got. -/
inductive Login
  | nobody
  | named (user : CStr)
  | granted (user : CStr) (permitted : Permitted user)

/-- One line. -/
def Login.next : Login → LoginEvent → Login
  | .granted user h, _ => .granted user h
  | .nobody, .user none => .nobody
  | .nobody, .user (some name) => .named name
  | .nobody, _ => .nobody
  | .named _, .user none => .nobody
  | .named _, .user (some name) => .named name
  | .named user, .pass password =>
    if h : Permitted user then if password = [] then .granted user h else .nobody else .nobody
  | .named user, .other => .named user

/-- The lines let the client in. -/
def Granted (events : List LoginEvent) : Prop :=
  ∃ before user between after,
    events = before ++ .user (some user) :: between ++ .pass [] :: after ∧
      Permitted user ∧ ∀ e ∈ between, e = .other

/-- The lines end with a `USER` naming `user` that no `USER` or `PASS`
follows. -/
def Named (user : CStr) (events : List LoginEvent) : Prop :=
  ∃ before between, events = before ++ .user (some user) :: between ∧ ∀ e ∈ between, e = .other

theorem Granted.append {events : List LoginEvent} (h : Granted events) (e : LoginEvent) :
    Granted (events ++ [e]) := by
  obtain ⟨a, u, b, c, rfl, hu, hb⟩ := h
  exact ⟨a, u, b, c ++ [e], by simp, hu, hb⟩

/-- What one more line does to the shape of a trace. -/
theorem named_append_iff {user : CStr} {events : List LoginEvent} {e : LoginEvent} :
    Named user (events ++ [e]) ↔ e = .user (some user) ∨ (e = .other ∧ Named user events) := by
  constructor
  · rintro ⟨a, b, h, hb⟩
    rcases List.eq_nil_or_concat b with rfl | ⟨b, x, rfl⟩
    · obtain ⟨-, hlast⟩ := List.append_inj' h rfl
      exact .inl (List.singleton_inj.mp hlast)
    · rw [List.concat_eq_append] at h hb
      rw [← List.cons_append, ← List.append_assoc] at h
      obtain ⟨rfl, hlast⟩ := List.append_inj' h rfl
      obtain rfl := List.singleton_inj.mp hlast
      exact .inr ⟨hb _ (by simp), a, b, rfl, fun y hy => hb y (by simp [hy])⟩
  · rintro (rfl | ⟨rfl, a, b, rfl, hb⟩)
    · exact ⟨events, [], rfl, by simp⟩
    · exact ⟨a, b ++ [.other], by simp, fun y hy => by
        rcases List.mem_append.mp hy with hy | hy
        · exact hb y hy
        · exact List.mem_singleton.mp hy⟩

theorem granted_append_iff {events : List LoginEvent} {e : LoginEvent} :
    Granted (events ++ [e]) ↔
      Granted events ∨ (e = .pass [] ∧ ∃ user, Permitted user ∧ Named user events) := by
  constructor
  · rintro ⟨a, u, b, c, h, hu, hb⟩
    rcases List.eq_nil_or_concat c with rfl | ⟨c, x, rfl⟩
    · obtain ⟨rfl, hlast⟩ := List.append_inj' h rfl
      exact .inr ⟨List.singleton_inj.mp hlast, u, hu, a, b, rfl, hb⟩
    · rw [List.concat_eq_append, ← List.cons_append, ← List.append_assoc] at h
      obtain ⟨rfl, -⟩ := List.append_inj' h rfl
      exact .inl ⟨a, u, b, c, rfl, hu, hb⟩
  · rintro (h | ⟨rfl, u, hu, a, b, rfl, hb⟩)
    · exact h.append e
    · exact ⟨a, u, b, [], rfl, hu, hb⟩

/-- The automaton's state after some lines, read off the lines: it is granted
if they grant it, and otherwise it is named exactly by the last `USER`. -/
theorem foldl_next_spec (events : List LoginEvent) :
    match events.foldl Login.next .nobody with
    | .granted _ _ => Granted events
    | .named user => ¬ Granted events ∧ ∀ u, Named u events ↔ u = user
    | .nobody => ¬ Granted events ∧ ∀ u, ¬ Named u events := by
  induction events using List.reverseRecOn with
  | nil =>
    refine ⟨?_, ?_⟩
    · rintro ⟨a, u, b, c, h, -⟩
      simp at h
    · rintro u ⟨a, b, h, -⟩
      simp at h
  | append_singleton events e ih =>
    rw [List.foldl_append, List.foldl_cons, List.foldl_nil]
    simp only [granted_append_iff, named_append_iff]
    generalize events.foldl Login.next .nobody = state at ih ⊢
    cases state with
    | granted user h => exact .inl ih
    | nobody =>
      obtain ⟨hg, hn⟩ := ih
      cases e with
      | user name => cases name <;> simp [Login.next, hg, eq_comm]
      | pass password => simp [Login.next, hg, hn]
      | other => simp [Login.next, hg, hn]
    | named user =>
      obtain ⟨hg, hn⟩ := ih
      cases e with
      | user name => cases name <;> simp [Login.next, hg, eq_comm]
      | other => simp [Login.next, hg, hn]
      | pass password =>
        by_cases hu : Permitted user
        · by_cases hp : password = []
          · simp only [Login.next, hu, hp, if_true, dif_pos]
            exact .inr ⟨trivial, user, hu, (hn user).mpr rfl⟩
          · simp [Login.next, hu, hp, hg]
        · simp [Login.next, hu, hg, hn]

/-- What the automaton accepts. -/
theorem granted_iff (events : List LoginEvent) :
    (∃ user h, events.foldl Login.next .nobody = .granted user h) ↔ Granted events := by
  have hspec := foldl_next_spec events
  constructor
  · rintro ⟨user, h, hstate⟩
    rwa [hstate] at hspec
  · intro hg
    match hstate : events.foldl Login.next .nobody with
    | .granted user h => exact ⟨user, h, rfl⟩
    | .named user => rw [hstate] at hspec; exact absurd hg hspec.1
    | .nobody => rw [hstate] at hspec; exact absurd hg hspec.1

/-! ## Lines -/

/-- The line is a command with that word. -/
def HasWord (word : CStr) (line : CStr) : Prop :=
  ∃ command, commandOf line = some command ∧ command.word = word

/-- A `USER` line with a permitted name as its first argument. -/
def NamesPermitted (line : CStr) : Prop :=
  ∃ command user, commandOf line = some command ∧ command.word = lit "USER" ∧
    command.argv.head? = some user ∧ Permitted user

/-- A `PASS` line without argument. -/
def BarePass (line : CStr) : Prop :=
  ∃ command, commandOf line = some command ∧ command.word = lit "PASS" ∧ command.argv = []

/-- A `USER` line with a permitted name, and later a `PASS` line without
argument, with neither of the two in between. -/
def LetIn (lines : List CStr) : Prop :=
  ∃ before userLine between passLine after,
    lines = before ++ userLine :: between ++ passLine :: after ∧
      NamesPermitted userLine ∧ BarePass passLine ∧
      ∀ line ∈ between, ¬ HasWord (lit "USER") line ∧ ¬ HasWord (lit "PASS") line

/-- What a line is for the login. -/
def loginEvent (line : CStr) : LoginEvent :=
  match commandOf line with
  | none => .other
  | some command =>
    if command.word = lit "USER" then .user command.argv.head?
    else if command.word = lit "PASS" then .pass (getPassword command)
    else .other

theorem lit_user_ne_pass : lit "USER" ≠ lit "PASS" := by decide

/-- An argument is never empty, so no password means no argument. -/
theorem getPassword_eq_nil_iff {line : CStr} {command : Command}
    (h : commandOf line = some command) : getPassword command = [] ↔ command.argv = [] := by
  have hparse : parseBuffer line = .ok (some command) := by
    unfold commandOf at h
    split at h
    next hp => rw [hp, h]
    next => cases h
  rw [getPassword, Command.argc]
  cases hargv : command.argv with
  | nil => simp
  | cons a l =>
    have : a ≠ [] := argv_ne_nil hparse a (hargv ▸ List.mem_cons_self)
    simpa using this

theorem loginEvent_eq_user_iff {line : CStr} {user : CStr} :
    loginEvent line = .user (some user) ↔
      ∃ command, commandOf line = some command ∧ command.word = lit "USER" ∧
        command.argv.head? = some user := by
  rw [loginEvent]
  cases hc : commandOf line with
  | none => simp
  | some command =>
    by_cases hu : command.word = lit "USER"
    · simp [hu]
    · by_cases hp : command.word = lit "PASS" <;> simp [hu, hp, lit_user_ne_pass.symm]

theorem loginEvent_eq_pass_iff {line : CStr} : loginEvent line = .pass [] ↔ BarePass line := by
  rw [loginEvent, BarePass]
  cases hc : commandOf line with
  | none => simp
  | some command =>
    by_cases hu : command.word = lit "USER"
    · simp [hu, lit_user_ne_pass]
    · by_cases hp : command.word = lit "PASS"
      · simp [hp, lit_user_ne_pass.symm, getPassword_eq_nil_iff hc]
      · simp [hu, hp]

theorem loginEvent_eq_other_iff {line : CStr} :
    loginEvent line = .other ↔ ¬ HasWord (lit "USER") line ∧ ¬ HasWord (lit "PASS") line := by
  rw [loginEvent, HasWord, HasWord]
  cases hc : commandOf line with
  | none => simp
  | some command =>
    by_cases hu : command.word = lit "USER"
    · simp [hu]
    · by_cases hp : command.word = lit "PASS" <;> simp [hu, hp, lit_user_ne_pass.symm]

/-- The trace condition on lines is the one on events. -/
theorem granted_map_iff {lines : List CStr} : Granted (lines.map loginEvent) ↔ LetIn lines := by
  constructor
  · rintro ⟨a, user, b, c, h, hu, hb⟩
    rw [List.append_assoc, List.cons_append, List.map_eq_append_iff] at h
    obtain ⟨before, rest, rfl, -, h⟩ := h
    rw [List.map_eq_cons_iff] at h
    obtain ⟨userLine, rest, rfl, huser, h⟩ := h
    rw [List.map_eq_append_iff] at h
    obtain ⟨between, rest, rfl, rfl, h⟩ := h
    rw [List.map_eq_cons_iff] at h
    obtain ⟨passLine, after, rfl, hpass, -⟩ := h
    obtain ⟨command, hc, hw, hname⟩ := loginEvent_eq_user_iff.mp huser
    refine ⟨before, userLine, between, passLine, after, by simp, ⟨command, user, hc, hw, hname, hu⟩,
      loginEvent_eq_pass_iff.mp hpass, fun line hl => ?_⟩
    exact loginEvent_eq_other_iff.mp (hb _ (List.mem_map_of_mem hl))
  · rintro ⟨before, userLine, between, passLine, after, rfl, ⟨command, user, hc, hw, hname, hu⟩,
      hpass, hb⟩
    refine ⟨before.map loginEvent, user, between.map loginEvent, after.map loginEvent, ?_, hu, ?_⟩
    · rw [← loginEvent_eq_user_iff.mpr ⟨command, hc, hw, hname⟩,
        ← loginEvent_eq_pass_iff.mpr hpass]
      simp
    · intro e he
      obtain ⟨line, hl, rfl⟩ := List.mem_map.mp he
      exact loginEvent_eq_other_iff.mpr (hb line hl)

/-! ## The handlers refine the automaton -/

/-- The two fields of the record are those of the automaton's state. -/
def Connection.HasLogin (c : Connection) : Login → Prop
  | .nobody => c.loggedIn = false ∧ c.user = none
  | .named user => c.loggedIn = false ∧ c.user = some user
  | .granted user _ => c.loggedIn = true ∧ c.user = some user

theorem Connection.HasLogin.congr {c c' : Connection} {state : Login} (h : c.HasLogin state)
    (hl : c'.loggedIn = c.loggedIn) (hu : c'.user = c.user) : c'.HasLogin state := by
  cases state <;> simpa only [HasLogin, hl, hu] using h

theorem userCommand_hasLogin {command : Command} {s s' : Ctx} {status : CommandStatus}
    {state : Login} (h : userCommand command s = (.ok status, s')) (hs : s.conn.HasLogin state) :
    s'.conn.HasLogin (state.next (.user command.argv.head?)) := by
  rw [userCommand, conn_bind_apply] at h
  by_cases hl : s.conn.loggedIn = true
  · rw [if_pos hl] at h
    obtain ⟨-, rfl⟩ := refuse_eq_ok h
    cases state with
    | granted user hp => exact hs
    | nobody => rw [hs.1] at hl; cases hl
    | named user => rw [hs.1] at hl; cases hl
  · rw [if_neg hl] at h
    obtain ⟨-, rfl⟩ := answer_eq_ok h
    have huser : (if command.argc = 0 then none else command.argv.head?) = command.argv.head? := by
      rw [Command.argc]
      cases command.argv <;> rfl
    have hfalse : s.conn.loggedIn = false := by simpa using hl
    simp only [huser]
    cases state with
    | granted user hp => exact absurd hs.1 hl
    | nobody => cases command.argv.head? <;> exact ⟨hfalse, rfl⟩
    | named user => cases command.argv.head? <;> exact ⟨hfalse, rfl⟩

/-- `PASS` without a user to log in, or after the login, is refused. -/
theorem checkPreconditions_eq_ok {s s' : Ctx} {status : CommandStatus}
    (h : checkPreconditions s = (.ok status, s')) :
    s'.conn = s.conn ∧
      ((status = .success ∧ s.conn.loggedIn = false ∧ s.conn.user ≠ none) ∨
        (status = .failure ∧ (s.conn.loggedIn = true ∨ s.conn.user = none))) := by
  rw [checkPreconditions, conn_bind_apply] at h
  split at h
  next hl =>
    obtain ⟨rfl, rfl⟩ := refuse_eq_ok h
    exact ⟨rfl, .inr ⟨rfl, .inl hl⟩⟩
  next hl =>
    split at h
    next hu =>
      obtain ⟨rfl, rfl⟩ := refuse_eq_ok h
      exact ⟨rfl, .inr ⟨rfl, .inr hu⟩⟩
    next hu =>
      simp only [Prog.pure_apply, Prod.mk.injEq, Except.ok.injEq] at h
      obtain ⟨rfl, rfl⟩ := h
      exact ⟨rfl, .inl ⟨rfl, by simpa using hl, hu⟩⟩

theorem processLogin_conn {password user : CStr} {s s' : Ctx} {status : CommandStatus}
    (hu : s.conn.user = some user) (h : processLogin password s = (.ok status, s')) :
    s'.conn = if Permitted user ∧ password = [] then { s.conn with loggedIn := true }
      else { s.conn with user := none } := by
  rw [processLogin, conn_bind_apply, hu, deref_some, Prog.pure_bind_apply] at h
  split at h
  next hp =>
    have h := reply_bind_eq_ok h
    rw [modifyConn_bind_apply, Prog.pure_apply, Prod.mk.injEq] at h
    rw [← h.2, if_pos (show Permitted user ∧ password = [] from hp)]
  next hp =>
    rw [modifyConn_bind_apply] at h
    obtain ⟨-, rfl⟩ := refuse_eq_ok h
    rw [if_neg (show ¬ (Permitted user ∧ password = []) from hp)]

theorem passCommand_hasLogin {command : Command} {s s' : Ctx} {status : CommandStatus}
    {state : Login} (h : passCommand command s = (.ok status, s')) (hs : s.conn.HasLogin state) :
    s'.conn.HasLogin (state.next (.pass (getPassword command))) := by
  obtain ⟨checked, s₁, hcheck, h⟩ := Prog.bind_eq_ok h
  obtain ⟨hconn, ⟨rfl, hl, hu⟩ | ⟨rfl, hbad⟩⟩ := checkPreconditions_eq_ok hcheck
  · rw [if_neg (by simp)] at h
    cases state with
    | granted user hp => rw [hs.1] at hl; cases hl
    | nobody => exact absurd hs.2 hu
    | named user =>
      rw [processLogin_conn (hconn ▸ hs.2) h, hconn, Login.next]
      by_cases hp : Permitted user
      · by_cases hpass : getPassword command = []
        · rw [if_pos ⟨hp, hpass⟩, dif_pos hp, if_pos hpass]
          exact ⟨rfl, hs.2⟩
        · rw [if_neg (fun h => hpass h.2), dif_pos hp, if_neg hpass]
          exact ⟨hs.1, rfl⟩
      · rw [if_neg (fun h => hp h.1), dif_neg hp]
        exact ⟨hs.1, rfl⟩
  · rw [if_pos rfl, Prog.pure_apply, Prod.mk.injEq] at h
    rw [← h.2, hconn]
    cases state with
    | granted user hp => exact hs
    | nobody => exact hs
    | named user => rcases hbad with hbad | hbad <;> simp [hs.1, hs.2] at hbad

/-- One line of the connection is one step of the automaton. -/
theorem executeCommand_hasLogin {server : ServerT} {ans : Answers} {line : CStr}
    {parsed : Option Command} {s s' : Ctx} {status : CommandStatus} {state : Login}
    (hparse : parseBuffer line = .ok parsed)
    (h : executeCommand server ans parsed s = (.ok status, s')) (hs : s.conn.HasLogin state) :
    s'.conn.HasLogin (state.next (loginEvent line)) := by
  have hother : (∀ command, parsed = some command →
      command.word ≠ lit "USER" ∧ command.word ≠ lit "PASS") → loginEvent line = .other := by
    intro hw
    refine loginEvent_eq_other_iff.mpr ⟨?_, ?_⟩ <;> rintro ⟨command, hc, hword⟩ <;>
      rw [commandOf, hparse] at hc
    · exact (hw command hc).1 hword
    · exact (hw command hc).2 hword
  have hstay : state.next .other = state := by cases state <;> rfl
  rcases word_cases parsed with hown | ⟨command, rfl, hdir⟩ | ⟨command, rfl, hlog⟩
  · have hr : Routine s (executeCommand server ans parsed s).2 := executeCommand_routine hown s
    rw [h] at hr
    rw [hother fun command hc => ⟨fun hw => hown command hc (by simp [ownNames, hw]),
      fun hw => hown command hc (by simp [ownNames, hw])⟩, hstay]
    exact hs.congr (by rw [hr.conn]) (by rw [hr.conn])
  · have hr : Relocates s (executeCommand server ans (some command) s).2 :=
      executeCommand_relocates hdir s
    rw [h] at hr
    rw [hother fun c hc => by
      obtain rfl := Option.some.inj hc
      rcases hdir with hd | hd <;> rw [hd] <;> decide, hstay]
    exact hs.congr (by rw [hr.conn]) (by rw [hr.conn])
  · have hline : commandOf line = some command := by rw [commandOf, hparse]
    rcases hlog with hw | hw
    · rw [loginEvent, hline]
      dsimp only
      rw [if_pos hw]
      rw [executeCommand_of_mem (by rw [hw]; exact List.mem_of_getElem? (i := 0) rfl)] at h
      exact userCommand_hasLogin h hs
    · rw [loginEvent, hline]
      dsimp only
      rw [if_neg (by rw [hw]; decide), if_pos hw]
      rw [executeCommand_of_mem (by rw [hw]; exact List.mem_of_getElem? (i := 1) rfl)] at h
      exact passCommand_hasLogin h hs

/-! ## Runs -/

/-- The automaton's state after the lines of a client. -/
def loginAfter (lines : List CStr) : Login := (lines.map loginEvent).foldl Login.next .nobody

theorem loginAfter_concat (lines : List CStr) (line : CStr) :
    loginAfter (lines ++ [line]) = (loginAfter lines).next (loginEvent line) := by
  simp [loginAfter]

/-- Once granted, always granted. -/
theorem foldl_next_granted (user : CStr) (h : Permitted user) (events : List LoginEvent) :
    events.foldl Login.next (.granted user h) = .granted user h := by
  induction events with
  | nil => rfl
  | cons e events ih => exact ih

/-- Every record has the login that the lines of its client give it. -/
theorem login_of_run {u : Setup} {events : List SessionEvent} {S : Sessions}
    (h : (sessions u).run events = .ok S) :
    ∀ id c, S.conns id = some c → c.HasLogin (loginAfter (linesOf id events)) := by
  refine (Machine.run_invariant (m := sessions u)
    (I := fun events S => (sessions u).run events = .ok S ∧
      ∀ id c, S.conns id = some c → c.HasLogin (loginAfter (linesOf id events)))
    ⟨rfl, fun _ _ hc => by cases hc⟩ ?_ events S h).2
  rintro events S e S' ⟨hrun, hI⟩ hstep
  refine ⟨Machine.runFrom_append_ok.mpr ⟨S, hrun, Machine.runFrom_cons_of_step hstep []⟩, ?_⟩
  intro id c hc
  rw [linesOf_append]
  rcases record_cases hstep hc with ⟨hc', hne⟩ | ⟨rfl, fd, addr, rfl, rfl⟩ |
    ⟨line, ans, c₀, parsed, status, s, rfl, hc₀, hparse, hx, rfl, -⟩
  · rcases linesOf_singleton id e with ⟨line, ans, he, -⟩ | ⟨-, hl⟩
    · exact absurd he (hne line ans)
    · rw [hl, List.append_nil]
      exact hI id c hc'
  · rw [(fresh_of_run hrun _ (Nat.le_refl _)).2]
    exact ⟨rfl, rfl⟩
  · rw [show linesOf id [SessionEvent.line id line ans] = [line] by simp [linesOf],
      loginAfter_concat]
    exact executeCommand_hasLogin hparse hx (hI id c₀ hc₀)

/-- **The trace decides the login.** At the end of every run, a connection is
logged in exactly if its lines let it in; then its user has one of the two
permitted names, and in whatever happens next it stays logged in with that
user, as long as it exists. -/
theorem loggedIn_iff_trace (u : Setup) (events : List SessionEvent) (S : Sessions)
    (hrun : (sessions u).run events = .ok S) (id : ConnId) (c : Connection)
    (hc : S.conns id = some c) :
    (c.loggedIn = true ↔ LetIn (linesOf id events)) ∧
      (c.loggedIn = true → ∃ user, c.user = some user ∧ Permitted user) ∧
      (c.loggedIn = true → ∀ events' S', (sessions u).runFrom S events' = .ok S' →
        ∀ c', S'.conns id = some c' → c'.loggedIn = true ∧ c'.user = c.user) := by
  have hlogin := login_of_run hrun id c hc
  have hgranted : c.loggedIn = true →
      ∃ user h, loginAfter (linesOf id events) = .granted user h ∧ c.user = some user := by
    intro hl
    match hstate : loginAfter (linesOf id events) with
    | .granted user h => rw [hstate] at hlogin; exact ⟨user, h, rfl, hlogin.2⟩
    | .nobody => rw [hstate] at hlogin; rw [hlogin.1] at hl; cases hl
    | .named user => rw [hstate] at hlogin; rw [hlogin.1] at hl; cases hl
  refine ⟨?_, ?_, ?_⟩
  · rw [← granted_map_iff, ← granted_iff]
    constructor
    · intro hl
      obtain ⟨user, h, hstate, -⟩ := hgranted hl
      exact ⟨user, h, hstate⟩
    · rintro ⟨user, h, hstate⟩
      rw [loginAfter, hstate] at hlogin
      exact hlogin.1
  · intro hl
    obtain ⟨user, h, -, huser⟩ := hgranted hl
    exact ⟨user, huser, h⟩
  · intro hl events' S' hrun' c' hc'
    obtain ⟨user, h, hstate, huser⟩ := hgranted hl
    have hlater := login_of_run (Machine.runFrom_append_ok.mpr ⟨S, hrun, hrun'⟩) id c' hc'
    have hstay : loginAfter (linesOf id (events ++ events')) = .granted user h := by
      rw [loginAfter] at hstate
      rw [linesOf_append, loginAfter, List.map_append, List.foldl_append, hstate,
        foldl_next_granted]
    rw [hstay] at hlater
    exact ⟨hlater.1, by rw [hlater.2, huser]⟩

/-- A client that logs in and changes directory. -/
theorem loggedIn_iff_trace_anonymous : ∃ S c,
    (sessions smallSetup).run (oneClient ["USER anonymous\r", "PASS\r", "CWD pub\r"]) = .ok S ∧
      S.conns 0 = some c ∧ (c.loggedIn = true ↔ LetIn (linesOf 0
        (oneClient ["USER anonymous\r", "PASS\r", "CWD pub\r"]))) :=
  ⟨_, _, rfl, rfl, (loggedIn_iff_trace smallSetup _ _ rfl 0 _ rfl).1⟩

end MyFtp.Server
