import MyFtp.Server.Stops

/-!
# Directories that are gone

`DELE` removes empty directories, the one a client is in among them. The records
keep their paths, and a `chdir` to such a path fails without anybody noticing;
but a process that stands in the removed directory still finds `.` in it, and
`getcwd` gives a null pointer there.

> `lost_iff_of_run`: a run ends at a null pointer exactly when some line uses a
> directory that is gone. Until then every record has a directory.
-/

namespace MyFtp.Server

open MyFtp.Posix
open Prog

/-! ## Children -/

/-- What a child of the client `id` takes for granted. -/
structure Child.Ready (id : ConnId) (child : Child) : Prop where
  control : child.desc child.connection.clientSockfd = some (.control id)
  directory : ∃ W, child.connection.workingDirectory = some W
  data : ∃ d, child.connection.dataSocket = some d
  file : child.body ≠ .executeLsCommand → ∃ path, child.command.argv.head? = some path

/-- A child with the record `c`; `gone` tells whether its client is. -/
def InChild (c : Connection) (gone : Bool) (s : Ctx) : Prop :=
  s.conn = c ∧ s.os.kills c.clientSockfd = gone

/-- A part of a child stops only because somebody it writes to is gone. -/
def Defined (cans : ChildAnswers) (c : Connection) (gone : Bool) {α : Type} (p : M α) : Prop :=
  Safe (InChild c gone) (fun e => e = .sigpipe ∧ (gone = true ∨ cans.dataWrites ≠ none)) p

section

variable {server : ServerT} {cans : ChildAnswers} {command : Command} {c : Connection}
  {gone : Bool}

theorem defined_conn_bind {α : Type} {k : Connection → M α} (h : Defined cans c gone (k c)) :
    Defined cans c gone (conn >>= k) := by
  intro s hs
  rw [conn_bind_apply, hs.1]
  exact h s hs

theorem defined_deref_bind {α β : Type} {a : Option α} {x : α} {k : α → M β} (ha : a = some x)
    (h : Defined cans c gone (k x)) : Defined cans c gone (deref a >>= k) := by
  rw [ha]
  exact h

/-- A part that always returns, and leaves the record and the client alone. -/
theorem defined_of_ok {α : Type} {p : M α}
    (h : ∀ s, ∃ a s', p s = (.ok a, s') ∧ s'.conn = s.conn ∧ s'.os.desc = s.os.desc ∧
      s'.os.signals = s.os.signals ∧ s'.os.hungup = s.os.hungup) : Defined cans c gone p := by
  intro s hs
  obtain ⟨a, s', hok, hconn, hdesc, hsignals, hhungup⟩ := h s
  refine ⟨fun e s₁ h => ?_, fun b s₁ h => ?_⟩
  · rw [hok] at h
    cases h
  · rw [hok] at h
    cases h
    refine ⟨hconn.trans hs.1, ?_⟩
    rw [kills_congr (congrFun hdesc _) hsignals hhungup]
    exact hs.2

theorem defined_reply (r : Reply) : Defined cans c gone (reply r) := by
  intro s hs
  refine ⟨fun e s' h => ?_, fun a s' h => ?_⟩
  · rw [reply_apply, dprintf_apply] at h
    split at h
    next hk =>
      cases h
      rw [hs.1, hs.2] at hk
      exact ⟨rfl, .inl hk⟩
    next => cases h
  · obtain ⟨-, rfl⟩ := dprintf_eq_ok h
    exact hs

theorem defined_answer {α : Type} (r : Reply) (a : α) :
    Defined cans c gone (do reply r; return a : M α) :=
  (defined_reply r).bind fun _ => safe_pure a

theorem defined_chdir (path : CStr) : Defined cans c gone (chdir path) :=
  defined_of_ok fun s => ⟨_, _, chdir_apply path s, rfl, rfl, rfl, rfl⟩

theorem defined_dataDprintf (hd : ∃ d, c.dataSocket = some d) (item : DataItem) :
    Defined cans c gone (dataDprintf cans item) := by
  obtain ⟨d, hd⟩ := hd
  refine defined_conn_bind (defined_deref_bind hd ?_)
  split
  next => exact safe_pure _
  next =>
    intro s hs
    dsimp only
    cases hw : cans.dataWrites with
    | none =>
      refine ⟨fun e s' h => (by cases h), fun a s' h => ?_⟩
      cases h
      exact hs
    | some n =>
      split
      next =>
        refine ⟨fun e s' h => ?_, fun a s' h => (by cases h)⟩
        cases h
        exact ⟨rfl, .inr (by simp)⟩
      next =>
        refine ⟨fun e s' h => (by cases h), fun a s' h => ?_⟩
        cases h
        exact hs

theorem defined_sendChunks (hd : ∃ d, c.dataSocket = some d) (l : List (List Byte)) :
    Defined cans c gone (sendChunks cans l) := by
  induction l with
  | nil => exact safe_pure _
  | cons chunk rest ih => exact (defined_dataDprintf hd _).bind fun _ => ih

theorem defined_ls (hW : ∃ W, c.workingDirectory = some W) (hd : ∃ d, c.dataSocket = some d) :
    Defined cans c gone (executeLsCommand server cans command) := by
  obtain ⟨W, hW⟩ := hW
  have hgoto : Defined cans c gone (gotoPath command) :=
    defined_conn_bind (defined_deref_bind hW ((defined_chdir _).bind fun _ =>
      (defined_chdir _).bind fun _ => prop_ite (fun _ => defined_answer _ _) fun _ => safe_pure _))
  have hlist : Defined cans c gone (listDirectory cans) :=
    prop_ite (fun _ => defined_answer _ _) fun _ => (defined_reply _).bind fun _ =>
      (safe_gets _).bind fun _ => (defined_dataDprintf hd _).bind fun _ => safe_pure _
  exact hgoto.bind fun _ => prop_ite (fun _ => safe_pure _) fun _ => hlist.bind fun _ =>
    prop_ite (fun _ => safe_pure _) fun _ => (defined_chdir _).bind fun _ => defined_answer _ _

theorem defined_retr (hW : ∃ W, c.workingDirectory = some W) (hd : ∃ d, c.dataSocket = some d)
    (hpath : ∃ path, command.argv.head? = some path) :
    Defined cans c gone (executeRetrCommand server cans command) := by
  obtain ⟨W, hW⟩ := hW
  obtain ⟨path, hpath⟩ := hpath
  refine (defined_reply _).bind fun _ => defined_conn_bind (defined_deref_bind hW
    ((defined_chdir _).bind fun _ => defined_deref_bind hpath ((safe_gets _).bind fun fp =>
      (defined_chdir _).bind fun _ => ?_)))
  split
  next => exact defined_answer _ _
  next => exact defined_answer _ _
  next => exact (defined_sendChunks hd _).bind fun _ => defined_answer _ _

theorem defined_stor (hpath : ∃ path, command.argv.head? = some path) :
    Defined cans c gone (executeStorCommand cans command) := by
  obtain ⟨path, hpath⟩ := hpath
  have hopen : Defined cans c gone (fopenWrite path) := by
    refine defined_of_ok fun s => ?_
    unfold fopenWrite
    split
    next => exact ⟨_, _, rfl, rfl, rfl, rfl, rfl⟩
    next => exact ⟨_, _, rfl, rfl, rfl, rfl, rfl⟩
  have hwrite : ∀ target content, Defined cans c gone (fwriteAll target content) :=
    fun _ _ => defined_of_ok fun s => ⟨_, _, rfl, rfl, rfl, rfl, rfl⟩
  refine defined_deref_bind hpath (hopen.bind fun file => (defined_reply _).bind fun _ => ?_)
  cases file with
  | none => exact defined_answer _ _
  | some target =>
    exact (hwrite _ _).bind fun _ => (defined_reply _).bind fun _ =>
      prop_ite (fun _ => (hwrite _ _).bind fun _ => safe_pure _) fun _ => safe_pure _

/-- A child that is ready uses no null pointer. -/
theorem Child.Ready.defined {id : ConnId} {child : Child} (h : child.Ready id) (gone : Bool) :
    Defined cans child.connection gone (child.body.run server cans child.command) := by
  cases hbody : child.body with
  | executeLsCommand => exact defined_ls h.directory h.data
  | executeRetrCommand => exact defined_retr h.directory h.data (h.file (by simp [hbody]))
  | executeStorCommand => exact defined_stor (h.file (by simp [hbody]))

end

/-- What the tests let through has the argument it needs. -/
theorem transferOf_argument {server : ServerT} {s : Ctx} {command : Command} {body : TransferBody}
    (h : transferOf server s command = some body) (hbody : body ≠ .executeLsCommand) :
    ∃ path, command.argv.head? = some path := by
  refine head?_of_argc (by_contra fun hargc => ?_)
  unfold transferOf at h
  obtain ⟨body', -, h⟩ := Option.bind_eq_some_iff.mp h
  obtain ⟨W, -, h⟩ := Option.bind_eq_some_iff.mp h
  split at h
  next htests =>
    obtain rfl := Option.some.inj h
    unfold transferTests at htests
    split at htests
    next => cases htests
    next =>
      split at htests
      next => cases htests
      next =>
        cases body' with
        | executeLsCommand => exact hbody rfl
        | executeRetrCommand =>
          dsimp only at htests
          cases htests
        | executeStorCommand =>
          dsimp only at htests
          cases htests
  next => cases h

/-- Every child is ready. -/
theorem ready_of_run {u : Setup} {events : List SessionEvent} {S : Sessions}
    (h : (sessions u).run events = .ok S) :
    ∀ id child, (id, child) ∈ S.world.children → child.Ready id := by
  refine Machine.run_induction (m := sessions u)
    (I := fun _ S => ∀ id child, (id, child) ∈ S.world.children → child.Ready id) ?_ ?_ events S h
  · intro id child hmem
    cases hmem
  intro events S e S' hrun hI hstep id child hmem
  rcases child_cases hrun hstep hmem with hold |
    ⟨line, ans, c, command, body, cwd, d, d₁, desc₁, -, hc, -, hbody, hd, hreach, rfl⟩
  · exact hI id child hold
  · obtain ⟨hspeaks, hW⟩ := speaks_of_run hrun hc
    refine ⟨?_, hW, ⟨d₁, rfl⟩, transferOf_argument hbody⟩
    exact (hreach.desc_of_control hspeaks hd).trans hspeaks.owns.control

/-! ## Every run -/

/-- The directory a line takes over or looks at is still there. -/
def FindsDirectory (S : Sessions) : SessionEvent → Prop
  | .line id line _ => ∀ c ∈ S.conns id, ∀ W ∈ c.workingDirectory, ∀ command ∈ commandOf line,
      command.FindsDirectory (Ctx.start S.world.os c) W
  | _ => True

instance (S : Sessions) : ∀ e, Decidable (FindsDirectory S e)
  | .line id .. => inferInstanceAs (Decidable (∀ c ∈ S.conns id, _))
  | .accept .. | .child .. | .hangup _ | .dataConnect _ => .isTrue trivial

/-- The parsing of the line is defined. -/
def Parses : SessionEvent → Prop
  | .line _ line _ => ∃ parsed, parseBuffer line = .ok parsed
  | _ => True

section

variable {u : Setup} {events : List SessionEvent} {S : Sessions} {id : ConnId} {c : Connection}
  {line : CStr} {ans : Answers} {parsed : Option Command}

/-- Where the handling of a line stops in a reachable state. -/
theorem line_stops {e : Halt} (hrun : (sessions u).run events = .ok S) (hc : S.conns id = some c)
    (hparse : parseBuffer line = .ok parsed) (hfinds : FindsDirectory S (.line id line ans))
    (h : S.step u.server (.line id line ans) = .error e) :
    Stopped ans (Ctx.start S.world.os c) e := by
  obtain ⟨hspeaks, W, hW⟩ := speaks_of_run hrun hc
  by_cases hquit : ∃ command, parsed = some command ∧ command.word = lit "QUIT"
  · obtain ⟨command, rfl, hword⟩ := hquit
    have hline : S.step u.server (.line id line ans) = _ := handleLine_quit hc hparse hword
    rw [h] at hline
    split at hline
    next hk =>
      cases hline
      exact .gone hk
    next => cases hline
  · have hline : S.step u.server (.line id line ans) = _ :=
      handleLine_of_executeCommand hc hparse fun command hp hw => hquit ⟨command, hp, hw⟩
    have hstops : Stops (Stopped ans (Ctx.start S.world.os c))
        (executeCommand u.server ans parsed) (Ctx.start S.world.os c) := by
      refine executeCommand_stops hspeaks hW fun command hp => ?_
      rw [← commandOf_of_parse hparse] at hp
      exact hfinds c hc W hW command hp
    rw [h] at hline
    split at hline
    next => cases hline
    next e' s hx =>
      cases hline
      exact hstops e s hx

/-- Greeting a client uses no pointer at all. -/
theorem stops_greet (fd : Fd) (s : Ctx) : Stops (· ≠ .undefined) (greet fd id) s := by
  refine Stops.bind (fun e s₁ h => ?_) fun _ s₁ _ => fun e s₂ h => ?_
  · unfold newDesc at h
    split at h
    next => cases h
    next =>
      cases h
      simp
  · rw [dprintf_apply] at h
    split at h
    next =>
      cases h
      simp
    next => cases h

/-- What is not a line uses no null pointer. -/
theorem step_defined {e : SessionEvent} (he : ∀ id line ans, e ≠ .line id line ans) :
    S.step u.server e ≠ .error .undefined := by
  intro h
  cases e with
  | line id line ans => exact he id line ans rfl
  | accept fd addr served =>
    have hacc : S.world.accept u.server fd addr = .error .undefined := map_eq_error h
    unfold World.accept at hacc
    split at hacc
    next => cases hacc
    next e' hexec =>
      cases hacc
      unfold World.exec at hexec
      split at hexec
      next => cases hexec
      next e' s₁ hgreet =>
        cases hexec
        exact stops_greet fd _ _ s₁ hgreet rfl
  | child k cans =>
    have hchild : S.world.runChild u.server k cans = .error .undefined := map_eq_error h
    unfold World.runChild at hchild
    split at hchild
    next => cases hchild
    next => cases hchild
  | hangup id => cases h
  | dataConnect fd =>
    have hdata : S.world.dataConnect fd = .error .undefined := map_eq_error h
    unfold World.dataConnect at hdata
    split at hdata
    next => cases hdata
    next => cases hdata

/-- A line runs into a null pointer exactly when it uses a directory that is gone. -/
theorem step_undefined_iff {e : SessionEvent} (hrun : (sessions u).run events = .ok S)
    (he : Parses e) : S.step u.server e = .error .undefined ↔ ¬ FindsDirectory S e := by
  cases e with
  | line id line ans =>
    obtain ⟨parsed, hparse⟩ := he
    constructor
    · intro h hfinds
      cases hc : S.conns id with
      | none =>
        have hline : S.step u.server (.line id line ans) = .error .disabled := by
          show S.handleLine u.server id line ans = _
          unfold Sessions.handleLine
          rw [hc]
        rw [h] at hline
        cases hline
      | some c => cases line_stops hrun hc hparse hfinds h
    · intro hlost
      unfold FindsDirectory at hlost
      push Not at hlost
      obtain ⟨c, hc, W, hW, command, hcommand, hlost⟩ := hlost
      rw [commandOf_of_parse hparse] at hcommand
      obtain rfl : parsed = some command := hcommand
      have hx : ∃ s₁, executeCommand u.server ans (some command) (Ctx.start S.world.os c) =
          (.error .undefined, s₁) := executeCommand_lost hW hlost
      obtain ⟨s₁, hx⟩ := hx
      have hline : S.step u.server (.line id line ans) = _ :=
        handleLine_of_executeCommand hc hparse fun command' hp hw => by
          cases hp
          rw [executeCommand_of_mem (by rw [hw]; exact List.mem_of_getElem? (i := 4) rfl)] at hx
          cases hx
      rw [hline, hx]
  | accept => exact ⟨fun h => absurd h (step_defined (by simp)), fun h => absurd trivial h⟩
  | child => exact ⟨fun h => absurd h (step_defined (by simp)), fun h => absurd trivial h⟩
  | hangup => exact ⟨fun h => absurd h (step_defined (by simp)), fun h => absurd trivial h⟩
  | dataConnect => exact ⟨fun h => absurd h (step_defined (by simp)), fun h => absurd trivial h⟩

end

/-- **When a null pointer is used.** A run ends at one exactly when some line in it uses
a directory that is gone; in the states before, every record has a directory, and no
child ever uses one. -/
theorem lost_iff_of_run (u : Setup) (events : List SessionEvent) (hparse : ∀ e ∈ events, Parses e) :
    ((sessions u).run events = .error .undefined ↔ ¬ (sessions u).Meets FindsDirectory events) ∧
      ∀ S, (sessions u).run events = .ok S →
        (∀ id c, S.conns id = some c →
          ∃ W, c.workingDirectory = some W ∧ (pathStr W).head? = some slash) ∧
        ∀ id child, (id, child) ∈ S.world.children → ∀ cans os,
          (child.body.run u.server cans child.command (Ctx.start os child.connection)).1 ≠
            .error .undefined := by
  refine ⟨?_, fun S hrun => ⟨fun id c hc => ?_, fun id child hmem cans os h => ?_⟩⟩
  · refine Machine.runFrom_eq_error_iff (m := sessions u) (P := Parses) ?_ events _ ⟨[], rfl⟩ hparse
    rintro S e ⟨l, hl⟩ he
    exact step_undefined_iff hl he
  · obtain ⟨-, W, hW⟩ := speaks_of_run hrun hc
    exact ⟨W, hW, head?_pathStr W⟩
  · have hdefined : Defined cans child.connection (os.kills child.connection.clientSockfd)
        (child.body.run u.server cans child.command) := (ready_of_run hrun id child hmem).defined _
    obtain ⟨hsigpipe, -⟩ :=
      (hdefined (Ctx.start os child.connection) ⟨rfl, rfl⟩).1 .undefined _ (Prod.ext h rfl)
    cases hsigpipe

/-- A client removes the directory it is in, and enters it. -/
theorem undefined_after_dele :
    (∀ e ∈ oneClient ["USER anonymous", "PASS", "CWD pub", "DELE ../pub", "CWD ."], Parses e) ∧
      (sessions smallSetup).run
        (oneClient ["USER anonymous", "PASS", "CWD pub", "DELE ../pub", "CWD ."]) =
          .error .undefined := by
  refine ⟨?_, rfl⟩
  intro e he
  simp only [oneClient, List.map_cons, List.map_nil, List.mem_cons, List.not_mem_nil,
    or_false] at he
  rcases he with rfl | rfl | rfl | rfl | rfl | rfl
  · trivial
  all_goals exact ⟨_, rfl⟩

/-- A client that is in a directory nobody removes. -/
theorem finds_pub :
    ((sessions smallSetup).run (oneClient ["USER anonymous", "PASS", "CWD pub"]) =
        .error .undefined ↔
      ¬ (sessions smallSetup).Meets FindsDirectory
        (oneClient ["USER anonymous", "PASS", "CWD pub"])) := by
  refine (lost_iff_of_run smallSetup (oneClient ["USER anonymous", "PASS", "CWD pub"]) ?_).1
  intro e he
  simp only [oneClient, List.map_cons, List.map_nil, List.mem_cons, List.not_mem_nil,
    or_false] at he
  rcases he with rfl | rfl | rfl | rfl
  · trivial
  all_goals exact ⟨_, rfl⟩

end MyFtp.Server
