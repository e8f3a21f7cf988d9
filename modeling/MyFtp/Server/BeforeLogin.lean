import MyFtp.Server.Descriptors
import MyFtp.Server.Login

/-!
# Before the login

There is no gate in front of the handlers: each of them makes its own login
test, before it does anything else. Going through the table shows what the
tests add up to.

> `logs_before_login`: until a client is logged in, none of its commands does more
> than `USER` and `PASS` do.

> `nothing_before_login`: so what it sends changes nothing but its own user, and a
> run can be repeated without it, with the same files and the same replies to
> everyone else.
-/

namespace MyFtp.Server

open MyFtp.Posix
open Prog

/-! ## One line -/

/-- The three words that work before the login. -/
def openWords : List CStr := [lit "USER", lit "PASS", lit "QUIT"]

/-- Every other line gets one reply, and nothing else happens. -/
theorem executeCommand_before_login {server : ServerT} {ans : Answers} {parsed : Option Command}
    {s : Ctx} (hl : s.conn.loggedIn = false)
    (hw : ∀ command, parsed = some command → command.word ∉ openWords) :
    ∃ status, status ≠ .quit ∧
      executeCommand server ans parsed s =
        (do reply .pleaseLogin; return status : M CommandStatus) s := by
  have hunknown : executeCommand server ans none s =
      (do reply .pleaseLogin; return .notFound : M CommandStatus) s := by
    show (do notFoundMessage; return .notFound : M CommandStatus) s = _
    rw [notFoundMessage, bind_apply, conn_bind_apply, hl]
    rfl
  -- the test each handler begins with fails
  have htest : ∀ p : Connection → M CommandStatus, (do
      let c ← conn
      if c.loggedIn = false then refuse .pleaseLogin else p c) s =
        (do reply .pleaseLogin; return .failure : M CommandStatus) s := by
    intro p
    rw [conn_bind_apply, if_pos hl]
    rfl
  cases parsed with
  | none => exact ⟨.notFound, by simp, hunknown⟩
  | some command =>
    cases hh : getCommandHandler command with
    | none => exact ⟨.notFound, by simp, by rw [executeCommand_of_none hh, hunknown]⟩
    | some handler =>
      have hword := hw command rfl
      have hmem := getCommandHandler_mem hh
      refine ⟨.failure, by simp, ?_⟩
      rw [executeCommand_of_mem hmem]
      simp only [commandHandlers, List.mem_cons, Prod.mk.injEq, List.not_mem_nil, or_false] at hmem
      rcases hmem with h | h | h | h | h | h | h | h | h | h | h | h | h | h | h <;>
        obtain ⟨hname, rfl⟩ := h
      · exact absurd (by rw [hname]; decide) hword
      · exact absurd (by rw [hname]; decide) hword
      · exact htest _
      · exact htest _
      · exact absurd (by rw [hname]; decide) hword
      all_goals exact htest _

/-- Until a client is logged in, its commands do no more than `USER` and
`PASS`. -/
theorem logs_before_login {server : ServerT} {ans : Answers} {parsed : Option Command}
    {s s' : Ctx} {status : CommandStatus} (hl : s.conn.loggedIn = false)
    (h : executeCommand server ans parsed s = (.ok status, s')) : Logs s s' := by
  by_cases hopen : ∃ command, parsed = some command ∧ command.word ∈ openWords
  · obtain ⟨command, rfl, hword⟩ := hopen
    simp only [openWords, List.mem_cons, List.not_mem_nil, or_false] at hword
    by_cases hq : command.word = lit "QUIT"
    · rw [executeCommand_of_mem (by rw [hq]; exact List.mem_of_getElem? (i := 4) rfl)] at h
      rw [← (Prod.mk.inj h).2]
      exact Std.Refl.refl s
    · have hlogs : Logs s (executeCommand server ans (some command) s).2 :=
        executeCommand_logs (by tauto) s
      rwa [h] at hlogs
  · obtain ⟨status', -, hx⟩ := @executeCommand_before_login server ans parsed s hl
      fun command hc hword => hopen ⟨command, hc, hword⟩
    have hlogs : Logs s ((do reply .pleaseLogin; return status' : M CommandStatus) s).2 :=
      ((logs_reply _).bind fun _ => keeps_pure status') s
    rwa [← hx, h] at hlogs

/-- A client that is not logged in has no data socket: only a logged-in client
can ask for one, and nobody is ever logged out. -/
theorem no_dataSocket_before_login {u : Setup} {events : List SessionEvent} {S : Sessions}
    (h : (sessions u).run events = .ok S) :
    ∀ id c, S.conns id = some c → c.loggedIn = false → c.dataSocket = none := by
  refine (Machine.run_invariant (m := sessions u)
    (I := fun events S => (sessions u).run events = .ok S ∧
      ∀ id c, S.conns id = some c → c.loggedIn = false → c.dataSocket = none)
    ⟨rfl, fun _ _ hc => by cases hc⟩ ?_ events S h).2
  rintro events S e S' ⟨hrun, hI⟩ hstep
  refine ⟨Machine.runFrom_append_ok.mpr ⟨S, hrun, Machine.runFrom_cons_of_step hstep []⟩, ?_⟩
  intro id c hc hl
  rcases record_cases hstep hc with ⟨hc', -⟩ | ⟨-, fd, addr, -, rfl⟩ |
    ⟨line, ans, c₀, parsed, status, s, rfl, hc₀, hparse, hx, rfl, -⟩
  · exact hI id c hc' hl
  · rfl
  · have hl₀ : c₀.loggedIn = false := by
      have hlogin := login_of_run hrun id c₀ hc₀
      have hafter := executeCommand_hasLogin hparse hx hlogin
      match hstate : loginAfter (linesOf id events) with
      | .nobody => rw [hstate] at hlogin; exact hlogin.1
      | .named user => rw [hstate] at hlogin; exact hlogin.1
      | .granted user hp =>
        rw [hstate] at hafter
        rw [hafter.1] at hl
        cases hl
    have hlogs := logs_before_login hl₀ hx
    rw [hlogs.conn]
    exact hI id c₀ hc₀ hl₀

/-- What a line of a client that is not logged in leaves as it was, and what it
is answered. -/
structure Untouched (id : ConnId) (c : Connection) (line : CStr) (S S' : Sessions) : Prop where
  tree : S'.world.os.tree = S.world.os.tree
  cwd : S'.world.os.cwd = S.world.os.cwd
  children : S'.world.children = S.world.children
  data : S'.world.data = S.world.data
  dataSockets : ∀ fd d, d.isData = true →
    (S'.world.os.desc fd = some d ↔ S.world.os.desc fd = some d)
  others : ∀ id', id' ≠ id → S'.conns id' = S.conns id'
  leaves : HasWord (lit "QUIT") line → S'.conns id = none
  stays : ¬ HasWord (lit "QUIT") line → ∃ c', S'.conns id = some c' ∧
    c'.workingDirectory = c.workingDirectory ∧ c'.dataSocket = c.dataSocket ∧
      c'.transferMode = c.transferMode
  answer : (∀ word ∈ openWords, ¬ HasWord word line) →
    ∃ r, r.code = some 530 ∧ S'.world.sent = S.world.sent ++ [(id, r)]

/-- **Nothing happens before the login**, line by line. -/
theorem untouched_before_login {u : Setup} {events : List SessionEvent} {S S' : Sessions}
    (hrun : (sessions u).run events = .ok S) {id : ConnId} {c : Connection} {line : CStr}
    {ans : Answers} (hc : S.conns id = some c) (hl : c.loggedIn = false)
    (h : (sessions u).step S (.line id line ans) = .ok S') : Untouched id c line S S' := by
  have hS := sound_of_run hrun
  have hother : ∀ r id', id' ≠ id → (S.handled id r).conns id' = S.conns id' :=
    fun r id' hid => Function.update_of_ne hid ..
  obtain ⟨c₀, parsed, hc₀, hparse, ⟨status, s, hx, hq, rfl⟩ | ⟨command, rfl, hword, rfl⟩⟩ :=
    handleLine_eq_ok h
  · obtain rfl : c = c₀ := Option.some.inj (hc.symm.trans hc₀)
    have hlogs : Logs (Ctx.start S.world.os c) s := logs_before_login hl hx
    have hnotquit : ¬ HasWord (lit "QUIT") line := by
      rintro ⟨command, hcom, hword⟩
      rw [commandOf_of_parse hparse] at hcom
      subst hcom
      rw [executeCommand_of_mem (by rw [hword]; exact List.mem_of_getElem? (i := 4) rfl)] at hx
      exact hq (Except.ok.inj (Prod.mk.inj hx).1).symm
    have hos : s.os = S.world.os := hlogs.os
    refine ⟨congrArg Os.tree hos, congrArg Os.cwd hos, ?_, ?_, fun fd d _ => ?_, hother _,
      fun hw => absurd hw hnotquit, fun _ => ⟨s.conn, ?_, ?_⟩, fun hopen => ?_⟩
    · show S.world.children ++ s.forked.map (id, ·) = S.world.children
      rw [hlogs.forked]
      exact List.append_nil _
    · show S.world.data ++ s.data.map (id, ·) = S.world.data
      rw [hlogs.data]
      exact List.append_nil _
    · show s.os.desc fd = some d ↔ _
      rw [hos]
    · simp [Sessions.handled]
    · rw [hlogs.conn]
      exact ⟨rfl, rfl, rfl⟩
    · obtain ⟨status', -, hx'⟩ := @executeCommand_before_login u.server ans parsed
        (Ctx.start S.world.os c) hl fun command hcom hword =>
          hopen _ hword ⟨command, by rw [commandOf_of_parse hparse, hcom], rfl⟩
      rw [hx'] at hx
      have hkills : S.world.os.kills c.clientSockfd = false := by
        rw [reply_bind_apply, dprintf_bind_apply] at hx
        split at hx
        next => simp at hx
        next hk => simpa [Ctx.start] using hk
      refine ⟨.pleaseLogin, by decide, ?_⟩
      show S.world.sent ++ s.out = _
      rw [(answer_eq_ok hx).2]
      have hdel := (delivered (hS.owns id c hc).control hS.sigpipe hkills .pleaseLogin).1
      simp [Ctx.start, hdel]
  · obtain rfl : c = c₀ := Option.some.inj (hc.symm.trans hc₀)
    have hhas : HasWord (lit "QUIT") line := ⟨command, commandOf_of_parse hparse, hword⟩
    refine ⟨rfl, rfl, List.append_nil _, List.append_nil _, fun fd d hd =>
      ?_, hother _, fun _ => ?_,
      fun hn => absurd hhas hn, fun hopen => absurd hhas (hopen _ (by decide))⟩
    · have hno : c.dataSocket = none := no_dataSocket_before_login hrun id c hc hl
      show c.tornDown S.world.os.desc fd = some d ↔ _
      by_cases hfd : fd = c.clientSockfd
      · rw [hfd, (hS.owns id c hc).control, Connection.tornDown, Function.update_self]
        constructor
        · intro he
          cases he
        · intro he
          rw [← Option.some.inj he] at hd
          cases hd
      · rw [tornDown_of_ne hfd (by rw [mem_dataFds, hno]; simp)]
    · simp [Sessions.handled]

/-! ## Whole runs -/

/-- The line is `QUIT`. -/
def isQuit (line : CStr) : Bool := (commandOf line).any (·.word == lit "QUIT")

theorem isQuit_iff {line : CStr} : isQuit line = true ↔ HasWord (lit "QUIT") line := by
  rw [isQuit, HasWord]
  cases commandOf line with
  | none => simp
  | some command => simp

/-- Everything but the lines of the client `a` other than `QUIT`. -/
def kept (a : ConnId) : SessionEvent → Bool
  | .line id line _ => id != a || isQuit line
  | _ => true

/-- The events without the lines of the client `a` other than `QUIT`. -/
def silence (a : ConnId) (events : List SessionEvent) : List SessionEvent := events.filter (kept a)

/-- In no state on the way the client `a` is logged in. -/
def NeverLogsIn (u : Setup) (a : ConnId) (events : List SessionEvent) : Prop :=
  ∀ l₁ l₂ S, events = l₁ ++ l₂ → (sessions u).run l₁ = .ok S →
    ∀ c, S.conns a = some c → c.loggedIn = false

/-- Two worlds that only the client `a` could tell apart. -/
structure Alike (a : ConnId) (w v : World) : Prop where
  os : v.os = w.os
  nextId : v.nextId = w.nextId
  children : v.children = w.children
  data : v.data = w.data
  replies : ∀ id, id ≠ a → v.repliesTo id = w.repliesTo id

/-- Two states that only the client `a` could tell apart, and that by its login
alone. -/
structure SameButFor (a : ConnId) (S T : Sessions) : Prop where
  world : Alike a S.world T.world
  others : ∀ id, id ≠ a → T.conns id = S.conns id
  own : (S.conns a = none ∧ T.conns a = none) ∨ ∃ c c', S.conns a = some c ∧ T.conns a = some c' ∧
    c' = { c with loggedIn := c'.loggedIn, user := c'.user }

theorem Alike.merge {a : ConnId} {w v : World} (h : Alike a w v) (id : ConnId) (s : Ctx) :
    Alike a (w.merge id s) (v.merge id s) := by
  refine ⟨rfl, h.nextId, by simp only [World.merge, h.children], by simp only [World.merge, h.data],
    fun id' hid => ?_⟩
  have := h.replies id' hid
  simp only [World.repliesTo, World.merge, List.filter_append, List.map_append] at this ⊢
  rw [this]

theorem Alike.exec {a id : ConnId} {w v w' : World} (h : Alike a w v) {c c' : Connection}
    {α : Type} {p : M α} {x : α} (hx : w.exec id c p = .ok (x, c', w')) :
    ∃ v', v.exec id c p = .ok (x, c', v') ∧ Alike a w' v' := by
  obtain ⟨s, hp, rfl, rfl⟩ := World.exec_eq_ok hx
  exact ⟨v.merge id s, World.exec_of_ok (by rw [h.os, hp]), h.merge id s⟩

theorem Alike.accept {a : ConnId} {w v w' : World} (h : Alike a w v) {server : ServerT} {fd : Fd}
    {addr : SockAddr} {c : Connection} (hacc : w.accept server fd addr = .ok (c, w')) :
    ∃ v', v.accept server fd addr = .ok (c, v') ∧ Alike a w' v' := by
  rw [World.accept] at hacc
  split at hacc
  next x c' w₁ hexec =>
    obtain ⟨v₁, hv, hal⟩ := h.exec hexec
    simp only [Except.ok.injEq, Prod.mk.injEq] at hacc
    obtain ⟨rfl, rfl⟩ := hacc
    refine ⟨{ v₁ with nextId := v.nextId + 1 }, ?_,
      ⟨hal.os, ?_, hal.children, hal.data, hal.replies⟩⟩
    · rw [World.accept, h.nextId, hv]
    · show v.nextId + 1 = w.nextId + 1
      rw [h.nextId]
  next => cases hacc

theorem Alike.runChild {a : ConnId} {w v w' : World} (h : Alike a w v) {server : ServerT} {k : Nat}
    {cans : ChildAnswers} (hrun : w.runChild server k cans = .ok w') :
    ∃ v', v.runChild server k cans = .ok v' ∧ Alike a w' v' := by
  obtain ⟨id, child, s, hk, rfl, rfl⟩ := World.runChild_eq_ok hrun
  rw [World.runChild, h.children, hk, h.os]
  refine ⟨_, rfl, ⟨rfl, h.nextId, rfl, by rw [h.data], fun id' hid => ?_⟩⟩
  have := h.replies id' hid
  simp only [World.repliesTo, List.filter_append, List.map_append] at this ⊢
  rw [this]

theorem Alike.hangup {a : ConnId} {w v : World} (h : Alike a w v) (id : ConnId) :
    Alike a (w.hangup id) (v.hangup id) :=
  ⟨by simp only [World.hangup, h.os], h.nextId, h.children, h.data, h.replies⟩

theorem Alike.dataConnect {a : ConnId} {w v w' : World} (h : Alike a w v) {fd : Fd}
    (hw : w.dataConnect fd = .ok w') : ∃ v', v.dataConnect fd = .ok v' ∧ Alike a w' v' := by
  obtain ⟨pending, hfd, rfl⟩ := World.dataConnect_eq_ok hw
  rw [World.dataConnect, h.os, hfd]
  exact ⟨_, rfl, ⟨rfl, h.nextId, h.children, h.data, h.replies⟩⟩

theorem SameButFor.conns_update {a : ConnId} {S T : Sessions} (h : SameButFor a S T) {w v : World}
    (hal : Alike a w v) (id : ConnId) (r : Option Connection) :
    SameButFor a ⟨w, Function.update S.conns id r⟩ ⟨v, Function.update T.conns id r⟩ := by
  refine ⟨hal, fun id' hid => ?_, ?_⟩
  · dsimp only
    by_cases he : id' = id
    · rw [he, Function.update_self, Function.update_self]
    · rw [Function.update_of_ne he, Function.update_of_ne he, h.others id' hid]
  · dsimp only
    by_cases he : a = id
    · rw [he, Function.update_self, Function.update_self]
      cases r with
      | none => exact .inl ⟨rfl, rfl⟩
      | some c => exact .inr ⟨c, c, rfl, rfl, rfl⟩
    · rw [Function.update_of_ne he, Function.update_of_ne he]
      exact h.own

/-- An event that is kept happens just so in the state without the others. -/
theorem SameButFor.keep {u : Setup} {a : ConnId} {S T S' : Sessions} {e : SessionEvent}
    (h : SameButFor a S T) (hstep : S.step u.server e = .ok S') (he : kept a e = true) :
    ∃ T', T.step u.server e = .ok T' ∧ SameButFor a S' T' := by
  cases e with
  | accept fd addr served =>
    obtain ⟨⟨c, w⟩, hacc, rfl⟩ := map_eq_ok hstep
    obtain ⟨v, hv, hal⟩ := h.world.accept hacc
    refine ⟨_, by rw [Sessions.step, hv]; rfl, ?_⟩
    dsimp only
    rw [h.world.nextId]
    split
    next => exact h.conns_update hal _ _
    next => exact ⟨hal, h.others, h.own⟩
  | line id line ans =>
    by_cases hid : id = a
    · subst hid
      have hquit : HasWord (lit "QUIT") line := isQuit_iff.mp (by simpa [kept] using he)
      obtain ⟨command, hcom, hword⟩ := hquit
      obtain ⟨c, parsed, hc, hparse, -⟩ := handleLine_eq_ok hstep
      obtain rfl : parsed = some command := by rw [← commandOf_of_parse hparse, hcom]
      rcases h.own with ⟨hn, -⟩ | ⟨c₀, c', hc₀, hc', hsame⟩
      · rw [hc] at hn
        cases hn
      · obtain rfl : c = c₀ := Option.some.inj (hc.symm.trans hc₀)
        rw [Sessions.step, handleLine_quit hc hparse hword] at hstep
        rw [Sessions.step, handleLine_quit hc' hparse hword]
        have hctl : c'.clientSockfd = c.clientSockfd := by rw [hsame]
        have htorn : c'.tornDown T.world.os.desc = c.tornDown S.world.os.desc := by
          rw [hsame, h.world.os]
          rfl
        rw [h.world.os, hctl]
        split at hstep
        next => cases hstep
        next hk =>
          rw [if_neg hk]
          refine ⟨_, rfl, ?_⟩
          obtain rfl := Except.ok.inj hstep
          have hbye : (Ctx.start S.world.os c').goodbye.os = (Ctx.start S.world.os c).goodbye.os ∧
              (Ctx.start S.world.os c').goodbye.out = (Ctx.start S.world.os c).goodbye.out := by
            rw [hsame]
            exact ⟨rfl, rfl⟩
          have hmerge : T.world.merge id (Ctx.start S.world.os c').goodbye =
              T.world.merge id (Ctx.start S.world.os c).goodbye := by
            simp only [World.merge, hbye]
            rfl
          rw [Sessions.handled, Sessions.handled, hmerge]
          exact h.conns_update (h.world.merge id _) id none
    · rw [Sessions.step, Sessions.handleLine, h.others id hid]
      rw [Sessions.step, Sessions.handleLine] at hstep
      split at hstep
      next => cases hstep
      next c hc =>
        obtain ⟨⟨stays, c', w'⟩, hexec, rfl⟩ := map_eq_ok hstep
        obtain ⟨v', hv, hal⟩ := h.world.exec hexec
        refine ⟨_, by rw [hv]; rfl, h.conns_update hal id _⟩
  | child k cans =>
    obtain ⟨w, hw, rfl⟩ := map_eq_ok hstep
    obtain ⟨v, hv, hal⟩ := h.world.runChild hw
    exact ⟨⟨v, T.conns⟩, by rw [Sessions.step, hv]; rfl, ⟨hal, h.others, h.own⟩⟩
  | hangup id =>
    obtain rfl := Except.ok.inj hstep
    exact ⟨⟨T.world.hangup id, T.conns⟩, rfl, ⟨h.world.hangup id, h.others, h.own⟩⟩
  | dataConnect fd =>
    obtain ⟨w, hw, rfl⟩ := map_eq_ok hstep
    obtain ⟨v, hv, hal⟩ := h.world.dataConnect hw
    exact ⟨⟨v, T.conns⟩, by rw [Sessions.step, hv]; rfl, ⟨hal, h.others, h.own⟩⟩

/-- A line of `a` that is left out was not missed by anybody else. -/
theorem SameButFor.drop {u : Setup} {a : ConnId} {S T S' : Sessions} {e : SessionEvent}
    (hS : Sound u S) (h : SameButFor a S T) (hl : ∀ c, S.conns a = some c → c.loggedIn = false)
    (hstep : S.step u.server e = .ok S') (he : kept a e = false) : SameButFor a S' T := by
  obtain ⟨id, line, ans, rfl⟩ : ∃ id line ans, e = .line id line ans := by
    cases e with
    | line id line ans => exact ⟨id, line, ans, rfl⟩
    | _ => simp [kept] at he
  simp only [kept, Bool.or_eq_false_iff, bne_eq_false_iff_eq] at he
  obtain ⟨rfl, hquit⟩ := he
  obtain ⟨c, parsed, hc, hparse, ⟨status, s, hx, -, rfl⟩ | ⟨command, rfl, hword, -⟩⟩ :=
    handleLine_eq_ok hstep
  · have hlogs : Logs (Ctx.start S.world.os c) s := logs_before_login (hl c hc) hx
    obtain ⟨out, hout, hto⟩ := hlogs.out id (hS.owns id c hc).control
    refine ⟨⟨?_, h.world.nextId, ?_, ?_, ?_⟩, ?_, ?_⟩
    · rw [h.world.os]
      exact hlogs.os.symm
    · show T.world.children = S.world.children ++ s.forked.map (id, ·)
      rw [hlogs.forked, h.world.children]
      exact (List.append_nil _).symm
    · show T.world.data = S.world.data ++ s.data.map (id, ·)
      rw [hlogs.data, h.world.data]
      exact (List.append_nil _).symm
    · intro id' hid
      have hnone : s.out.filter (·.1 == id') = [] := by
        rw [hout, Ctx.start, List.nil_append, List.filter_eq_nil_iff]
        intro e hmem
        rw [hto e hmem]
        simpa using fun he => hid he.symm
      show T.world.repliesTo id' = (S.world.merge id s).repliesTo id'
      simp only [World.merge, World.repliesTo, List.filter_append, hnone, List.append_nil]
      exact h.world.replies id' hid
    · intro id' hid
      rw [h.others id' hid]
      exact (Function.update_of_ne hid ..).symm
    · rcases h.own with ⟨hn, -⟩ | ⟨c₀, c', hc₀, hc', hsame⟩
      · rw [hc] at hn
        cases hn
      · obtain rfl : c = c₀ := Option.some.inj (hc.symm.trans hc₀)
        refine .inr ⟨s.conn, c', by simp [Sessions.handled], hc', ?_⟩
        rw [hsame, hlogs.conn]
        rfl
  · rw [isQuit_iff.mpr ⟨command, commandOf_of_parse hparse, hword⟩] at hquit
    cases hquit

/-- A run can be repeated without the lines of a client that never logs in. -/
theorem run_silence {u : Setup} {events : List SessionEvent} {S : Sessions}
    (hrun : (sessions u).run events = .ok S) {a : ConnId} (ha : NeverLogsIn u a events) :
    ∃ T, (sessions u).run (silence a events) = .ok T ∧ SameButFor a S T := by
  have hmeets : (sessions u).MeetsFrom
      (fun S _ => Sound u S ∧ ∀ c, S.conns a = some c → c.loggedIn = false)
      (sessions u).init events := by
    refine Machine.meetsFrom_of_passed events _ fun l₁ e l₂ S₁ hl hrun₁ => ⟨sound_of_run hrun₁, ?_⟩
    exact ha l₁ (e :: l₂) S₁ hl hrun₁
  exact Machine.runFrom_filter (S := SameButFor a)
    (fun _ _ _ _ h _ hstep he => h.keep hstep he)
    (fun _ _ _ _ h hC hstep he => SameButFor.drop hC.1 h hC.2 hstep he)
    events _ _ S
    ⟨⟨rfl, rfl, rfl, rfl, fun _ _ => rfl⟩, fun _ _ => rfl, .inl ⟨rfl, rfl⟩⟩ hmeets hrun

/-- **Nothing happens before the login.** In every reachable state, a line of a
client that is not logged in leaves everything else as it was; and a run can be
repeated without the lines, other than `QUIT`, of a client that never logs in,
with the same files, the same records and the same replies to everyone else. -/
theorem nothing_before_login (u : Setup) (events : List SessionEvent) (S : Sessions)
    (hrun : (sessions u).run events = .ok S) (a : ConnId) :
    (∀ c line ans S', S.conns a = some c → c.loggedIn = false →
      (sessions u).step S (.line a line ans) = .ok S' → Untouched a c line S S') ∧
    (NeverLogsIn u a events → ∃ T, (sessions u).run (silence a events) = .ok T ∧
      T.world.os.tree = S.world.os.tree ∧ T.world.data = S.world.data ∧
      ∀ id, id ≠ a → T.conns id = S.conns id ∧ T.world.repliesTo id = S.world.repliesTo id) := by
  refine ⟨fun c line ans S' hc hl h => untouched_before_login hrun hc hl h, fun ha => ?_⟩
  obtain ⟨T, hT, hsame⟩ := run_silence hrun ha
  exact ⟨T, hT, by rw [hsame.world.os], hsame.world.data,
    fun id hid => ⟨hsame.others id hid, hsame.world.replies id hid⟩⟩

/-- A client that asks for a listing before it logs in. -/
theorem nothing_before_login_list : ∃ S S' c,
    (sessions smallSetup).run (oneClient ["USER anonymous"]) = .ok S ∧
      (sessions smallSetup).step S (.line 0 (lit "LIST") (.fine 7)) = .ok S' ∧
        Untouched 0 c (lit "LIST") S S' :=
  ⟨_, _, _, rfl, rfl,
    (nothing_before_login smallSetup (oneClient ["USER anonymous"]) _ rfl 0).1 _ (lit "LIST")
      (.fine 7) _
      rfl rfl rfl⟩

end MyFtp.Server
