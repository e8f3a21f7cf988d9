import MyFtp.Server.LostDirectory

/-!
# One final reply for each line

A client that sends a line and waits for the end of the answer is never left
waiting, and never finds an answer that belongs to another line: whatever fails,
the line is answered once.

> `answered_once`: a line that can be handled gets one final reply from the server
> process, or it leaves a child that gives it, with at most one preliminary reply
> before. Nothing goes to other clients.
-/

namespace MyFtp.Server

open MyFtp.Posix
open Prog

/-- The new descriptors the system offers are not in use. -/
def Answers.Possible (ans : Answers) (os : Os) : Prop :=
  ∀ fd, (ans.socket = some fd ∨ ∃ peer, ans.accept = some (fd, peer)) → os.desc fd = none

/-- Between two states the client got one final reply, or a child was left that is to give
it. -/
def AnsweredOnce (id : ConnId) (S S' : Sessions) : Prop :=
  ∃ l, S'.world.sent = S.world.sent ++ l.map (id, ·) ∧
    ((OneFinal l ∧ S'.world.children = S.world.children) ∨
      (l = [] ∧ ∃ child, S'.world.children = S.world.children ++ [(id, child)]))

section

variable {u : Setup} {events : List SessionEvent} {S : Sessions} {id : ConnId} {c : Connection}
  {line : CStr} {ans : Answers} {parsed : Option Command}

/-- A line of a client that is there is handled, or waits for a data connection. -/
theorem line_handled (hrun : (sessions u).run events = .ok S) (hc : S.conns id = some c)
    (hparse : parseBuffer line = .ok parsed) (hup : S.world.os.hungup id = false)
    (hfinds : FindsDirectory S (.line id line ans)) (hans : ans.Possible S.world.os) :
    (∃ S', S.step u.server (.line id line ans) = .ok S') ∨
      (S.step u.server (.line id line ans) = .error .blocked ∧
        ∃ d l, c.dataSocket = some d ∧ d.dataSocketMode = .passive ∧ d.dataSockfd = some l ∧
          S.world.os.desc l = some (.listener 0)) := by
  cases hstep : S.step u.server (.line id line ans) with
  | ok S' => exact .inl ⟨S', rfl⟩
  | error e =>
    cases line_stops hrun hc hparse hfinds hstep with
    | gone hk =>
      have hctl := (speaks_of_run hrun hc).1.owns.control
      rw [kills_of_control hctl hup] at hk
      cases hk
    | waiting d l hd hmode hl hpending => exact .inr ⟨rfl, d, l, hd, hmode, hl, hpending⟩
    | taken fd hgiven hopen => exact absurd (hans fd hgiven) hopen

/-- What is said in the handling of a line that comes to its end. -/
theorem line_said {S' : Sessions} (hrun : (sessions u).run events = .ok S)
    (hup : S.world.os.hungup id = false) (h : S.step u.server (.line id line ans) = .ok S') :
    AnsweredOnce id S S' := by
  obtain ⟨c, status, s, hc, -, hout, rfl⟩ := line_outcome hrun h
  obtain ⟨hspeaks, -⟩ := speaks_of_run hrun hc
  by_cases hquit : status = .quit
  · rw [hquit, after_of_quit]
    refine ⟨[.serviceClosing], ?_, .inl ⟨oneFinal_singleton rfl, List.append_nil _⟩⟩
    have hctl : S.world.os.desc c.clientSockfd = some (.control id) := hspeaks.owns.control
    have hto := delivered hctl hspeaks.sigpipe (kills_of_control hctl hup) .serviceClosing
    show S.world.sent ++ ([] ++ S.world.os.delivers c.clientSockfd .serviceClosing) = _
    rw [hto.1]
    rfl
  · rw [after_of_ne hquit]
    obtain ⟨l, hl, hkind⟩ := hout.said hspeaks hquit
    refine ⟨l, congrArg (S.world.sent ++ ·) hl, ?_⟩
    rcases hkind with ⟨hfinal, hforked⟩ |
      ⟨command, body, cwd, d, d₁, desc₁, -, -, hnil, -, -, hfork, rfl⟩
    · refine .inl ⟨hfinal, ?_⟩
      show S.world.children ++ s.forked.map (id, ·) = _
      rw [hforked]
      exact List.append_nil _
    · refine .inr ⟨hnil, ⟨body, command, { c with dataSocket := some d₁ }, cwd, desc₁⟩, ?_⟩
      show S.world.children ++ (Ctx.transferred _ id ans body command true d₁ desc₁).forked.map
        (id, ·) = _
      simp [Ctx.transferred, transferChildren, hfork, Ctx.start]

/-- A line that waits for a data connection is handled once there is one. -/
theorem line_handled_later {d : DataSocket} {l : Fd} (hrun : (sessions u).run events = .ok S)
    (hc : S.conns id = some c) (hparse : parseBuffer line = .ok parsed)
    (hup : S.world.os.hungup id = false) (hfinds : FindsDirectory S (.line id line ans))
    (hans : ans.Possible S.world.os) (hd : c.dataSocket = some d) (hl : d.dataSockfd = some l)
    (hpending : S.world.os.desc l = some (.listener 0)) :
    ∃ S₁ S', S.step u.server (.dataConnect l) = .ok S₁ ∧
      S₁.step u.server (.line id line ans) = .ok S' ∧ AnsweredOnce id S₁ S' := by
  have hconnect : (sessions u).step S (.dataConnect l) = .ok { S with world := { S.world with
      os := { S.world.os with
        desc := Function.update S.world.os.desc l (some (.listener 1)) } } } := by
    show (S.world.dataConnect l).map _ = _
    unfold World.dataConnect
    rw [hpending]
    rfl
  have hrun' := Machine.run_append_step hrun hconnect
  have hans' : ans.Possible { S.world.os with
      desc := Function.update S.world.os.desc l (some (.listener 1)) } := by
    intro fd hfd
    have hfree := hans fd hfd
    have hne : fd ≠ l := by
      rintro rfl
      rw [hpending] at hfree
      cases hfree
    exact (Function.update_of_ne hne _ _).trans hfree
  rcases line_handled hrun' hc hparse hup (by exact hfinds) hans' with
    ⟨S', hstep⟩ | ⟨-, d', l', hd', -, hl', hpending'⟩
  · exact ⟨_, S', hconnect, hstep, line_said hrun' hup hstep⟩
  · -- it is the same socket, and somebody waits on it now
    obtain rfl : d = d' := Option.some.inj (hd.symm.trans hd')
    obtain rfl : l = l' := Option.some.inj (hl.symm.trans hl')
    have hone : Function.update S.world.os.desc l (some (Desc.listener 1)) l =
        some (.listener 1) := Function.update_self ..
    cases hone.symm.trans hpending'

/-- What a child says whose client is there to the end. -/
theorem child_said {k : Nat} {child : Child} {cans : ChildAnswers}
    (hrun : (sessions u).run events = .ok S) (hk : S.world.children[k]? = some (id, child))
    (hup : S.world.os.hungup id = false) (hpeer : cans.dataWrites = none) :
    ∃ S' l, S.step u.server (.child k cans) = .ok S' ∧
      S'.world.children = S.world.children.eraseIdx k ∧
        S'.world.sent = S.world.sent ++ l.map (id, ·) ∧ Complete l := by
  have hready := ready_of_run hrun id child (List.mem_of_getElem? hk)
  -- the child's own view: its directory, its descriptors, the record it got
  let s : Ctx :=
    Ctx.start { S.world.os with cwd := child.cwd, desc := child.desc } child.connection
  have hctl : s.os.desc s.conn.clientSockfd = some (.control id) := hready.control
  have hsig : s.os.signals .sigpipe = .default := (sound_of_run hrun).sigpipe
  have hkills : s.os.kills s.conn.clientSockfd = false := kills_of_control hctl hup
  have hdefined : Defined cans child.connection false
      (child.body.run u.server cans child.command) := hready.defined false
  match hx : child.body.run u.server cans child.command s with
  | (.error e, s') =>
    rcases (hdefined s ⟨rfl, hkills⟩).1 e s' hx with ⟨-, hgone | hgone⟩
    · cases hgone
    · exact absurd hpeer hgone
  | (.ok status, s') =>
    obtain ⟨l, hcomplete, htold⟩ := run_complete child.body s status s' hx
    have hstep : S.step u.server (.child k cans) = .ok { S with world :=
        { S.world with
          os := { S.world.os with tree := s'.os.tree }
          children := S.world.children.eraseIdx k
          sent := S.world.sent ++ s'.out
          data := S.world.data ++ s'.data.map (id, ·) } } := by
      show (S.world.runChild u.server k cans).map _ = _
      unfold World.runChild
      rw [hk]
      dsimp only
      rw [show child.body.run u.server cans child.command _ = _ from hx]
      rfl
    exact ⟨_, l, hstep, rfl, congrArg (S.world.sent ++ ·) (htold.sent_to hctl hsig).1, hcomplete⟩

end

/-- **One final reply for each line.** A line whose parsing is defined, of a client that
is there, is handled, at once or when the data connection it waits for is there.
Once it is handled the client got one final reply, or there is a child. The child of
a client that is there says one final reply when it runs, and at most one preliminary
reply before. Nothing goes to other clients. -/
theorem answered_once (u : Setup) (events : List SessionEvent) (S : Sessions)
    (hrun : (sessions u).run events = .ok S) (id : ConnId) (hup : S.world.os.hungup id = false) :
    (∀ c line ans parsed, S.conns id = some c → parseBuffer line = .ok parsed →
      FindsDirectory S (.line id line ans) → ans.Possible S.world.os →
      (∃ S', S.step u.server (.line id line ans) = .ok S' ∧ AnsweredOnce id S S') ∨
        (S.step u.server (.line id line ans) = .error .blocked ∧
          ∃ l S₁ S', S.step u.server (.dataConnect l) = .ok S₁ ∧
            S₁.step u.server (.line id line ans) = .ok S' ∧ AnsweredOnce id S₁ S')) ∧
      ∀ k child cans, S.world.children[k]? = some (id, child) → cans.dataWrites = none →
        ∃ S' l, S.step u.server (.child k cans) = .ok S' ∧
          S'.world.children = S.world.children.eraseIdx k ∧
            S'.world.sent = S.world.sent ++ l.map (id, ·) ∧ Complete l := by
  refine ⟨fun c line ans parsed hc hparse hfinds hans => ?_, fun k child cans hk hpeer =>
    child_said hrun hk hup hpeer⟩
  rcases line_handled hrun hc hparse hup hfinds hans with
    ⟨S', hstep⟩ | ⟨hblocked, d, l, hd, -, hl, hpending⟩
  · exact .inl ⟨S', hstep, line_said hrun hup hstep⟩
  · exact .inr ⟨hblocked, l,
      line_handled_later hrun hc hparse hup hfinds hans hd hl hpending⟩

/-- A client that logged in, sent `PORT` and asks for a listing: a child is left. -/
theorem answered_listing :
    ∃ S, (sessions smallSetup).run
        (oneClient ["USER anonymous", "PASS", "PORT 127,0,0,1,4,7"]) = .ok S ∧
      ((∃ S', S.step smallSetup.server (.line 0 (lit "LIST") (.fine 8)) = .ok S' ∧
          AnsweredOnce 0 S S') ∨
        (S.step smallSetup.server (.line 0 (lit "LIST") (.fine 8)) = .error .blocked ∧
          ∃ l S₁ S', S.step smallSetup.server (.dataConnect l) = .ok S₁ ∧
            S₁.step smallSetup.server (.line 0 (lit "LIST") (.fine 8)) = .ok S' ∧
              AnsweredOnce 0 S₁ S')) := by
  refine ⟨_, rfl, (answered_once smallSetup
    (oneClient ["USER anonymous", "PASS", "PORT 127,0,0,1,4,7"]) _ rfl 0 rfl).1 _ (lit "LIST")
      (.fine 8) _ rfl rfl (by decide +kernel) ?_⟩
  rintro fd (hfd | ⟨peer, hfd⟩)
  · cases hfd
    rfl
  · cases hfd
    rfl

end MyFtp.Server
