import MyFtp.Server.Home
import MyFtp.Server.Numbers

/-!
# One client's line between another's

Clients share the process's current directory, the files and the descriptor
table. The files are there to be shared, and the table is not a way from one
client to another (`Sound`). The directory is: what it is when a line begins
decides what `CWD`, `CDUP`, `LIST` and `STOR` find.

> `no_interference_of_run`: as long as every line leaves the process in the
> root, a line that changes no file makes no difference to the next line of any
> other client — to its replies, its record, the files, and what its child will
> do — but for the numbers the system picks.
-/

namespace MyFtp.Server

open MyFtp.Posix
open Prog

/-! ## What a line comes to -/

/-- What a child leaves of the files it finds, prints and sends. -/
def Child.effect (server : ServerT) (os : Os) (child : Child) (cans : ChildAnswers)
    (tree : FileTree) : FileTree × List (ConnId × Reply) × List DataItem :=
  let s := (child.body.run server cans child.command
    (Ctx.start { os with tree, cwd := child.cwd, desc := child.desc } child.connection)).2
  (s.os.tree, unnumberedReplies s.out, s.data)

/-- What a line of a client comes to: its replies, its record, the files, and
what the children it left behind will do. -/
structure Effect where
  replies : List (ConnId × Reply)
  record : Option Connection
  tree : FileTree
  transfers : List (ChildAnswers → FileTree → FileTree × List (ConnId × Reply) × List DataItem)

/-- What a line of the client `id` came to, but for the numbers. -/
def effectOn (server : ServerT) (id : ConnId) (S S' : Sessions) : Effect :=
  { replies := unnumberedReplies (S'.world.sent.drop S.world.sent.length)
    record := (S'.conns id).map Connection.unnumbered
    tree := S'.world.os.tree
    transfers := (S'.world.children.drop S.world.children.length).map
      fun child => child.2.effect server S'.world.os }

theorem effectOn_handled (server : ServerT) (id : ConnId) (S : Sessions) (stays : Bool)
    (c : Connection) (s : Ctx) :
    effectOn server id S (S.handled id (stays, c, S.world.merge id s)) =
      { replies := unnumberedReplies s.out
        record := if stays then some c.unnumbered else none
        tree := s.os.tree
        transfers := s.forked.map fun child => child.effect server s.os } := by
  have hrecord : (Function.update S.conns id (if stays then some c else none) id).map
      Connection.unnumbered = if stays then some c.unnumbered else none := by
    rw [Function.update_self]
    cases stays <;> rfl
  rw [effectOn]
  simp only [Sessions.handled, World.merge, List.drop_left, hrecord, List.map_map]
  rfl

/-! ## The same line in two states -/

section

variable {server : ServerT} {ans ans' : Answers} {id : ConnId} {c : Connection}

/-- Children that differ in numbers only do the same. -/
theorem SameChild.effect {child child' : Child} (h : SameChild id child child') {os os' : Os}
    (hsig : os'.signals = os.signals) (hhup : os'.hungup id = os.hungup id) :
    child'.effect server os' = child.effect server os := by
  funext cans tree
  have hstart : Sim id
      (Ctx.start { os with tree, cwd := child.cwd, desc := child.desc } child.connection)
      (Ctx.start { os' with tree, cwd := child'.cwd, desc := child'.desc } child'.connection) :=
    ⟨rfl, h.cwd, hsig, hhup, h.kin, rfl, rfl, .nil⟩
  rw [Child.effect, Child.effect, h.body, h.command]
  rcases run_alongside (X := fun _ => False) server cans child.command child.body _ _ hstart with
    ⟨_, he, -⟩ | ⟨_, he, -⟩ | ⟨-, hend⟩
  · exact he.elim
  · exact he.elim
  · rw [hend.tree, hend.out, hend.data]

theorem Sim.transfers {s t : Ctx} (h : Sim id s t) :
    (t.forked.map fun child => child.effect server t.os) =
      s.forked.map fun child => child.effect server s.os := by
  have key : ∀ {l l' : List Child}, List.Forall₂ (SameChild id) l l' →
      (l'.map fun child => child.effect server t.os) =
        l.map fun child => child.effect server s.os := by
    intro l l' hl
    induction hl with
    | nil => rfl
    | cons hchild _ ih => rw [List.map_cons, List.map_cons, ih, hchild.effect h.signals h.hungup]
  exact key h.forked

/-- From states that are the same to the client, its next line comes to the same. -/
theorem effect_of_sim {S T : Sessions} {line : CStr} (hS : S.conns id = some c)
    (hT : T.conns id = some c) (hsim : Sim id (Ctx.start S.world.os c) (Ctx.start T.world.os c))
    (hans : SameAnswers ans ans')
    (hdisS : S.handleLine server id line ans ≠ .error .disabled)
    (hdisT : T.handleLine server id line ans' ≠ .error .disabled) :
    (S.handleLine server id line ans).map (effectOn server id S) =
      (T.handleLine server id line ans').map (effectOn server id T) := by
  cases hparse : parseBuffer line with
  | error e =>
    rw [handleLine_of_undefined hS hparse, handleLine_of_undefined hT hparse]
    rfl
  | ok parsed =>
    by_cases hquit : ∃ command, parsed = some command ∧ command.word = lit "QUIT"
    · obtain ⟨command, rfl, hword⟩ := hquit
      have hk := kills_eq hsim.kin.owns.control
      have hk' := kills_eq hsim.kin.owns'.control
      rw [hsim.signals, hsim.hungup, ← hk] at hk'
      have hkill : T.world.os.kills c.clientSockfd = S.world.os.kills c.clientSockfd := hk'
      rw [handleLine_quit hS hparse hword, handleLine_quit hT hparse hword, hkill]
      split
      next => rfl
      next =>
        have hout : (Ctx.start T.world.os c).goodbye.out =
            (Ctx.start S.world.os c).goodbye.out := by
          have h := delivers_control hsim.kin.owns.control .serviceClosing
          have h' := delivers_control hsim.kin.owns'.control .serviceClosing
          rw [hsim.hungup, ← h] at h'
          show [] ++ _ = [] ++ _
          rw [List.nil_append, List.nil_append]
          exact h'
        have htree : (Ctx.start T.world.os c).goodbye.os.tree =
            (Ctx.start S.world.os c).goodbye.os.tree := hsim.tree
        show Except.ok _ = Except.ok _
        rw [effectOn_handled, effectOn_handled, hout, htree]
        rfl
    · have hnot : ∀ command, parsed = some command → command.word ≠ lit "QUIT" :=
        fun command hcom hword => hquit ⟨command, hcom, hword⟩
      rw [handleLine_of_executeCommand hS hparse hnot] at hdisS ⊢
      rw [handleLine_of_executeCommand hT hparse hnot] at hdisT ⊢
      have hboth : Alongside (· = .disabled) id (executeCommand server ans parsed)
          (executeCommand server ans' parsed) := by
        exact executeCommand_alongside (X := (· = Halt.disabled)) rfl hans server parsed
      have hagree := hboth _ _ hsim
      match hs : executeCommand server ans parsed (Ctx.start S.world.os c),
        ht : executeCommand server ans' parsed (Ctx.start T.world.os c) with
      | (.error e, s), (.error e', t) =>
        rw [hs, ht] at hagree
        rw [hs] at hdisS
        rw [ht] at hdisT
        rcases hagree with ⟨_, rfl, he⟩ | ⟨_, rfl, he⟩ | ⟨he, -⟩
        · exact absurd (congrArg Except.error (Except.error.inj he)) hdisS
        · exact absurd (congrArg Except.error (Except.error.inj he)) hdisT
        · obtain rfl : e = e' := he
          rfl
      | (.error e, s), (.ok status', t) =>
        rw [hs, ht] at hagree
        rw [hs] at hdisS
        rcases hagree with ⟨_, rfl, he⟩ | ⟨_, rfl, he⟩ | ⟨he, -⟩
        · exact absurd (congrArg Except.error (Except.error.inj he)) hdisS
        · cases he
        · exact he.elim
      | (.ok status, s), (.error e', t) =>
        rw [hs, ht] at hagree
        rw [ht] at hdisT
        rcases hagree with ⟨_, rfl, he⟩ | ⟨_, rfl, he⟩ | ⟨he, -⟩
        · cases he
        · exact absurd (congrArg Except.error (Except.error.inj he)) hdisT
        · exact he.elim
      | (.ok status, s), (.ok status', t) =>
        rw [hs, ht] at hagree
        rcases hagree with ⟨_, rfl, he⟩ | ⟨_, rfl, he⟩ | ⟨-, hend⟩
        · cases he
        · cases he
        · show Except.ok _ = Except.ok _
          rw [effectOn_handled, effectOn_handled, hend.out, hend.tree, hend.transfers]
          simp only [if_true, Effect.mk.injEq, Except.ok.injEq, true_and, and_true]
          exact congrArg some hend.conn.symm

end

/-! ## Another client's line in between -/

/-- To another client the states before and after are the same, if the files and
the current directory are. -/
theorem sim_of_handleLine {u : Setup} {S S' : Sessions} {a b : ConnId} {line : CStr}
    {ans : Answers} {c : Connection} (hS : Sound u S) (hab : b ≠ a) (hc : S.conns b = some c)
    (h : S.handleLine u.server a line ans = .ok S')
    (htree : S'.world.os.tree = S.world.os.tree) (hcwd : S'.world.os.cwd = S.world.os.cwd) :
    Sim b (Ctx.start S.world.os c) (Ctx.start S'.world.os c) := by
  obtain ⟨hc', hsig, hhup, hdesc⟩ := others_of_handleLine hS hab hc h
  have hown := hS.owns b c hc
  refine ⟨htree, hcwd, hsig, congrFun hhup b, ⟨hown, hown.congr hdesc, rfl, ?_⟩, rfl, rfl, .nil⟩
  show (c.dataSocket.bind DataSocket.dataSockfd).bind S'.world.os.desc =
    (c.dataSocket.bind DataSocket.dataSockfd).bind S.world.os.desc
  cases hd : c.dataSocket.bind DataSocket.dataSockfd with
  | none => rfl
  | some fd =>
    obtain ⟨d, hd, hfd⟩ := Option.bind_eq_some_iff.mp hd
    exact hdesc fd (.inr (mem_dataFds.mpr ⟨d, hd, .inl hfd⟩))

/-- **When clients do not interfere.** In a run whose lines all leave the process
in the root, it stands there before every line; and a line of one client that
leaves the process there and changes no file makes no difference to the next line
of another client, but for the numbers the system picks. -/
theorem no_interference_of_run (u : Setup) (events : List SessionEvent) (S : Sessions)
    (hrun : (sessions u).run events = .ok S)
    (hmeets : (sessions u).Meets (ReturnsHome u.server) events) :
    S.world.os.cwd = u.server.path ∧
    ∀ a b lineA ansA S₁, a ≠ b → ReturnsHome u.server S (.line a lineA ansA) →
      (sessions u).step S (.line a lineA ansA) = .ok S₁ →
        S₁.world.os.tree = S.world.os.tree →
          ∀ lineB ans ans', SameAnswers ans ans' →
            (sessions u).step S (.line b lineB ans) ≠ .error .disabled →
              (sessions u).step S₁ (.line b lineB ans') ≠ .error .disabled →
                ((sessions u).step S (.line b lineB ans)).map (effectOn u.server b S) =
                  ((sessions u).step S₁ (.line b lineB ans')).map (effectOn u.server b S₁) := by
  have hhome := home_of_run hmeets hrun
  refine ⟨hhome, ?_⟩
  intro a b lineA ansA S₁ hab hA hstep htree lineB ans ans' hans hdis hdis₁
  have hhome₁ : S₁.world.os.cwd = u.server.path := home_step (placed_of_run hrun) hhome hA hstep
  have hS := sound_of_run hrun
  cases hc : S.conns b with
  | none =>
    refine absurd ?_ hdis
    show S.handleLine u.server b lineB ans = _
    rw [Sessions.handleLine, hc]
  | some c =>
    have hsim := sim_of_handleLine hS hab.symm hc hstep htree (hhome₁.trans hhome.symm)
    obtain ⟨hc₁, -⟩ := others_of_handleLine hS hab.symm hc hstep
    exact effect_of_sim hc hc₁ hsim hans hdis hdis₁

/-- Two clients are accepted and log in; the first goes to `/srv/ftp/pub`. -/
def twoClients : List SessionEvent :=
  [.accept 4 ⟨inaddrLoopback, 4000⟩ true, .accept 5 ⟨inaddrLoopback, 4001⟩ true] ++
    (["USER anonymous", "PASS", "CWD pub"].map fun l => .line 0 (lit l) (.fine 7)) ++
    (["USER anonymous", "PASS"].map fun l => .line 1 (lit l) (.fine 7))

theorem ne_disabled_of_isOk {α : Type} {x : Except Halt α} (h : x.isOk = true) :
    x ≠ .error .disabled := by
  rintro rfl
  cases h

/-- The second client's `CWD pub`, before and after a `CWD ..` of the first one, which takes the
process to `/srv/ftp/pub`, from there to `/srv/ftp` and back to the root. -/
theorem no_interference_of_run_cwd : ∃ S S₁,
    (sessions smallSetup).run twoClients = .ok S ∧
      (sessions smallSetup).step S (.line 0 (lit "CWD ..") (.fine 7)) = .ok S₁ ∧
        (S.conns 0).map (·.workingDirectory) ≠ (S₁.conns 0).map (·.workingDirectory) ∧
        ((sessions smallSetup).step S (.line 1 (lit "CWD pub") (.fine 7))).map
            (effectOn smallSetup.server 1 S) =
          ((sessions smallSetup).step S₁ (.line 1 (lit "CWD pub") (.fine 9))).map
            (effectOn smallSetup.server 1 S₁) :=
  ⟨_, _, rfl, rfl, by decide +kernel,
    (no_interference_of_run smallSetup twoClients _ rfl (by decide +kernel)).2 0 1 (lit "CWD ..")
      (.fine 7) _ (by decide) (by decide +kernel) rfl rfl (lit "CWD pub") (.fine 7) (.fine 9)
      ⟨rfl, rfl, rfl, rfl, rfl, rfl⟩ (ne_disabled_of_isOk (by decide +kernel))
      (ne_disabled_of_isOk (by decide +kernel))⟩

/-- The first client's `DELE` finds nothing to remove and leaves the process in
`/srv/ftp/pub`, where the second client's `CWD pub` fails. -/
theorem dele_interferes : ∃ S S₁,
    (sessions smallSetup).run twoClients = .ok S ∧
      (sessions smallSetup).step S (.line 0 (lit "DELE x") (.fine 7)) = .ok S₁ ∧
        S₁.world.os.tree = S.world.os.tree ∧ S₁.world.os.cwd ≠ smallSetup.server.path ∧
          ((sessions smallSetup).step S (.line 1 (lit "CWD pub") (.fine 7))).map
              (effectOn smallSetup.server 1 S) ≠
            ((sessions smallSetup).step S₁ (.line 1 (lit "CWD pub") (.fine 7))).map
              (effectOn smallSetup.server 1 S₁) := by
  refine ⟨_, _, rfl, rfl, rfl, by decide +kernel, fun h => ?_⟩
  have hrecord := congrArg (fun r => r.toOption.bind Effect.record) h
  revert hrecord
  decide +kernel

end MyFtp.Server
