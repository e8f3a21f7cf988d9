import MyFtp.Server.FinalReply
import MyFtp.Server.Pending

/-!
# In which order replies arrive

The server process goes on with the next line once it has forked; from then on it
and its children write to the same control connection, and nothing keeps them
apart. Here each process has its replies in a queue, in the order it writes them,
and any process may write next. A reply carries the number of the line it is a
reply to.

> `ordered_of_run`: the replies to a client arrive in the order of its lines as
> long as no line of it is handled while a child of it still has something to do.
-/

namespace MyFtp.Server

open MyFtp.Posix
open Prog

/-! ## The processes and what they write -/

/-- A reply to the `line`-th line of a client; the greeting has the number 0. -/
structure Written where
  client : ConnId
  line : Nat
  reply : Reply
  deriving DecidableEq

/-- The server, line by line, with what its processes have still to write. -/
structure Wires where
  sessions : Sessions
  /-- How many lines of the client were handled. -/
  lines : ConnId → Nat
  /-- The lines the children belong to that are still to run. -/
  forked : List Nat
  /-- What the server process is about to write. -/
  parent : List Written
  /-- What the children that ran have still to write, each in its order. -/
  children : List (List Written)
  /-- What was written. -/
  wire : List Written

/-- What can happen next: a step of the server, or a process writes its next reply. -/
inductive WireEvent
  | session (e : SessionEvent)
  | write
  | childWrites (j : Nat)

/-- The event is one of the server process, which writes what it has to say first. -/
def SessionEvent.isParents : SessionEvent → Bool
  | .accept _ _ _ => true
  | .line _ _ _ => true
  | _ => false

/-- The replies of a step. -/
def newSent (S S' : Sessions) : List (ConnId × Reply) := S'.world.sent.drop S.world.sent.length

/-- Replies to the `n`-th line of their client. -/
def numbered (n : Nat) (l : List (ConnId × Reply)) : List Written := l.map fun x => ⟨x.1, n, x.2⟩

/-- The processes after a step of the server. -/
def Wires.after (w : Wires) (S' : Sessions) : SessionEvent → Wires
  | .accept _ _ _ => { w with sessions := S', parent := numbered 0 (newSent w.sessions S') }
  | .line id _ _ =>
    { w with
      sessions := S'
      lines := Function.update w.lines id (w.lines id + 1)
      forked := w.forked ++ List.replicate
        (S'.world.children.length - w.sessions.world.children.length) (w.lines id + 1)
      parent := numbered (w.lines id + 1) (newSent w.sessions S') }
  | .child k _ =>
    { w with
      sessions := S'
      forked := w.forked.eraseIdx k
      children := w.children ++ [numbered (w.forked[k]?.getD 0) (newSent w.sessions S')] }
  | _ => { w with sessions := S' }

/-- What arrives of a reply: nothing, if the client is gone. -/
def Wires.arrives (w : Wires) (x : Written) : List Written :=
  if w.sessions.world.os.hungup x.client then [] else [x]

/-- A process that writes the reply is killed by `SIGPIPE`. -/
def Wires.kills (w : Wires) (x : Written) : Bool :=
  w.sessions.world.os.hungup x.client && w.sessions.world.os.signals .sigpipe == .default

/-- One event. -/
def Wires.step (server : ServerT) (w : Wires) : WireEvent → Except Halt Wires
  | .session e =>
    if e.isParents = true ∧ w.parent ≠ [] then .error .disabled
    else (w.sessions.step server e).map fun S' => w.after S' e
  | .write =>
    match w.parent with
    | [] => .error .disabled
    | x :: rest =>
      if w.kills x then .error .sigpipe
      else .ok { w with parent := rest, wire := w.wire ++ w.arrives x }
  | .childWrites j =>
    match w.children[j]? with
    | some (x :: rest) =>
      .ok { w with
        children := w.children.set j (if w.kills x then [] else rest)
        wire := w.wire ++ w.arrives x }
    | _ => .error .disabled

/-- The server and its children as a machine. -/
def wires (u : Setup) : Machine Wires WireEvent Halt :=
  { init := { sessions := (sessions u).init, lines := fun _ => 0, forked := [], parent := [],
              children := [], wire := [] }
    step := Wires.step u.server }

/-- The replies to each client arrived in the order of its lines. -/
def Ordered (wire : List Written) : Prop :=
  wire.Pairwise fun x y => x.client = y.client → x.line ≤ y.line

instance (wire : List Written) : Decidable (Ordered wire) :=
  inferInstanceAs (Decidable (List.Pairwise _ _))

/-- When a line of a client is handled, no child of it runs or has something to write. -/
def Waits (w : Wires) : WireEvent → Prop
  | .session (.line id _ _) =>
    (∀ x ∈ w.sessions.world.children, x.1 ≠ id) ∧ ∀ q ∈ w.children, ∀ x ∈ q, x.client ≠ id
  | _ => True

instance (w : Wires) : ∀ e, Decidable (Waits w e)
  | .session (.line ..) => inferInstanceAs (Decidable (_ ∧ _))
  | .session (.accept ..) | .session (.child ..) | .session (.hangup _)
  | .session (.dataConnect _) | .write | .childWrites _ => .isTrue trivial

/-! ## Who is written to -/

/-- On the connection of the client `id`, what is said goes to that client. -/
def SaysTo (id : ConnId) (s s' : Ctx) : Prop :=
  s.os.desc s.conn.clientSockfd = some (.control id) →
    s'.os.desc s'.conn.clientSockfd = some (.control id) ∧
      ∃ l : List Reply, s'.out = s.out ++ l.map (id, ·)

section

variable {u : Setup} {S S' : Sessions} {id : ConnId} {line : CStr} {ans : Answers}
  {cans : ChildAnswers} {k : Nat} {child : Child}

instance : Std.Refl (SaysTo id) := ⟨fun s h => ⟨h, [], (List.append_nil s.out).symm⟩⟩

instance : IsTrans Ctx (SaysTo id) := ⟨by
  intro a b c hab hbc ha
  obtain ⟨hb, l, hl⟩ := hab ha
  obtain ⟨hc, l', hl'⟩ := hbc hb
  refine ⟨hc, l ++ l', ?_⟩
  rw [hl', hl, List.map_append, List.append_assoc]⟩

/-- Nothing is said, and the descriptors stay. -/
theorem saysTo_of_same {s s' : Ctx} (hdesc : s'.os.desc = s.os.desc) (hconn : s'.conn = s.conn)
    (hout : s'.out = s.out) : SaysTo id s s' := by
  intro h
  rw [hdesc, hconn, hout]
  exact ⟨h, [], (List.append_nil _).symm⟩

theorem saysTo_reply (r : Reply) : Keeps (SaysTo id) (reply r) := by
  refine keeps_reply (fun s => Std.Refl.refl s) (fun s r h => ⟨h, ?_⟩) r
  unfold Os.delivers
  rw [h]
  dsimp only
  cases s.os.hungup id with
  | true => exact ⟨[], rfl⟩
  | false => exact ⟨[r], rfl⟩

theorem saysTo_dataDprintf (item : DataItem) : Keeps (SaysTo id) (dataDprintf cans item) := by
  intro s
  have hprint : (dataDprintf cans item s).2 = s ∨ _ := dataDprintf_leaves item s
  rcases hprint with h | h
  · rw [h]
    exact Std.Refl.refl s
  · rw [h]
    exact saysTo_of_same rfl rfl rfl

theorem saysTo_fopenWrite (path : CStr) : Keeps (SaysTo id) (fopenWrite path) := by
  intro s
  unfold fopenWrite
  split
  next => exact saysTo_of_same rfl rfl rfl
  next => exact Std.Refl.refl s

/-- What a child says goes to the client it was forked for. -/
theorem saysTo_run (body : TransferBody) (server : ServerT) (command : Command) :
    Keeps (SaysTo id) (body.run server cans command) :=
  follows_keeps.run saysTo_reply (keeps_chdir fun _ _ => saysTo_of_same rfl rfl rfl)
    saysTo_dataDprintf saysTo_fopenWrite (fun _ _ _ => saysTo_of_same rfl rfl rfl) body

/-- What is said in the course of a line goes to its client, and there is one child more
at most. -/
theorem line_says (hreach : (sessions u).Reachable S)
    (h : S.step u.server (.line id line ans) = .ok S') :
    ∃ l : List Reply, S'.world.sent = S.world.sent ++ l.map (id, ·) ∧
      (S'.world.children = S.world.children ∨
        ∃ child, S'.world.children = S.world.children ++ [(id, child)]) := by
  obtain ⟨events, hrun⟩ := hreach
  obtain ⟨c, status, s, hc, -, hout, rfl⟩ := line_outcome hrun h
  obtain ⟨hspeaks, -⟩ := speaks_of_run hrun hc
  by_cases hquit : status = .quit
  · rw [hquit, after_of_quit]
    have hctl : S.world.os.desc c.clientSockfd = some (.control id) := hspeaks.owns.control
    have hbye : ∃ l : List Reply, S.world.os.delivers c.clientSockfd .serviceClosing =
        l.map (id, ·) := by
      unfold Os.delivers
      rw [hctl]
      dsimp only
      cases S.world.os.hungup id with
      | true => exact ⟨[], rfl⟩
      | false => exact ⟨[.serviceClosing], rfl⟩
    obtain ⟨l, hl⟩ := hbye
    exact ⟨l, congrArg (S.world.sent ++ ·) hl, .inl (List.append_nil _)⟩
  · rw [after_of_ne hquit]
    obtain ⟨l, hl, ⟨-, hforked⟩ | ⟨command, body, cwd, d, d₁, desc₁, -, -, -, -, -, hfork, rfl⟩⟩ :=
      hout.said hspeaks hquit
    · refine ⟨l, congrArg (S.world.sent ++ ·) hl, .inl ?_⟩
      show S.world.children ++ s.forked.map (id, ·) = _
      rw [hforked]
      exact List.append_nil _
    · refine ⟨l, congrArg (S.world.sent ++ ·) hl,
        .inr ⟨⟨body, command, { c with dataSocket := some d₁ }, cwd, desc₁⟩, ?_⟩⟩
      show S.world.children ++ (Ctx.transferred _ id ans body command true d₁ desc₁).forked.map
        (id, ·) = _
      simp [Ctx.transferred, transferChildren, hfork, Ctx.start]

theorem child_says (hreach : (sessions u).Reachable S)
    (hk : S.world.children[k]? = some (id, child))
    (h : S.step u.server (.child k cans) = .ok S') :
    S'.world.children = S.world.children.eraseIdx k ∧
      ∃ l : List Reply, S'.world.sent = S.world.sent ++ l.map (id, ·) := by
  obtain ⟨events, hrun⟩ := hreach
  obtain ⟨w, hw, rfl⟩ := map_eq_ok h
  obtain ⟨id', child', s, hk', hs, rfl⟩ := World.runChild_eq_ok hw
  cases hk.symm.trans hk'
  have hready := ready_of_run hrun id child (List.mem_of_getElem? hk)
  have hsays : SaysTo id _ (child.body.run u.server cans child.command _).2 :=
    saysTo_run child.body u.server child.command
      (Ctx.start { S.world.os with cwd := child.cwd, desc := child.desc } child.connection)
  obtain ⟨-, l, hl⟩ := hsays hready.control
  refine ⟨rfl, l, ?_⟩
  rw [← hs] at hl
  exact congrArg (S.world.sent ++ ·) hl

end

/-! ## What is still to be written -/

/-- While lines wait for children, all that is still to be written to a client is for its
last line. -/
structure Numbered (u : Setup) (w : Wires) : Prop where
  reachable : (sessions u).Reachable w.sessions
  fresh : ∀ id, w.sessions.world.nextId ≤ id → w.lines id = 0
  length : w.forked.length = w.sessions.world.children.length
  forked : ∀ (k : Nat) (id : ConnId) (child : Child) (n : Nat),
    w.sessions.world.children[k]? = some (id, child) → w.forked[k]? = some n → n = w.lines id
  parent : ∀ x ∈ w.parent, x.line = w.lines x.client
  children : ∀ q ∈ w.children, ∀ x ∈ q, x.line = w.lines x.client
  wire : ∀ x ∈ w.wire, x.line ≤ w.lines x.client
  ordered : Ordered w.wire

section

variable {u : Setup} {w w' : Wires} {S' : Sessions} {x : Written} {id : ConnId}

theorem newSent_of_sent {S S' : Sessions} {l : List (ConnId × Reply)}
    (h : S'.world.sent = S.world.sent ++ l) : newSent S S' = l := by
  unfold newSent
  rw [h, List.drop_left]

theorem mem_numbered {n : Nat} {l : List Reply} (h : x ∈ numbered n (l.map (id, ·))) :
    x.client = id ∧ x.line = n := by
  unfold numbered at h
  rw [List.map_map] at h
  obtain ⟨r, -, rfl⟩ := List.mem_map.mp h
  exact ⟨rfl, rfl⟩

/-- A reply for the last line of its client arrives in order. -/
theorem Numbered.arrives (hI : Numbered u w) (hx : x.line = w.lines x.client) :
    (∀ y ∈ w.wire ++ w.arrives x, y.line ≤ w.lines y.client) ∧
      Ordered (w.wire ++ w.arrives x) := by
  unfold Wires.arrives
  split
  next =>
    rw [List.append_nil]
    exact ⟨hI.wire, hI.ordered⟩
  next =>
    refine ⟨fun y hy => ?_, List.pairwise_append.mpr ⟨hI.ordered, List.pairwise_singleton .., ?_⟩⟩
    · rcases List.mem_append.mp hy with hold | hnew
      · exact hI.wire y hold
      · rw [List.mem_singleton.mp hnew]
        exact Nat.le_of_eq hx
    · intro y hy z hz hsame
      rw [List.mem_singleton.mp hz] at hsame ⊢
      rw [hx, ← hsame]
      exact hI.wire y hy

theorem reachable_step {S S' : Sessions} {e : SessionEvent} (hreach : (sessions u).Reachable S)
    (h : S.step u.server e = .ok S') : (sessions u).Reachable S' :=
  Machine.Reachable.step (m := sessions u) (i := e) hreach h

/-- A line, handled while nothing is left of the lines before. -/
theorem Numbered.line {line : CStr} {ans : Answers} (hI : Numbered u w)
    (hC : Waits w (.session (.line id line ans)))
    (h : w.sessions.step u.server (.line id line ans) = .ok S') :
    Numbered u (w.after S' (.line id line ans)) := by
  obtain ⟨l, hsent, hchildren⟩ := line_says hI.reachable h
  obtain ⟨hidle, hsilent⟩ := hC
  have hreach := hI.reachable
  obtain ⟨events, hrun⟩ := hI.reachable
  have hreach' : (sessions u).Reachable S' := reachable_step hreach h
  obtain ⟨c, -, hc, -⟩ := handleLine_eq_ok h
  have hself : Function.update w.lines id (w.lines id + 1) id = w.lines id + 1 :=
    Function.update_self ..
  have hother : ∀ id', id' ≠ id → Function.update w.lines id (w.lines id + 1) id' = w.lines id' :=
    fun id' hid => Function.update_of_ne hid ..
  have hgrows : ∀ id', w.lines id' ≤ Function.update w.lines id (w.lines id + 1) id' := by
    intro id'
    by_cases hid : id' = id
    · rw [hid, hself]
      omega
    · rw [hother id' hid]
  refine ⟨hreach', fun id' hid' => ?_, ?_, fun k id' child n hk hn => ?_, fun x hx => ?_,
    fun q hq x hx => ?_, fun x hx => ?_, hI.ordered⟩
  · -- the client has a record, so its number was given out before
    have hlt : id ≠ id' := by
      rintro rfl
      have hold := Nat.le_trans (nextId_step h).1 hid'
      rw [(fresh_of_run hrun _ hold).1] at hc
      cases hc
    exact (hother id' hlt.symm).trans (hI.fresh id' (Nat.le_trans (nextId_step h).1 hid'))
  · show (w.forked ++ List.replicate _ _).length = S'.world.children.length
    rw [List.length_append, List.length_replicate, hI.length]
    rcases hchildren with hsame | ⟨child, hmore⟩
    · rw [hsame]
      omega
    · rw [hmore, List.length_append]
      omega
  · have hk' : S'.world.children[k]? = some (id', child) := hk
    have hn' : (w.forked ++ List.replicate (S'.world.children.length -
      w.sessions.world.children.length) (w.lines id + 1))[k]? = some n := hn
    show n = Function.update w.lines id (w.lines id + 1) id'
    by_cases hlt : k < w.sessions.world.children.length
    · -- a child that was there belongs to another client
      have hold : w.sessions.world.children[k]? = some (id', child) := by
        rcases hchildren with hsame | ⟨child', hmore⟩
        · rwa [hsame] at hk'
        · rwa [hmore, List.getElem?_append_left hlt] at hk'
      rw [List.getElem?_append_left (by rw [hI.length]; exact hlt)] at hn'
      rw [hother id' (hidle _ (List.mem_of_getElem? hold))]
      exact hI.forked k id' child n hold hn'
    · rw [List.getElem?_append_right (by rw [hI.length]; omega)] at hn'
      have hnew := List.eq_of_mem_replicate (List.mem_of_getElem? hn')
      rcases hchildren with hsame | ⟨child', hmore⟩
      · rw [hsame] at hk'
        have hsome := (List.getElem?_eq_some_iff.mp hk').1
        omega
      · rw [hmore, List.getElem?_append_right (by omega)] at hk'
        have hmem := List.mem_singleton.mp (List.mem_of_getElem? hk')
        cases hmem
        rw [hnew, hself]
  · have hx' : x ∈ numbered (w.lines id + 1) (newSent w.sessions S') := hx
    rw [newSent_of_sent hsent] at hx'
    obtain ⟨hclient, hline⟩ := mem_numbered hx'
    show x.line = Function.update w.lines id (w.lines id + 1) x.client
    rw [hclient, hline, hself]
  · show x.line = Function.update w.lines id (w.lines id + 1) x.client
    rw [hother x.client (hsilent q hq x hx)]
    exact hI.children q hq x hx
  · exact Nat.le_trans (hI.wire x hx) (hgrows x.client)

/-- A child runs: what it says is for its line, and that was the client's last. -/
theorem Numbered.child {k : Nat} {cans : ChildAnswers} (hI : Numbered u w)
    (h : w.sessions.step u.server (.child k cans) = .ok S') :
    Numbered u (w.after S' (.child k cans)) := by
  have hreach := hI.reachable
  have hreach' : (sessions u).Reachable S' := reachable_step hreach h
  obtain ⟨W, hW, hS'⟩ := map_eq_ok h
  obtain ⟨id, child, s, hk, -, hw⟩ := World.runChild_eq_ok hW
  obtain ⟨hchildren, l, hsent⟩ := child_says hreach hk h
  have hid : S'.world.nextId = w.sessions.world.nextId := by
    rw [← hS', hw]
  obtain ⟨n, hn⟩ : ∃ n, w.forked[k]? = some n := by
    have hlt := (List.getElem?_eq_some_iff.mp hk).1
    exact ⟨_, List.getElem?_eq_getElem (by rw [hI.length]; exact hlt)⟩
  refine ⟨hreach', fun id' hid' => hI.fresh id' ?_, ?_, fun j id' child' m hj hm => ?_,
    hI.parent, fun q hq x hx => ?_, hI.wire, hI.ordered⟩
  · rw [← hid]
    exact hid'
  · show (w.forked.eraseIdx k).length = S'.world.children.length
    rw [hchildren, List.length_eraseIdx, List.length_eraseIdx, hI.length]
  · have hj' : S'.world.children[j]? = some (id', child') := hj
    have hm' : (w.forked.eraseIdx k)[j]? = some m := hm
    rw [hchildren] at hj'
    rw [List.getElem?_eraseIdx] at hj' hm'
    split at hj'
    next hlt =>
      rw [if_pos hlt] at hm'
      exact hI.forked j id' child' m hj' hm'
    next hlt =>
      rw [if_neg hlt] at hm'
      exact hI.forked (j + 1) id' child' m hj' hm'
  · have hq' : q ∈ w.children ++ [numbered (w.forked[k]?.getD 0) (newSent w.sessions S')] := hq
    rcases List.mem_append.mp hq' with hold | hnew
    · exact hI.children q hold x hx
    · rw [List.mem_singleton.mp hnew, newSent_of_sent hsent] at hx
      obtain ⟨hclient, hline⟩ := mem_numbered hx
      rw [hline, hclient, hn, Option.getD_some]
      exact hI.forked k id child n hk hn

/-- A client is greeted. -/
theorem Numbered.accept {fd : Fd} {addr : SockAddr} {served : Bool} (hI : Numbered u w)
    (h : w.sessions.step u.server (.accept fd addr served) = .ok S') :
    Numbered u (w.after S' (.accept fd addr served)) := by
  have hreach' : (sessions u).Reachable S' := reachable_step hI.reachable h
  have hmono := (nextId_step h).1
  obtain ⟨⟨c, W⟩, hacc, hS'⟩ := map_eq_ok h
  obtain ⟨-, -, hW⟩ := World.accept_eq_ok hacc
  have hchildren : S'.world.children = w.sessions.world.children := by
    rw [← hS', hW]
  have hsent : ∃ l : List Reply, S'.world.sent =
      w.sessions.world.sent ++ l.map (w.sessions.world.nextId, ·) := by
    rw [← hS', hW]
    dsimp only
    cases w.sessions.world.os.hungup w.sessions.world.nextId with
    | true => exact ⟨[], rfl⟩
    | false => exact ⟨[.serviceReady], rfl⟩
  obtain ⟨l, hsent⟩ := hsent
  refine ⟨hreach', fun id' hid' => hI.fresh id' (Nat.le_trans hmono hid'), ?_,
    fun k id' child n hk hn => ?_, fun x hx => ?_, hI.children, hI.wire, hI.ordered⟩
  · exact hI.length.trans (congrArg List.length hchildren.symm)
  · have hk' : S'.world.children[k]? = some (id', child) := hk
    rw [hchildren] at hk'
    exact hI.forked k id' child n hk' hn
  · have hx' : x ∈ numbered 0 (newSent w.sessions S') := hx
    rw [newSent_of_sent hsent] at hx'
    obtain ⟨hclient, hline⟩ := mem_numbered hx'
    show x.line = w.lines x.client
    rw [hline, hclient, hI.fresh _ (Nat.le_refl _)]

/-- Every event that meets the condition. -/
theorem Numbered.step {e : WireEvent} (hI : Numbered u w) (hC : Waits w e)
    (h : w.step u.server e = .ok w') : Numbered u w' := by
  cases e with
  | session e =>
    unfold Wires.step at h
    dsimp only at h
    split at h
    next => cases h
    next =>
      obtain ⟨S', hS', rfl⟩ := map_eq_ok h
      cases e with
      | accept fd addr served => exact hI.accept hS'
      | line id line ans => exact hI.line hC hS'
      | child k cans => exact hI.child hS'
      | hangup id =>
        have hreach : (sessions u).Reachable S' := reachable_step hI.reachable hS'
        cases hS'
        exact ⟨hreach, hI.fresh, hI.length, hI.forked, hI.parent, hI.children, hI.wire, hI.ordered⟩
      | dataConnect fd =>
        have hreach : (sessions u).Reachable S' := reachable_step hI.reachable hS'
        obtain ⟨W, hW, rfl⟩ := map_eq_ok hS'
        obtain ⟨pending, -, rfl⟩ := World.dataConnect_eq_ok hW
        exact ⟨hreach, hI.fresh, hI.length, hI.forked, hI.parent, hI.children, hI.wire, hI.ordered⟩
  | write =>
    unfold Wires.step at h
    dsimp only at h
    split at h
    next => cases h
    next x rest hparent =>
      split at h
      next => cases h
      next =>
        cases h
        have hx : x.line = w.lines x.client :=
            hI.parent x (by rw [hparent]; exact List.mem_cons_self)
        obtain ⟨hwire, hordered⟩ := hI.arrives hx
        refine ⟨hI.reachable, hI.fresh, hI.length, hI.forked, fun y hy => ?_, hI.children, hwire,
          hordered⟩
        exact hI.parent y (by rw [hparent]; exact List.mem_cons_of_mem _ hy)
  | childWrites j =>
    unfold Wires.step at h
    dsimp only at h
    split at h
    next x rest hj =>
      cases h
      have hq := List.mem_of_getElem? hj
      obtain ⟨hwire, hordered⟩ := hI.arrives (hI.children _ hq x List.mem_cons_self)
      refine ⟨hI.reachable, hI.fresh, hI.length, hI.forked, hI.parent, fun q hmem y hy => ?_, hwire,
        hordered⟩
      rcases List.mem_or_eq_of_mem_set hmem with hold | rfl
      · exact hI.children q hold y hy
      · split at hy
        next => cases hy
        next => exact hI.children _ hq y (List.mem_cons_of_mem _ hy)
    next => cases h

theorem numbered_of_run {events : List WireEvent} (hrun : (wires u).run events = .ok w)
    (hmeets : (wires u).Meets Waits events) : Numbered u w := by
  refine Machine.run_invariant_of_meets (m := wires u) (C := Waits) (I := fun _ w => Numbered u w)
    ?_ (fun _ _ _ _ hI hC hstep => hI.step hC hstep) events w hmeets hrun
  refine ⟨⟨[], rfl⟩, fun _ _ => rfl, rfl, fun k id child n hk => ?_, fun x hx => ?_,
    fun q hq => ?_, fun x hx => ?_, List.Pairwise.nil⟩
  · cases hk
  · cases hx
  · cases hq
  · cases hx

end

/-- **When replies come in order.** In a run of any events, in which no line of a client
is handled while a child of it runs or has something to write, the replies to every
client arrive in the order of its lines. -/
theorem ordered_of_run (u : Setup) (events : List WireEvent) (w : Wires)
    (hrun : (wires u).run events = .ok w) (hmeets : (wires u).Meets Waits events) :
    Ordered w.wire :=
  (numbered_of_run hrun hmeets).ordered

/-- A client sends `LIST` and `NOOP` without a pause. The server process answers `NOOP`
before the child announces the listing. -/
def pipelined : List WireEvent :=
  [.session (.accept 4 ⟨inaddrLoopback, 4000⟩ true), .write,
    .session (.line 0 (lit "USER anonymous") (.fine 7)), .write,
    .session (.line 0 (lit "PASS") (.fine 7)), .write,
    .session (.line 0 (lit "PORT 127,0,0,1,4,7") (.fine 7)), .write,
    .session (.line 0 (lit "LIST") (.fine 7)), .session (.line 0 (lit "NOOP") (.fine 7)), .write,
    .session (.child 0 (.fine [])), .childWrites 0, .childWrites 0]

theorem disordered_pipelined :
    ∃ w, (wires smallSetup).run pipelined = .ok w ∧
      (w.wire.map Written.line = [0, 1, 2, 3, 5, 4, 4] ∧ ¬ Ordered w.wire) :=
  Machine.exists_of_run (by decide +kernel)

/-- The same client, when it waits for the listing. -/
def patient : List WireEvent :=
  [.session (.accept 4 ⟨inaddrLoopback, 4000⟩ true), .write,
    .session (.line 0 (lit "USER anonymous") (.fine 7)), .write,
    .session (.line 0 (lit "PASS") (.fine 7)), .write,
    .session (.line 0 (lit "PORT 127,0,0,1,4,7") (.fine 7)), .write,
    .session (.line 0 (lit "LIST") (.fine 7)), .session (.child 0 (.fine [])), .childWrites 0,
    .childWrites 0, .session (.line 0 (lit "NOOP") (.fine 7)), .write]

theorem ordered_patient :
    ∃ w, (wires smallSetup).run patient = .ok w ∧
      (w.wire.map Written.line = [0, 1, 2, 3, 4, 4, 5] ∧ Ordered w.wire) := by
  obtain ⟨w, hw, hlines, hmeets⟩ : ∃ w, (wires smallSetup).run patient = .ok w ∧
      (w.wire.map Written.line = [0, 1, 2, 3, 4, 4, 5] ∧
        (wires smallSetup).Meets Waits patient) :=
    Machine.exists_of_run (by decide +kernel)
  exact ⟨w, hw, hlines, ordered_of_run smallSetup patient w hw hmeets⟩

end MyFtp.Server
