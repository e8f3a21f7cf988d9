import MyFtp.Server.Outcome

/-!
# The pending data socket

`PASV` and `PORT` put a data socket into the record, `LIST`, `RETR` and `STOR`
take it out. Seen from the outside there are three things that can happen to it:
it is offered (227 or 200), `PASV` or `PORT` fails (451), or a transfer attempts
to use it. The record holds one exactly when the last of these was an offer, and
then it is the one that was offered.

> `pending_of_run`: this holds in every reachable state, so there are never more
> attempts than offers, and a transfer without one is answered 425.
-/

namespace MyFtp.Server

open MyFtp.Posix

/-! ## What happens to a data socket -/

/-- What happens to the data socket of a client. -/
inductive DataEvent
  /-- `PASV` or `PORT` was answered 227 or 200. -/
  | offered (d : DataSocket)
  /-- One of them was answered 451. -/
  | refused
  /-- `LIST`, `RETR` or `STOR` tried to establish the data connection. -/
  | attempted
  deriving DecidableEq

/-- The last event decides. -/
def pending (events : List DataEvent) : Option DataSocket :=
  match events.getLast? with
  | some (.offered d) => some d
  | _ => none

/-- How often a data connection was attempted. -/
def attempts (events : List DataEvent) : Nat := events.countP (· == .attempted)

/-- The replies 227 and 200 that offer a data socket. -/
def Reply.offers : Reply → Bool
  | .enteringPassive _ _ _ => true
  | .portSuccessful => true
  | _ => false

/-- What the client `id` was told between two states. -/
def newReplies (id : ConnId) (S S' : Sessions) : List Reply :=
  ((S'.world.sent.drop S.world.sent.length).filter (·.1 == id)).map Prod.snd

/-- What a command does to the data socket of its client, given what the client was
told: offers and refusals are seen by the replies, attempts by the tests before
them. -/
def lineEvent (server : ServerT) (ans : Answers) (s : Ctx) (command : Command)
    (replies : List Reply) : Option DataEvent :=
  if command.word = lit "PASV" ∨ command.word = lit "PORT" then
    if replies.any Reply.offers then
      ans.socket.bind fun fd => (offer ans command fd).map fun o => .offered o.1
    else if .localError ∈ replies then some .refused
    else none
  else (transferOf server s command).map fun _ => .attempted

/-- What a step does to the data socket of the client `id`. -/
def dataEvent (server : ServerT) (id : ConnId) (S : Sessions) (e : SessionEvent) (S' : Sessions) :
    Option DataEvent :=
  match e with
  | .line id' line ans =>
    if id' = id then
      (S.conns id).bind fun c => (commandOf line).bind fun command =>
        lineEvent server ans (Ctx.start S.world.os c) command (newReplies id S S')
    else none
  | _ => none

/-- What happened to the data socket of the client `id` along a run. -/
def dataEvents (u : Setup) (id : ConnId) (events : List SessionEvent) : List DataEvent :=
  (sessions u).seen (dataEvent u.server id) events

@[simp] theorem pending_nil : pending [] = none := rfl

theorem pending_concat (events : List DataEvent) (e : DataEvent) :
    pending (events ++ [e]) = match e with | .offered d => some d | _ => none := by
  unfold pending
  rw [List.getLast?_concat]
  cases e <;> rfl

theorem attempts_concat (events : List DataEvent) (e : DataEvent) :
    attempts (events ++ [e]) = attempts events + if e = .attempted then 1 else 0 := by
  unfold attempts
  rw [List.countP_append, List.countP_singleton]
  simp

/-! ## One line -/

section

variable {S S' : Sessions} {id : ConnId}

/-- Replies to one client are its replies. -/
theorem repliesOf_own (id : ConnId) (l : List Reply) :
    ((l.map (id, ·)).filter (·.1 == id)).map Prod.snd = l := by
  have hall : (l.map (id, ·)).filter (·.1 == id) = l.map (id, ·) := by
    rw [List.filter_eq_self]
    intro e he
    obtain ⟨r, -, rfl⟩ := List.mem_map.mp he
    exact beq_self_eq_true id
  rw [hall, List.map_map]
  exact List.map_id l

theorem newReplies_of_sent {l : List Reply} (h : S'.world.sent = S.world.sent ++ l.map (id, ·)) :
    newReplies id S S' = l := by
  unfold newReplies
  rw [h, List.drop_left, repliesOf_own]

/-- How many offers the client got. -/
def offersTo (w : World) (id : ConnId) : Nat := (w.repliesTo id).countP Reply.offers

theorem offersTo_append (id : ConnId) {w w' : World} {l : List (ConnId × Reply)}
    (h : w'.sent = w.sent ++ l) :
    offersTo w' id = offersTo w id + ((l.filter (·.1 == id)).map Prod.snd).countP Reply.offers := by
  have hw : w'.repliesTo id = { w with sent := w.sent ++ l }.repliesTo id := by
    unfold World.repliesTo
    rw [h]
  unfold offersTo
  rw [hw, repliesTo_append, List.countP_append]

theorem offer_offers {ans : Answers} {command : Command} {fd : Fd} {d : DataSocket} {x : Desc}
    {r : Reply} (h : offer ans command fd = some (d, x, r)) : r.offers = true := by
  unfold offer at h
  split at h
  next =>
    cases h
    rfl
  next =>
    split at h
    next =>
      obtain ⟨hostPort, -, h⟩ := Option.map_eq_some_iff.mp h
      cases h
      rfl
    next => cases h

/-- The data socket after an event. -/
def DataEvent.leaves : Option DataEvent → Option DataSocket → Option DataSocket
  | none, d => d
  | some (.offered d), _ => some d
  | some _, _ => none

/-- A line leaves the data socket that is seen from the outside. -/
theorem lineEvent_of_outcome {server : ServerT} {ans : Answers} {command : Command}
    {status : CommandStatus} {s s' : Ctx} {l : List Reply} (hs : Speaks id s)
    (hout : Outcome server ans id (some command) status s s')
    (hl : s'.out = s.out ++ l.map (id, ·)) :
    s'.conn.dataSocket = DataEvent.leaves (lineEvent server ans s command l) s.conn.dataSocket ∧
      (lineEvent server ans s command l = some .attempted → s.conn.dataSocket ≠ none) ∧
      ∀ d, lineEvent server ans s command l = some (.offered d) → l.any Reply.offers = true := by
  have hsaid : ∀ {l' : List Reply}, s'.out = s.out ++ l'.map (id, ·) → l = l' := by
    intro l' hl'
    have heq := List.append_cancel_left (hl.symm.trans hl')
    have hinj : Function.Injective fun r : Reply => (id, r) := fun r r' h => (Prod.mk.inj h).2
    exact hinj.list_map heq
  unfold lineEvent
  cases hout with
  | answered l' hstatus hfinal htold hword =>
    obtain ⟨hpasv, hport, hof⟩ := hword command rfl
    rw [if_neg (not_or.mpr ⟨hpasv, hport⟩), hof]
    exact ⟨htold.dataSocket, fun h => (by cases h), fun d h => (by cases h)⟩
  | quit command' hparsed hword hstatus hs' =>
    obtain rfl := Option.some.inj hparsed
    rw [if_neg (by rw [hword]; decide), transferOf_of_word (by rw [hword]; decide), hs']
    exact ⟨rfl, fun h => (by cases h), fun d h => (by cases h)⟩
  | declined command' r hparsed hword hstatus hr htold hoffer =>
    obtain rfl := Option.some.inj hparsed
    obtain rfl := hsaid (htold.sent hs).1
    have hnone : [r].any Reply.offers = false ∧ Reply.localError ∉ [r] := by
      rcases hr with rfl | rfl <;> decide
    rw [if_pos hword, hnone.1, if_neg (by simp), if_neg hnone.2]
    exact ⟨htold.dataSocket, fun h => (by cases h), fun d h => (by cases h)⟩
  | setUp command' hparsed hword hstatus hlog hoffer hup hset =>
    obtain rfl := Option.some.inj hparsed
    rw [if_pos hword]
    cases hset with
    | offered fd d x r hsocket hfree hof hlisten =>
      obtain rfl : l = [r] := hsaid rfl
      have hany : [r].any Reply.offers = true := by
        rw [List.any_cons, offer_offers hof]
        rfl
      rw [hany, if_pos rfl, hsocket, Option.bind_some, hof]
      exact ⟨rfl, fun h => (by cases h), fun _ _ => rfl⟩
    | noSocket hsocket =>
      obtain rfl : l = [.localError] := hsaid rfl
      rw [if_neg (by decide), if_pos (by decide)]
      exact ⟨rfl, fun h => (by cases h), fun d h => (by cases h)⟩
    | deaf fd hsocket hfree hpasv hlisten =>
      obtain rfl : l = [.localError] := hsaid rfl
      rw [if_neg (by decide), if_pos (by decide)]
      exact ⟨rfl, fun h => (by cases h), fun d h => (by cases h)⟩
  | transfer command' body cwd hparsed hbody hrun =>
    obtain rfl := Option.some.inj hparsed
    obtain ⟨hword, hlog, d, hd⟩ := transferOf_eq_some hbody
    obtain ⟨hstatus, connected, d₁, desc₁, hreach, -, rfl⟩ :=
      transfer_outcome (hs.inDir cwd) hd hrun
    have hnot : ¬ (command.word = lit "PASV" ∨ command.word = lit "PORT") := by
      rw [hword]
      cases body <;> decide
    rw [if_neg hnot, hbody, hd]
    exact ⟨rfl, fun _ => by simp, fun d h => (by cases h)⟩

/-- What is seen of a line of the client `id` is what its command does. -/
theorem dataEvent_line {server : ServerT} {line : CStr} {ans : Answers} {c : Connection}
    (hc : S.conns id = some c) :
    dataEvent server id S (.line id line ans) S' = (commandOf line).bind fun command =>
      lineEvent server ans (Ctx.start S.world.os c) command (newReplies id S S') := by
  show (if id = id then (S.conns id).bind fun c => _ else none) = _
  rw [if_pos rfl, hc, Option.bind_some]

/-- A line of the client `id`: the data socket it leaves is the one that is seen. -/
theorem line_dataEvent {u : Setup} {events : List SessionEvent} {line : CStr} {ans : Answers}
    (hrun : (sessions u).run events = .ok S) (h : S.step u.server (.line id line ans) = .ok S') :
    ∃ c, S.conns id = some c ∧
      let seen := dataEvent u.server id S (.line id line ans) S'
      (∀ c', S'.conns id = some c' → c'.dataSocket = DataEvent.leaves seen c.dataSocket) ∧
      (seen = some .attempted → c.dataSocket ≠ none) ∧
      (∀ d, seen = some (.offered d) → offersTo S.world id < offersTo S'.world id) ∧
      offersTo S.world id ≤ offersTo S'.world id := by
  obtain ⟨c, status, s, hc, -, hout, hS'⟩ := line_outcome hrun h
  have hspeaks := (speaks_of_run hrun hc).1
  refine ⟨c, hc, ?_⟩
  dsimp only
  rw [dataEvent_line hc]
  by_cases hquit : status = .quit
  · -- the session ends; nothing is seen, and at most a good-bye is said
    unfold Sessions.after at hS'
    rw [if_pos hquit] at hS'
    have hseen : (commandOf line).bind (fun command => lineEvent u.server ans
        (Ctx.start S.world.os c) command (newReplies id S S')) = none := by
      cases hout with
      | quit command hparsed hword _ _ =>
        rw [hparsed, Option.bind_some]
        unfold lineEvent
        rw [if_neg (by rw [hword]; decide), transferOf_of_word (by rw [hword]; decide)]
        rfl
      | answered _ hstatus => exact absurd hquit hstatus
      | declined _ _ _ _ hstatus => exact absurd hquit hstatus
      | setUp _ _ _ hstatus => exact absurd hquit hstatus
      | transfer command body cwd hparsed hbody hrun' =>
        obtain ⟨-, -, d, hd⟩ := transferOf_eq_some hbody
        exact absurd hquit (transfer_outcome (hspeaks.inDir cwd) hd hrun').1
    have hle : offersTo S.world id ≤ offersTo S'.world id := by
      rw [hS']
      exact (Nat.le_add_right _ _).trans (offersTo_append id (w := S.world) rfl).ge
    rw [hseen]
    refine ⟨fun c' hc' => ?_, fun h => (by cases h), fun d h => (by cases h), hle⟩
    rw [hS'] at hc'
    simp [Sessions.handled] at hc'
  · obtain ⟨l, hl, -⟩ := hout.said hspeaks hquit
    rw [after_of_ne hquit] at hS'
    have hsent : S'.world.sent = S.world.sent ++ l.map (id, ·) := by
      rw [hS', ← show s.out = l.map (id, ·) from hl]
      rfl
    have hoffers := offersTo_append id hsent
    rw [repliesOf_own] at hoffers
    have hconn : ∀ c', S'.conns id = some c' → c' = s.conn := by
      intro c' hc'
      rw [hS'] at hc'
      simpa [Sessions.handled] using hc'.symm
    rw [newReplies_of_sent hsent]
    refine ⟨fun c' hc' => ?_, fun hseen => ?_, fun d hseen => ?_, by omega⟩
    · rw [hconn c' hc']
      cases hcommand : commandOf line with
      | none =>
        rw [hcommand] at hout
        cases hout with
        | answered _ _ _ htold _ => exact htold.dataSocket
        | quit _ hparsed => cases hparsed
        | declined _ _ hparsed => cases hparsed
        | setUp _ hparsed => cases hparsed
        | transfer _ _ _ hparsed => cases hparsed
      | some command =>
        rw [hcommand] at hout
        exact (lineEvent_of_outcome hspeaks hout hl).1
    · obtain ⟨command, hcommand, hseen⟩ := Option.bind_eq_some_iff.mp hseen
      rw [hcommand] at hout
      exact (lineEvent_of_outcome hspeaks hout hl).2.1 hseen
    · obtain ⟨command, hcommand, hseen⟩ := Option.bind_eq_some_iff.mp hseen
      rw [hcommand] at hout
      have hany := (lineEvent_of_outcome hspeaks hout hl).2.2 d hseen
      have hpos : 0 < l.countP Reply.offers := by
        obtain ⟨r, hr, hof⟩ := List.any_eq_true.mp hany
        exact List.countP_pos_iff.mpr ⟨r, hr, hof⟩
      omega

/-- Replies are only ever added. -/
theorem sent_grows {u : Setup} {e : SessionEvent} (h : S.step u.server e = .ok S') :
    ∃ l, S'.world.sent = S.world.sent ++ l := by
  cases e with
  | accept fd addr served =>
    obtain ⟨⟨c, w⟩, hacc, rfl⟩ := map_eq_ok h
    obtain ⟨-, -, rfl⟩ := World.accept_eq_ok hacc
    exact ⟨_, rfl⟩
  | line id line ans =>
    obtain ⟨c, parsed, -, -, ⟨status, s, -, -, rfl⟩ | ⟨command, -, -, rfl⟩⟩ := handleLine_eq_ok h
    · exact ⟨_, rfl⟩
    · exact ⟨_, rfl⟩
  | child k cans =>
    obtain ⟨w, hw, rfl⟩ := map_eq_ok h
    obtain ⟨id, child, s, -, -, rfl⟩ := World.runChild_eq_ok hw
    exact ⟨_, rfl⟩
  | hangup id =>
    cases h
    exact ⟨[], (List.append_nil _).symm⟩
  | dataConnect fd =>
    obtain ⟨w, hw, rfl⟩ := map_eq_ok h
    obtain ⟨pending, -, rfl⟩ := World.dataConnect_eq_ok hw
    exact ⟨[], (List.append_nil _).symm⟩

/-! ## Every run -/

/-- What the events seen so far say about the state. -/
structure Follow (u : Setup) (id : ConnId) (events : List SessionEvent) (S : Sessions) : Prop where
  fresh : S.world.nextId ≤ id → dataEvents u id events = []
  record : ∀ c, S.conns id = some c → c.dataSocket = pending (dataEvents u id events)
  count : attempts (dataEvents u id events) + (pending (dataEvents u id events)).toList.length ≤
    offersTo S.world id

theorem follow_of_run {u : Setup} {events : List SessionEvent} {S : Sessions}
    (h : (sessions u).run events = .ok S) (id : ConnId) : Follow u id events S := by
  refine Machine.run_induction (m := sessions u) (I := Follow u id) ?_ ?_ events S h
  · exact ⟨fun _ => rfl, fun c hc => (by cases hc), Nat.zero_le _⟩
  intro events S e S' hrun hI hstep
  have hseen : dataEvents u id (events ++ [e]) =
      dataEvents u id events ++ (dataEvent u.server id S e S').toList :=
    Machine.seen_append_step hrun hstep
  have hmono := (nextId_step hstep).1
  by_cases hline : ∃ line ans, e = .line id line ans
  · obtain ⟨line, ans, rfl⟩ := hline
    obtain ⟨c, hc, hrecord, hattempt, hoffer, hle⟩ := line_dataEvent hrun hstep
    have hprev := hI.record c hc
    have hcount := hI.count
    have hlt : ¬ S.world.nextId ≤ id := by
      intro hle
      rw [((fresh_of_run hrun) id hle).1] at hc
      cases hc
    cases hev : dataEvent u.server id S (.line id line ans) S' with
    | none =>
      rw [hev] at hseen hrecord
      rw [Option.toList_none, List.append_nil] at hseen
      refine ⟨fun hle => absurd (hmono.trans hle) hlt, fun c' hc' => ?_, ?_⟩
      · rw [hseen, ← hprev]
        exact hrecord c' hc'
      · rw [hseen]
        exact hcount.trans hle
    | some ev =>
      rw [hev] at hseen hrecord
      rw [Option.toList_some] at hseen
      refine ⟨fun hle => absurd (hmono.trans hle) hlt, fun c' hc' => ?_, ?_⟩
      · rw [hseen, pending_concat, hrecord c' hc']
        cases ev <;> rfl
      · rw [hseen, pending_concat, attempts_concat]
        cases ev with
        | offered d =>
          have := hoffer d hev
          simp
          omega
        | refused =>
          simp
          omega
        | attempted =>
          -- an attempt uses up the data socket that was pending
          obtain ⟨d, hd⟩ := Option.ne_none_iff_exists'.mp (hattempt hev)
          rw [hprev] at hd
          rw [hd] at hcount
          simp at hcount ⊢
          omega
  · have hev : dataEvent u.server id S e S' = none := by
      cases e with
      | line id' line ans =>
        unfold dataEvent
        exact if_neg fun hid => hline ⟨line, ans, by rw [hid]⟩
      | _ => rfl
    rw [hev, Option.toList_none, List.append_nil] at hseen
    refine ⟨fun hle => ?_, fun c hc => ?_, ?_⟩
    · rw [hseen]
      exact hI.fresh (hmono.trans hle)
    · rw [hseen]
      rcases record_cases hstep hc with ⟨hc', -⟩ | ⟨rfl, fd, addr, rfl, rfl⟩ |
        ⟨line, ans, _, _, _, _, rfl, -⟩
      · exact hI.record c hc'
      · rw [hI.fresh (Nat.le_refl _)]
        rfl
      · exact absurd ⟨line, ans, rfl⟩ hline
    · rw [hseen]
      obtain ⟨l, hl⟩ := sent_grows hstep
      have := offersTo_append id hl
      have := hI.count
      omega

/-- What an attempt shows: a child, or one of two replies. -/
theorem attempt_shows {u : Setup} {events : List SessionEvent} {line : CStr} {ans : Answers}
    (hrun : (sessions u).run events = .ok S) (h : S.step u.server (.line id line ans) = .ok S')
    (hseen : dataEvent u.server id S (.line id line ans) S' = some .attempted) :
    (newReplies id S S' = [] ∧ ∃ child, S'.world.children = S.world.children ++ [(id, child)]) ∨
      (newReplies id S S' = [.failedToEstablish] ∧ S'.world.children = S.world.children) ∨
      (ans.fork = false ∧ newReplies id S S' = [.localError] ∧
        S'.world.children = S.world.children) := by
  obtain ⟨c, status, s, hc, -, hout, hS'⟩ := line_outcome hrun h
  have hspeaks := (speaks_of_run hrun hc).1
  rw [dataEvent_line hc] at hseen
  obtain ⟨command, hcommand, hseen⟩ := Option.bind_eq_some_iff.mp hseen
  -- only a transfer is seen as an attempt
  have hof : transferOf u.server (Ctx.start S.world.os c) command ≠ none := by
    intro hnone
    unfold lineEvent at hseen
    rw [hnone] at hseen
    split at hseen
    next =>
      split at hseen
      next =>
        obtain ⟨fd, -, hseen⟩ := Option.bind_eq_some_iff.mp hseen
        obtain ⟨o, -, hseen⟩ := Option.map_eq_some_iff.mp hseen
        cases hseen
      next =>
        split at hseen
        next => cases hseen
        next => cases hseen
    next => cases hseen
  have hnot : ∀ {name : CStr}, command.word = name → bodyOf name = none → False := by
    intro name hw hbody
    exact hof (transferOf_of_word (by rw [hw, hbody]))
  rw [hcommand] at hout
  cases hout with
  | answered _ _ _ _ hword => exact absurd (hword command rfl).2.2 hof
  | quit command' hparsed hword =>
    obtain rfl := Option.some.inj hparsed
    exact (hnot hword (by decide)).elim
  | declined command' _ hparsed hword =>
    obtain rfl := Option.some.inj hparsed
    exact (hword.elim (fun hw => hnot hw (by decide)) fun hw => hnot hw (by decide)).elim
  | setUp command' hparsed hword =>
    obtain rfl := Option.some.inj hparsed
    exact (hword.elim (fun hw => hnot hw (by decide)) fun hw => hnot hw (by decide)).elim
  | transfer command' body cwd hparsed hbody hrun' =>
    obtain ⟨-, -, d, hd⟩ := transferOf_eq_some hbody
    obtain ⟨hstatus, connected, d₁, desc₁, hreach, -, rfl⟩ :=
      transfer_outcome (hspeaks.inDir cwd) hd hrun'
    rw [after_of_ne hstatus] at hS'
    have hnew : newReplies id S S' = transferReplies connected ans.fork :=
      newReplies_of_sent (by rw [hS']; rfl)
    have hchildren : S'.world.children = S.world.children ++
        (transferChildren connected ans.fork ⟨body, command', { c with dataSocket := some d₁ }, cwd,
          desc₁⟩).map (id, ·) := by
      rw [hS']
      rfl
    rw [hnew, hchildren]
    cases connected with
    | false => exact .inr (.inl ⟨rfl, List.append_nil _⟩)
    | true =>
      cases hfork : ans.fork with
      | true => exact .inl ⟨rfl, _, rfl⟩
      | false => exact .inr (.inr ⟨rfl, rfl, List.append_nil _⟩)

/-- An offer and a failure to set up are seen by their replies. -/
theorem seen_by_replies {server : ServerT} {e : SessionEvent} {ev : DataEvent}
    (h : dataEvent server id S e S' = some ev) :
    (∃ d, ev = .offered d ∧ (newReplies id S S').any Reply.offers = true) ∨
      (ev = .refused ∧ .localError ∈ newReplies id S S') ∨ ev = .attempted := by
  unfold dataEvent at h
  split at h
  next id' line ans =>
    split at h
    next =>
      obtain ⟨c, -, h⟩ := Option.bind_eq_some_iff.mp h
      obtain ⟨command, -, h⟩ := Option.bind_eq_some_iff.mp h
      unfold lineEvent at h
      split at h
      next =>
        split at h
        next hoffers =>
          obtain ⟨fd, -, h⟩ := Option.bind_eq_some_iff.mp h
          obtain ⟨o, -, rfl⟩ := Option.map_eq_some_iff.mp h
          exact .inl ⟨o.1, rfl, hoffers⟩
        next =>
          split at h
          next herror =>
            cases h
            exact .inr (.inl ⟨rfl, herror⟩)
          next => cases h
      next =>
        obtain ⟨body, -, rfl⟩ := Option.map_eq_some_iff.mp h
        exact .inr (.inr rfl)
    next => cases h
  next => cases h

/-- A line that is answered with anything but an offer, 425 `Failed to establish` or 451
leaves the data socket alone. -/
theorem refused_keeps {u : Setup} {events : List SessionEvent} {line : CStr} {ans : Answers}
    {c c' : Connection} {r : Reply} (hrun : (sessions u).run events = .ok S)
    (h : S.step u.server (.line id line ans) = .ok S') (hc : S.conns id = some c)
    (hc' : S'.conns id = some c') (hr : newReplies id S S' = [r])
    (hkind : r.offers = false ∧ r ≠ .failedToEstablish ∧ r ≠ .localError) :
    c'.dataSocket = c.dataSocket := by
  obtain ⟨hoffers, hfailed, herror⟩ := hkind
  obtain ⟨c₀, hc₀, hrecord, -⟩ := line_dataEvent hrun h
  obtain rfl : c₀ = c := Option.some.inj (hc₀.symm.trans hc)
  have hkeeps := hrecord c' hc'
  cases hev : dataEvent u.server id S (.line id line ans) S' with
  | none =>
    rw [hev] at hkeeps
    exact hkeeps
  | some ev =>
    -- each of the three events shows in another reply
    rcases seen_by_replies hev with ⟨d, -, hany⟩ | ⟨-, hmem⟩ | rfl
    · rw [hr, List.any_cons, hoffers] at hany
      cases hany
    · rw [hr, List.mem_singleton] at hmem
      exact absurd hmem.symm herror
    · rcases attempt_shows hrun h hev with ⟨hnil, -⟩ | ⟨hone, -⟩ | ⟨-, hone, -⟩
      · rw [hr] at hnil
        cases hnil
      · rw [hr] at hone
        exact absurd (List.singleton_inj.mp hone) hfailed
      · rw [hr] at hone
        exact absurd (List.singleton_inj.mp hone) herror

/-- A transfer without a data socket is answered 425, and nothing else happens. -/
theorem transfer_without {u : Setup} {events : List SessionEvent} {line : CStr} {ans : Answers}
    {c : Connection} {command : Command} {body : TransferBody}
    (hrun : (sessions u).run events = .ok S) (hc : S.conns id = some c) (hlog : c.loggedIn = true)
    (hnone : c.dataSocket = none) (hup : S.world.os.hungup id = false)
    (hcommand : commandOf line = some command) (hbody : bodyOf command.word = some body) :
    ∃ S', S.step u.server (.line id line ans) = .ok S' ∧ S'.conns id = some c ∧
      S'.world.sent = S.world.sent ++ [(id, .usePasvOrPort)] := by
  obtain ⟨hspeaks, W, hW⟩ := speaks_of_run hrun hc
  have hctl : S.world.os.desc c.clientSockfd = some (.control id) := hspeaks.owns.control
  have htests : transferTests u.server (Ctx.start S.world.os c) W command body =
      (some .usePasvOrPort, S.world.os.cwd) := by
    unfold transferTests
    rw [if_neg (by simp [Ctx.start, hlog])]
    exact if_pos hnone
  have hfinds : body = .executeLsCommand → ListFinds (Ctx.start S.world.os c) W command :=
    fun _ _ hdata => absurd hnone hdata
  have hx : executeCommand u.server ans (some command) (Ctx.start S.world.os c) = _ :=
    transferCommand_tests hW hbody hfinds
  have hkills : S.world.os.kills c.clientSockfd = false := by
    unfold Os.kills
    rw [hctl]
    simp [hup]
  have hparse : parseBuffer line = .ok (some command) := by
    unfold commandOf at hcommand
    split at hcommand
    next h => rw [h, hcommand]
    next => cases hcommand
  have hquit : ∀ command', some command = some command' → command'.word ≠ lit "QUIT" := by
    rintro command' ⟨rfl⟩ hw
    have hnobody : bodyOf (lit "QUIT") = none := by decide
    rw [hw, hnobody] at hbody
    cases hbody
  rw [htests] at hx
  dsimp only at hx
  rw [refuse_of_alive (by exact hkills)] at hx
  have hline : S.handleLine u.server id line ans = _ :=
    handleLine_of_executeCommand hc hparse hquit
  rw [hx] at hline
  refine ⟨_, hline, Function.update_self .., ?_⟩
  show S.world.sent ++ ([] ++ S.world.os.delivers c.clientSockfd .usePasvOrPort) = _
  rw [(delivered hctl hspeaks.sigpipe hkills .usePasvOrPort).1]
  rfl

end

/-- The record of a client holds a data socket exactly when the last thing that was
seen of one is an offer, and then it is the one that was offered. Attempts never
outnumber offers. Without a data socket a transfer is answered 425, and a refused
command leaves the data socket alone. -/
theorem pending_of_run (u : Setup) (events : List SessionEvent) (S : Sessions)
    (hrun : (sessions u).run events = .ok S) (id : ConnId) (c : Connection)
    (hc : S.conns id = some c) :
    (c.dataSocket ≠ none ↔ ∃ d, (dataEvents u id events).getLast? = some (.offered d)) ∧
      (∀ d, (dataEvents u id events).getLast? = some (.offered d) → c.dataSocket = some d) ∧
      attempts (dataEvents u id events) ≤ offersTo S.world id ∧
      (c.loggedIn = true → c.dataSocket = none → S.world.os.hungup id = false →
        ∀ line ans command body, commandOf line = some command →
          bodyOf command.word = some body →
          ∃ S', S.step u.server (.line id line ans) = .ok S' ∧ S'.conns id = some c ∧
            S'.world.sent = S.world.sent ++ [(id, .usePasvOrPort)]) ∧
      ∀ line ans S' c' r, S.step u.server (.line id line ans) = .ok S' → S'.conns id = some c' →
        newReplies id S S' = [r] → r.offers = false → r ≠ .failedToEstablish → r ≠ .localError →
          c'.dataSocket = c.dataSocket := by
  have hfollow := follow_of_run hrun id
  have hpending := hfollow.record c hc
  have hlast : ∀ d, (dataEvents u id events).getLast? = some (.offered d) →
      c.dataSocket = some d := by
    intro d hd
    rw [hpending, pending, hd]
  refine ⟨⟨fun hne => ?_, fun ⟨d, hd⟩ => ?_⟩, hlast, ?_, ?_, ?_⟩
  · rw [hpending] at hne
    unfold pending at hne
    split at hne
    next d hd => exact ⟨d, hd⟩
    next => exact absurd rfl hne
  · rw [hlast d hd]
    simp
  · exact (Nat.le_add_right _ _).trans hfollow.count
  · intro hlog hnone hup line ans command body hcommand hbody
    exact transfer_without hrun hc hlog hnone hup hcommand hbody
  · intro line ans S' c' r hstep hc' hr hoffers hfailed herror
    exact refused_keeps hrun hstep hc hc' hr ⟨hoffers, hfailed, herror⟩

/-- A client that logged in and sent `PORT`. -/
theorem pending_after_port :
    ∃ S c, (sessions smallSetup).run
        (oneClient ["USER anonymous", "PASS", "PORT 127,0,0,1,4,7"]) = .ok S ∧
      S.conns 0 = some c ∧
      (c.dataSocket ≠ none ↔ ∃ d, (dataEvents smallSetup 0
        (oneClient ["USER anonymous", "PASS", "PORT 127,0,0,1,4,7"])).getLast? =
          some (.offered d)) :=
  ⟨_, _, rfl, rfl, (pending_of_run smallSetup
    (oneClient ["USER anonymous", "PASS", "PORT 127,0,0,1,4,7"]) _ rfl 0 _ rfl).1⟩

end MyFtp.Server
