import MyFtp.Server.LostClient

/-!
# Lines that are read ahead

`poll` reports what waits in the kernel, and `handle_connection` takes one line when it
does. The stream takes all that waits when its buffer is empty, so that the lines after the
first are in the buffer, where `poll` does not see them.

> `no_line_behind_of_run`: in every run in which a read that empties the socket brings one
> complete line at most, no line stays behind at the next `poll`, and the lines executed are
> the lines received.

> `line_behind_of_read`: a read that brings more leaves a line behind.
-/

namespace MyFtp.Server

open MyFtp.Posix
open Prog

/-! ## What was received and what was executed -/

/-- The bytes of a client that have arrived in a run. -/
def arrived (id : ConnId) (events : List LoopEvent) : List Byte :=
  events.flatMap fun
    | .arrive id' bytes => if id' = id then bytes else []
    | _ => []

/-- The line of the client that a step executes. -/
def executedLine (id : ConnId) (w : Loop) : LoopEvent → Option CStr
  | .server _ =>
    match w.phase with
    | .executing i (some line) =>
      if (w.connections i).map Client.id = some id then some line else none
    | _ => none
  | _ => none

/-- The lines of a client that were executed in a run, in order. -/
def executed (u : Settings) (id : ConnId) (events : List LoopEvent) : List CStr :=
  (loop u).seen (fun w e _ => executedLine id w e) events

/-- What the call of `getline` that goes on has taken of the slot's stream. -/
def Phase.taken : Phase → SlotIndex → List Byte
  | .reading j taken, i => if j = i then taken else []
  | _, _ => []

/-- The line of the slot that was read and is executed next. -/
def Phase.next : Phase → SlotIndex → List CStr
  | .executing j (some line), i => if j = i then [line] else []
  | _, _ => []

theorem taken_reading (i : SlotIndex) (taken : List Byte) :
    (Phase.reading i taken).taken i = taken :=
  if_pos rfl

theorem next_executing (i : SlotIndex) (line : CStr) :
    (Phase.executing i (some line)).next i = [line] :=
  if_pos rfl

/-- What goes on is nothing to the slot. -/
def Phase.Elsewhere (phase : Phase) (i : SlotIndex) : Prop :=
  phase.next i = [] ∧ phase.taken i = []

/-- Of the bytes of a client some are lines that were executed, or are about to be, and the
others are still `ahead` of that. -/
def LinesOf (arrived : List Byte) (executed next : List CStr) (taken ahead : List Byte) : Prop :=
  ∃ lines : List (List Byte), (∀ l ∈ lines, IsLine l) ∧ arrived = lines.flatten ++
    (taken ++ ahead) ∧
    newline ∉ taken ∧ executed ++ next = lines.map fun l => cstr l.dropLast

/-- Every byte of a client that is still there is accounted for. -/
structure Kept (u : Settings) (events : List LoopEvent) (w : Loop) : Prop where
  unknown : ∀ id, w.world.nextId ≤ id → w.world.os.hungup id = false →
    w.received id = arrived id events ∧ executed u id events = []
  known : ∀ i c, w.connections i = some c → w.world.os.hungup c.id = false →
    LinesOf (arrived c.id events) (executed u c.id events) (w.phase.next i) (w.phase.taken i)
      (c.buffer ++ w.received c.id)

section

variable {u : Settings} {w w' : Loop} {events : List LoopEvent} {e : LoopEvent} {calls : Calls}
  {i : SlotIndex} {c : Client} {id : ConnId}

theorem arrived_append (id : ConnId) (events : List LoopEvent) (e : LoopEvent) :
    arrived id (events ++ [e]) = arrived id events ++ arrived id [e] :=
  List.flatMap_append

theorem executed_append (hrun : (loop u).run events = .ok w) (hstep : w.step u e = .ok w')
    (id : ConnId) :
    executed u id (events ++ [e]) = executed u id events ++ (executedLine id w e).toList :=
  Machine.seen_append_step (f := fun w e _ => executedLine id w e) hrun hstep

/-- A line is executed for the client of its slot. -/
theorem executedLine_eq_some {line : CStr} (h : executedLine id w e = some line) :
    ∃ i c, w.phase = .executing i (some line) ∧ w.connections i = some c ∧ c.id = id := by
  unfold executedLine at h
  split at h
  next =>
    split at h
    next i line' hphase =>
      split at h
      next hid =>
        obtain ⟨c, hc, hid⟩ := Option.map_eq_some_iff.mp hid
        obtain rfl := Option.some.inj h
        exact ⟨i, c, hphase, hc, hid⟩
      next => cases h
    next => cases h
  next => cases h

theorem executedLine_eq_none (h : ∀ i line, w.phase ≠ .executing i (some line)) :
    executedLine id w e = none := by
  rw [Option.eq_none_iff_forall_ne_some]
  intro line hline
  obtain ⟨i, c, hphase, -⟩ := executedLine_eq_some hline
  exact h i line hphase

/-- Only a client with a slot is read. -/
theorem received_server (h : w.server u calls = .ok w')
    (hid : ∀ i c, w.connections i = some c → c.id ≠ id) : w'.received id = w.received id := by
  cases server_step h with
  | more i taken taken' buffer waiting c hphase hc =>
    exact Function.update_of_ne (hid i c hc).symm ..
  | _ => rfl

/-- The clients that come have none of the numbers that were given out. -/
theorem known_ids (hrun : (loop u).run events = .ok w) (hid : w.world.nextId ≤ id) :
    ∀ i c, w.connections i = some c → c.id ≠ id := by
  rintro i c hc rfl
  exact Nat.not_lt_of_le hid ((recordOf_of_run hrun i c hc).known hrun)

/-- The server goes on: a client that is still to come. -/
theorem Kept.unknown_server (hA : Kept u events w) (hrun : (loop u).run events = .ok w)
    (h : w.server u calls = .ok w') (hid : w'.world.nextId ≤ id)
    (hup : w'.world.os.hungup id = false) :
    w'.received id = arrived id (events ++ [.server calls]) ∧
      executed u id (events ++ [.server calls]) = [] := by
  have hid₀ : w.world.nextId ≤ id := Nat.le_trans (nextId_server h) hid
  rw [hungup_server h] at hup
  obtain ⟨hreceived, hexecuted⟩ := hA.unknown id hid₀ hup
  have hnone : executedLine id w (.server calls) = none := by
    rw [Option.eq_none_iff_forall_ne_some]
    intro line hline
    obtain ⟨i, c, -, hc, hid'⟩ := executedLine_eq_some hline
    exact known_ids hrun hid₀ i c hc hid'
  have hstep : w.step u (.server calls) = .ok w' := h
  rw [received_server h (known_ids hrun hid₀), hreceived, arrived_append,
    executed_append hrun hstep, hexecuted, hnone]
  exact ⟨(List.append_nil _).symm, rfl⟩

/-- The server goes on, and it is nothing to the client in the slot. -/
theorem Kept.elsewhere (hA : Kept u events w) (hrun : (loop u).run events = .ok w)
    (h : w.server u calls = .ok w') (hc : w.connections i = some c)
    (hup : w.world.os.hungup c.id = false) (hreceived : w'.received c.id = w.received c.id)
    (hbefore : w.phase.Elsewhere i) (hafter : w'.phase.Elsewhere i) :
    LinesOf (arrived c.id (events ++ [.server calls])) (executed u c.id (events ++ [.server calls]))
      (w'.phase.next i) (w'.phase.taken i) (c.buffer ++ w'.received c.id) := by
  have hnone : executedLine c.id w (.server calls) = none := by
    rw [Option.eq_none_iff_forall_ne_some]
    intro line hline
    obtain ⟨j, c', hphase, hc', hid⟩ := executedLine_eq_some hline
    obtain rfl := apart_of_run hrun j i c' c hc' hc hid
    have hnext := hbefore.1
    rw [hphase, Phase.next, if_pos rfl] at hnext
    cases hnext
  have hlines := hA.known i c hc hup
  rw [hbefore.1, hbefore.2] at hlines
  have hstep : w.step u (.server calls) = .ok w' := h
  rw [arrived_append, executed_append hrun hstep, hnone, hreceived, hafter.1, hafter.2]
  show LinesOf (_ ++ []) (_ ++ []) _ _ _
  rw [List.append_nil, List.append_nil]
  exact hlines

theorem elsewhere_reading {j : SlotIndex} (hj : j ≠ i) (taken : List Byte) :
    (Phase.reading j taken).Elsewhere i :=
  ⟨rfl, if_neg hj⟩

theorem elsewhere_executing {j : SlotIndex} (hj : j ≠ i) (buffer : Option CStr) :
    (Phase.executing j buffer).Elsewhere i := by
  cases buffer with
  | none => exact ⟨rfl, rfl⟩
  | some line => exact ⟨if_neg hj, rfl⟩

/-- A line of the slot is complete. -/
theorem LinesOf.line {bytes rest taken buffer received : List Byte} {done : List CStr}
    {text : List Byte} (h : LinesOf bytes done [] taken (buffer ++ received))
    (htext : newline ∉ text) (hbuffer : buffer = text ++ newline :: rest) :
    LinesOf bytes done [cstr (taken ++ text)] [] (rest ++ received) := by
  obtain ⟨lines, hlines, hbytes, htaken, hdone⟩ := h
  refine ⟨lines ++ [taken ++ text ++ [newline]], fun l hl => ?_, ?_, List.not_mem_nil, ?_⟩
  · rcases List.mem_append.mp hl with hl | hl
    · exact hlines l hl
    · obtain rfl := List.mem_singleton.mp hl
      refine ⟨taken ++ text, fun hmem => ?_, rfl⟩
      exact (List.mem_append.mp hmem).elim htaken htext
  · rw [hbytes, hbuffer]
    simp
  · rw [List.append_nil] at hdone
    rw [List.map_append, ← hdone]
    simp

/-- The buffer is used up, and filled again. -/
theorem LinesOf.more {bytes taken buffer received : List Byte} {done : List CStr} (n : Nat)
    (h : LinesOf bytes done [] taken (buffer ++ received)) (hbuffer : newline ∉ buffer) :
    LinesOf bytes done [] (taken ++ buffer) (received.take n ++ received.drop n) := by
  obtain ⟨lines, hlines, hbytes, htaken, hdone⟩ := h
  refine ⟨lines, hlines, ?_, fun hmem => ?_, hdone⟩
  · rw [hbytes, List.take_append_drop, List.append_assoc taken]
  · exact (List.mem_append.mp hmem).elim htaken hbuffer

/-- The line that `read_socket` makes of one with its newline. -/
theorem readSocket_line (text : List Byte) : readSocket (text ++ [newline]) = some (cstr text) := by
  unfold readSocket
  rw [if_neg (by simp), List.getLast?_concat, if_pos rfl, List.dropLast_concat]

/-- The server goes on: a client in a slot. -/
theorem Kept.known_server (hA : Kept u events w) (hrun : (loop u).run events = .ok w)
    (h : w.server u calls = .ok w') (hstop : w.stopServer = false) (hc : w'.connections i = some c)
    (hup : w'.world.os.hungup c.id = false) :
    LinesOf (arrived c.id (events ++ [.server calls])) (executed u c.id (events ++ [.server calls]))
      (w'.phase.next i) (w'.phase.taken i) (c.buffer ++ w'.received c.id) := by
  rw [hungup_server h] at hup
  have happ : arrived c.id (events ++ [.server calls]) = arrived c.id events := by
    rw [arrived_append]
    exact List.append_nil _
  have hstep : w.step u (.server calls) = .ok w' := h
  have hexec := executed_append hrun hstep c.id
  cases server_step h with
  | leave hphase =>
    exact hA.elsewhere hrun h hc hup rfl (by rw [hphase]; exact ⟨rfl, rfl⟩) ⟨rfl, rfl⟩
  | poll ready hphase =>
    exact hA.elsewhere hrun h hc hup rfl (by rw [hphase]; exact ⟨rfl, rfl⟩) ⟨rfl, rfl⟩
  | nobody hphase =>
    exact hA.elsewhere hrun h hc hup rfl (by rw [hphase]; exact ⟨rfl, rfl⟩) ⟨rfl, rfl⟩
  | full fd addr connection world hphase =>
    exact hA.elsewhere hrun h hc hup rfl (by rw [hphase]; exact ⟨rfl, rfl⟩) ⟨rfl, rfl⟩
  | accepted fd addr connection world j hphase hready haccept hworld hfree =>
    rcases update_entry hc with ⟨rfl, hnew⟩ | ⟨-, hold⟩
    · split at hnew
      next =>
        -- what has arrived by now is all in the kernel
        obtain rfl := Option.some.inj hnew
        obtain ⟨hreceived, hnothing⟩ := hA.unknown _ (Nat.le_refl _) hup
        rw [happ, hexec, hnothing, executedLine_eq_none (by rw [hphase]; simp)]
        exact ⟨[], by simp, hreceived.symm, List.not_mem_nil, rfl⟩
      next => cases hnew
    · exact hA.elsewhere hrun h hold hup rfl (by rw [hphase]; exact ⟨rfl, rfl⟩) ⟨rfl, rfl⟩
  | served k hphase =>
    exact hA.elsewhere hrun h hc hup rfl (by rw [hphase]; exact ⟨rfl, rfl⟩) ⟨rfl, rfl⟩
  | enter k j hphase =>
    exact hA.elsewhere hrun h hc hup rfl (by rw [hphase]; exact ⟨rfl, rfl⟩) ⟨rfl, ite_self _⟩
  | line j taken bytes rest c₀ hphase hc₀ hturn =>
    rcases update_entry hc with ⟨rfl, hnew⟩ | ⟨hj, hold⟩
    · obtain rfl := Option.some.inj hnew
      obtain ⟨text, htext, hbuffer, rfl⟩ := getlineTurn_eq_line hturn
      have hlines := hA.known i c₀ hc₀ hup
      rw [hphase, taken_reading] at hlines
      dsimp only at hexec happ ⊢
      rw [happ, hexec, executedLine_eq_none (by rw [hphase]; simp), readSocket_line,
        next_executing]
      show LinesOf _ (_ ++ []) _ _ _
      rw [List.append_nil]
      exact hlines.line htext hbuffer
    · refine hA.elsewhere hrun h hold hup rfl ?_ (elsewhere_executing hj _)
      rw [hphase]
      exact elsewhere_reading hj taken
  | more j taken taken' buffer waiting c₀ hphase hc₀ hturn =>
    rcases update_entry hc with ⟨rfl, hnew⟩ | ⟨hj, hold⟩
    · obtain rfl := Option.some.inj hnew
      obtain ⟨hbuffer, rfl, rfl, rfl⟩ := getlineTurn_eq_more hturn
      have hlines := hA.known i c₀ hc₀ hup
      rw [hphase, taken_reading] at hlines
      dsimp only at hexec happ ⊢
      rw [happ, hexec, executedLine_eq_none (by rw [hphase]; simp), taken_reading,
        Function.update_self]
      show LinesOf _ (_ ++ []) _ _ _
      rw [List.append_nil]
      exact hlines.more u.bufsiz hbuffer
    · have hid : c.id ≠ c₀.id := fun hid => hj (apart_of_run hrun j i c₀ c hc₀ hold hid.symm)
      refine hA.elsewhere hrun h hold hup (Function.update_of_ne hid ..) ?_
        (elsewhere_reading hj _)
      rw [hphase]
      exact elsewhere_reading hj taken
  | ended j taken bytes c₀ hphase hc₀ hturn =>
    rcases update_entry hc with ⟨rfl, hnew⟩ | ⟨hj, hold⟩
    · -- a stream ends when its client is gone, or when a signal was caught
      obtain rfl := Option.some.inj hnew
      have hended := (getlineTurn_eq_ended hturn).1
      dsimp only at hup
      rw [hup, hstop, Bool.and_false] at hended
      cases hended
    · refine hA.elsewhere hrun h hold hup rfl ?_ (elsewhere_executing hj _)
      rw [hphase]
      exact elsewhere_reading hj taken
  | execute j buffer c₀ fd stays connection world hphase hc₀ hfd hexec₀ =>
    rcases update_entry hc with ⟨rfl, hnew⟩ | ⟨hj, hold⟩
    · split at hnew
      next =>
        obtain rfl := Option.some.inj hnew
        have hlines := hA.known i c₀ hc₀ hup
        dsimp only at hexec happ ⊢
        rw [happ, hexec]
        cases buffer with
        | none =>
          rw [hphase] at hlines
          rw [executedLine, hphase]
          show LinesOf _ (_ ++ []) _ _ _
          rw [List.append_nil]
          exact hlines
        | some line =>
          obtain ⟨lines, hlines, hbytes, htaken, hdone⟩ := hlines
          rw [hphase, next_executing] at hdone
          rw [executedLine, hphase]
          dsimp only
          rw [hc₀, Option.map_some, if_pos rfl]
          refine ⟨lines, hlines, ?_, List.not_mem_nil, ?_⟩
          · rw [hphase] at hbytes
            exact hbytes
          · show (_ ++ [line]) ++ [] = _
            rw [List.append_nil, hdone]
      next => cases hnew
    · refine hA.elsewhere hrun h hold hup rfl ?_ ⟨rfl, rfl⟩
      rw [hphase]
      exact elsewhere_executing hj buffer
  | destroy k j c₀ fd connection world hphase hnext hc₀ hfd hexec₀ =>
    rcases update_entry hc with ⟨rfl, hnew⟩ | ⟨hj, hold⟩
    · cases hnew
    · exact hA.elsewhere hrun h hold hup rfl (by rw [hphase]; exact ⟨rfl, rfl⟩) ⟨rfl, rfl⟩
  | stop k hphase =>
    exact hA.elsewhere hrun h hc hup rfl (by rw [hphase]; exact ⟨rfl, rfl⟩) ⟨rfl, rfl⟩

/-- What arrives is received, as long as the client is there. -/
theorem received_elsewhere (hserver : ∀ calls, e ≠ .server calls) (h : w.step u e = .ok w')
    (hup : w'.world.os.hungup id = false) :
    w.world.os.hungup id = false ∧ w'.received id = w.received id ++ arrived id [e] := by
  cases e with
  | server calls => exact absurd rfl (hserver calls)
  | arrive id' bytes =>
    unfold Loop.step at h
    dsimp only at h
    split at h
    next => cases h
    next =>
      cases h
      refine ⟨hup, ?_⟩
      show Function.update w.received id' (w.received id' ++ bytes) id =
        w.received id ++ ((if id' = id then bytes else []) ++ [])
      by_cases hid : id' = id
      · subst hid
        rw [Function.update_self, if_pos rfl, List.append_nil]
      · rw [Function.update_of_ne (Ne.symm hid), if_neg hid, List.append_nil, List.append_nil]
  | hangup id' reset =>
    cases h
    have hup' : Function.update w.world.os.hungup id' true id = false := hup
    have hid : id ≠ id' := by
      rintro rfl
      rw [Function.update_self] at hup'
      cases hup'
    rw [Function.update_of_ne hid] at hup'
    refine ⟨hup', ?_⟩
    show (if reset then Function.update w.received id' [] else w.received) id =
      w.received id ++ []
    rw [List.append_nil]
    split
    next => rw [Function.update_of_ne hid]
    next => rfl
  | dataConnect fd =>
    obtain ⟨world, hworld, rfl⟩ := map_eq_ok h
    obtain ⟨pending, -, rfl⟩ := World.dataConnect_eq_ok hworld
    exact ⟨hup, (List.append_nil _).symm⟩
  | child k cans =>
    obtain ⟨world, hworld, rfl⟩ := map_eq_ok h
    obtain ⟨id', child, s, -, -, rfl⟩ := World.runChild_eq_ok hworld
    exact ⟨hup, (List.append_nil _).symm⟩
  | signal =>
    cases h
    exact ⟨hup, (List.append_nil _).symm⟩

/-- Somebody else does something. -/
theorem Kept.step_elsewhere (hA : Kept u events w) (hrun : (loop u).run events = .ok w)
    (hserver : ∀ calls, e ≠ .server calls) (h : w.step u e = .ok w') :
      Kept u (events ++ [e]) w' := by
  obtain ⟨hfds, hconns, hphase⟩ := arrays_elsewhere hserver h
  have hnone : ∀ id, executed u id (events ++ [e]) = executed u id events := by
    intro id
    have hquiet : executedLine id w e = none := by
      cases e with
      | server calls => exact absurd rfl (hserver calls)
      | _ => rfl
    rw [executed_append hrun h, hquiet]
    exact List.append_nil _
  refine ⟨fun id hid hup => ?_, fun i c hc hup => ?_⟩
  · obtain ⟨hup₀, hbytes⟩ := received_elsewhere hserver h hup
    rw [nextId_elsewhere hserver h] at hid
    obtain ⟨hrec, hexec⟩ := hA.unknown id hid hup₀
    rw [hbytes, hrec, arrived_append, hnone, hexec]
    exact ⟨rfl, rfl⟩
  · obtain ⟨hup₀, hbytes⟩ := received_elsewhere hserver h hup
    rw [hconns] at hc
    obtain ⟨lines, hlines, hold, htaken, hdone⟩ := hA.known i c hc hup₀
    rw [hphase, hnone, hbytes, arrived_append]
    refine ⟨lines, hlines, ?_, htaken, hdone⟩
    rw [hold]
    simp only [List.append_assoc]

/-- **One step.** -/
theorem Kept.step (hA : Kept u events w) (hrun : (loop u).run events = .ok w)
    (hstop : w.stopServer = false) (h : w.step u e = .ok w') : Kept u (events ++ [e]) w' := by
  by_cases hserver : ∃ calls, e = .server calls
  · obtain ⟨calls, rfl⟩ := hserver
    exact ⟨fun id hid hup => hA.unknown_server hrun h hid hup,
      fun i c hc hup => hA.known_server hrun h hstop hc hup⟩
  · exact hA.step_elsewhere hrun (fun calls he => hserver ⟨calls, he⟩) h

/-- A signal that was caught is remembered. -/
theorem stopServer_mono (h : w.step u e = .ok w') (hstop : w'.stopServer = false) :
    w.stopServer = false := by
  cases e with
  | server calls =>
    have hserver : w.server u calls = .ok w' := h
    cases server_step hserver with
    | _ => exact hstop
  | arrive id bytes =>
    unfold Loop.step at h
    dsimp only at h
    split at h
    next => cases h
    next =>
      cases h
      exact hstop
  | hangup id reset =>
    cases h
    exact hstop
  | dataConnect fd =>
    obtain ⟨world, -, rfl⟩ := map_eq_ok h
    exact hstop
  | child k cans =>
    obtain ⟨world, -, rfl⟩ := map_eq_ok h
    exact hstop
  | signal =>
    cases h
    cases hstop

/-- **Nothing is lost.** In every run, until a signal is caught, what a client sent is the
lines that were executed, and what is still ahead. -/
theorem kept_of_run (hrun : (loop u).run events = .ok w) (hstop : w.stopServer = false) :
    Kept u events w := by
  refine Machine.run_induction (m := loop u)
    (I := fun events w => w.stopServer = false → Kept u events w) ?_ ?_ events w hrun hstop
  · intro _
    exact ⟨fun id _ _ => ⟨rfl, rfl⟩, fun i c hc => by cases hc⟩
  · intro events w e w' hrun hI hstep hstop
    have hstop₀ := stopServer_mono hstep hstop
    exact (hI hstop₀).step hrun hstop₀ hstep

/-! ## Lines that stay behind -/

/-- A read that empties the socket of a client brings one complete line at most. -/
def BringsOne (u : Settings) (w : Loop) : LoopEvent → Prop
  | .server _ =>
    match w.phase with
    | .reading i _ => ∀ c ∈ w.connections i, w.stopServer = false →
        w.world.os.hungup c.id = false → newline ∉ c.buffer →
          (w.received c.id).length ≤ u.bufsiz → (w.received c.id).count newline ≤ 1
    | _ => True
  | _ => True

instance (w : Loop) : ∀ e, Decidable (BringsOne u w e)
  | .server _ => by
    unfold BringsOne
    dsimp only
    split
    next => infer_instance
    next => exact .isTrue trivial
  | .arrive .. | .hangup .. | .dataConnect _ | .child .. | .signal => .isTrue trivial

/-- How many complete lines the buffer of the slot may hold when nothing waits behind it:
the one that is read now. -/
def Phase.room : Phase → SlotIndex → Nat
  | .reading j _, i => if j = i then 1 else 0
  | _, _ => 0

/-- Where nothing waits in the kernel, no line is in the buffer but the one that is read. -/
def NoneBehind (w : Loop) : Prop :=
  ∀ i c, w.connections i = some c → w.world.os.hungup c.id = false → w.received c.id = [] →
    c.buffer.count newline ≤ w.phase.room i

/-- The server goes on. -/
theorem NoneBehind.server (hN : NoneBehind w) (hrun : (loop u).run events = .ok w)
    (hstop : w.stopServer = false) (hone : BringsOne u w (.server calls))
    (h : w.server u calls = .ok w') : NoneBehind w' := by
  intro i c hc hup hempty
  rw [hungup_server h] at hup
  -- an entry that stays as it is, in a phase that is nothing to it
  have hquiet : w.connections i = some c → w.received c.id = [] → w.phase.room i = 0 →
      c.buffer.count newline ≤ w'.phase.room i := by
    intro hc₀ hempty₀ hroom
    have hbound := hN i c hc₀ hup hempty₀
    rw [hroom] at hbound
    exact Nat.le_trans hbound (Nat.zero_le _)
  cases server_step h with
  | leave hphase => exact hquiet hc hempty (by rw [hphase]; rfl)
  | poll ready hphase => exact hquiet hc hempty (by rw [hphase]; rfl)
  | nobody hphase => exact hquiet hc hempty (by rw [hphase]; rfl)
  | full fd addr connection world hphase => exact hquiet hc hempty (by rw [hphase]; rfl)
  | accepted fd addr connection world j hphase =>
    rcases update_entry hc with ⟨rfl, hnew⟩ | ⟨hj, hold⟩
    · split at hnew
      next =>
        obtain rfl := Option.some.inj hnew
        exact Nat.zero_le _
      next => cases hnew
    · exact hquiet hold hempty (by rw [hphase]; rfl)
  | served k hphase => exact hquiet hc hempty (by rw [hphase]; rfl)
  | enter k j hphase => exact hquiet hc hempty (by rw [hphase]; rfl)
  | line j taken bytes rest c₀ hphase hc₀ hturn =>
    rcases update_entry hc with ⟨rfl, hnew⟩ | ⟨hj, hold⟩
    · obtain rfl := Option.some.inj hnew
      obtain ⟨text, htext, hbuffer, -⟩ := getlineTurn_eq_line hturn
      have hbound := hN i c₀ hc₀ hup hempty
      rw [hphase, hbuffer, List.count_append, List.count_cons_self] at hbound
      have hroom : (Phase.reading i taken).room i = 1 := if_pos rfl
      show rest.count newline ≤ 0
      omega
    · exact hquiet hold hempty (by rw [hphase]; exact if_neg hj)
  | more j taken taken' buffer waiting c₀ hphase hc₀ hturn =>
    rcases update_entry hc with ⟨rfl, hnew⟩ | ⟨hj, hold⟩
    · -- the socket is empty, and so everything that waited is in the buffer
      obtain rfl := Option.some.inj hnew
      obtain ⟨hbuffer, rfl, rfl, rfl⟩ := getlineTurn_eq_more hturn
      have hdrop : (w.received c₀.id).drop u.bufsiz = [] := by
        have hempty' : Function.update w.received c₀.id _ c₀.id = [] := hempty
        rwa [Function.update_self] at hempty'
      have hlength : (w.received c₀.id).length ≤ u.bufsiz := List.drop_eq_nil_iff.mp hdrop
      have hbound : (w.received c₀.id).count newline ≤ 1 := by
        unfold BringsOne at hone
        rw [hphase] at hone
        exact hone c₀ hc₀ hstop hup hbuffer hlength
      have hroom : (Phase.reading i (taken ++ c₀.buffer)).room i = 1 := if_pos rfl
      show ((w.received c₀.id).take u.bufsiz).count newline ≤ _
      rw [List.take_of_length_le hlength, hroom]
      exact hbound
    · have hid : c.id ≠ c₀.id := fun hid => hj (apart_of_run hrun j i c₀ c hc₀ hold hid.symm)
      have hempty' : Function.update w.received c₀.id waiting c.id = [] := hempty
      rw [Function.update_of_ne hid] at hempty'
      exact hquiet hold hempty' (by rw [hphase]; exact if_neg hj)
  | ended j taken bytes c₀ hphase hc₀ hturn =>
    rcases update_entry hc with ⟨rfl, hnew⟩ | ⟨hj, hold⟩
    · obtain rfl := Option.some.inj hnew
      exact Nat.zero_le _
    · exact hquiet hold hempty (by rw [hphase]; exact if_neg hj)
  | execute j buffer c₀ fd stays connection world hphase hc₀ =>
    rcases update_entry hc with ⟨rfl, hnew⟩ | ⟨hj, hold⟩
    · split at hnew
      next =>
        obtain rfl := Option.some.inj hnew
        have hbound := hN i c₀ hc₀ hup hempty
        rw [hphase] at hbound
        exact hbound
      next => cases hnew
    · exact hquiet hold hempty (by rw [hphase]; rfl)
  | destroy k j c₀ fd connection world hphase =>
    rcases update_entry hc with ⟨rfl, hnew⟩ | ⟨hj, hold⟩
    · cases hnew
    · exact hquiet hold hempty (by rw [hphase]; rfl)
  | stop k hphase => exact hquiet hc hempty (by rw [hphase]; rfl)

/-- **One step.** -/
theorem NoneBehind.step (hN : NoneBehind w) (hrun : (loop u).run events = .ok w)
    (hstop : w.stopServer = false) (hone : BringsOne u w e) (h : w.step u e = .ok w') :
    NoneBehind w' := by
  by_cases hserver : ∃ calls, e = .server calls
  · obtain ⟨calls, rfl⟩ := hserver
    exact hN.server hrun hstop hone h
  · have hother : ∀ calls, e ≠ .server calls := fun calls he => hserver ⟨calls, he⟩
    obtain ⟨-, hconns, hphase⟩ := arrays_elsewhere hother h
    intro i c hc hup hempty
    obtain ⟨hup₀, hbytes⟩ := received_elsewhere hother h hup
    rw [hbytes] at hempty
    rw [hconns] at hc
    rw [hphase]
    exact hN i c hc hup₀ (List.append_eq_nil_iff.mp hempty).1

/-- Every run in which each read brings one line at most leaves none behind. -/
theorem noneBehind_of_run (hrun : (loop u).run events = .ok w)
    (hmeets : (loop u).Meets (BringsOne u) events) (hstop : w.stopServer = false) :
    NoneBehind w := by
  have hboth : (loop u).run events = .ok w ∧ (w.stopServer = false → NoneBehind w) := by
    refine Machine.run_invariant_of_meets (m := loop u) (C := BringsOne u)
      (I := fun events w => (loop u).run events = .ok w ∧ (w.stopServer = false → NoneBehind w))
      ⟨rfl, fun _ i c hc => by cases hc⟩ ?_ events w hmeets hrun
    rintro events w e w' ⟨hrun, hI⟩ hone hstep
    refine ⟨Machine.run_append_step hrun hstep, fun hstop => ?_⟩
    have hstop₀ := stopServer_mono hstep hstop
    exact (hI hstop₀).step hrun hstop₀ hone hstep
  exact hboth.2 hstop

/-- A read that empties the socket and brings two lines leaves one behind: when the first is
executed, the second is in the buffer, and nothing waits. -/
theorem line_behind_of_read {taken : List Byte} (hphase : w.phase = .reading i taken)
    (hc : w.connections i = some c) (hbreaks : ¬ BringsOne u w (.server calls)) (calls' : Calls) :
    ∃ w₁ w₂ line c', w.step u (.server calls) = .ok w₁ ∧ w₁.step u (.server calls') = .ok w₂ ∧
      w₂.phase = .executing i (some line) ∧ w₂.connections i = some c' ∧ c'.id = c.id ∧
        w₂.received c.id = [] ∧ newline ∈ c'.buffer := by
  unfold BringsOne at hbreaks
  rw [hphase] at hbreaks
  simp only [hc, Option.mem_def, Option.some.injEq, forall_eq'] at hbreaks
  push Not at hbreaks
  obtain ⟨hstop, hup, hbuffer, hlength, hmany⟩ := hbreaks
  have hwaits : newline ∈ w.received c.id := List.count_pos_iff.mp (by omega)
  have hne : w.received c.id ≠ [] := List.ne_nil_of_mem hwaits
  obtain ⟨text, rest, htext, hbytes, htake⟩ := first_line hwaits
  have hrest : newline ∈ rest := by
    rw [hbytes, List.count_append, List.count_cons_self, List.count_eq_zero.mpr htext] at hmany
    exact List.count_pos_iff.mp (by omega)
  let w₁ : Loop := { w with
    connections := Function.update w.connections i (some { c with buffer := w.received c.id })
    received := Function.update w.received c.id []
    phase := .reading i (taken ++ c.buffer) }
  have hread : w.step u (.server calls) = .ok w₁ := by
    show w.server u calls = _
    unfold Loop.server
    rw [hphase]
    dsimp only
    unfold readTurn
    rw [hc]
    dsimp only
    rw [getlineTurn, if_neg hbuffer, if_pos hne, List.take_of_length_le hlength,
      List.drop_of_length_le hlength]
  have hline : w₁.step u (.server calls') = .ok { w₁ with
      connections := Function.update w₁.connections i (some { c with buffer := rest })
      phase := .executing i (some (cstr (taken ++ c.buffer ++ text))) } := by
    show readTurn u calls' w₁ i (taken ++ c.buffer) = _
    have hentry : w₁.connections i = some { c with buffer := w.received c.id } :=
      Function.update_self ..
    unfold readTurn
    rw [hentry]
    dsimp only
    rw [getlineTurn, if_pos hwaits, htake]
    dsimp only
    rw [← List.append_assoc, readSocket_line]
  exact ⟨w₁, _, _, { c with buffer := rest }, hread, hline, rfl, Function.update_self .., rfl,
    Function.update_self .., hrest⟩

end

/-- **No line stays behind** when each read that empties a socket brings one line at most.
Whenever the server is about to poll and nothing waits in the kernel for a client that is
still there, its stream holds no complete line, and the lines executed are the complete lines
it sent. -/
theorem no_line_behind_of_run (u : Settings) (events : List LoopEvent) (w : Loop)
    (hrun : (loop u).run events = .ok w) (hmeets : (loop u).Meets (BringsOne u) events)
    (hphase : w.phase = .polling) (hstop : w.stopServer = false) (i : SlotIndex) (c : Client)
    (hc : w.connections i = some c) (hup : w.world.os.hungup c.id = false)
    (hempty : w.received c.id = []) :
    newline ∉ c.buffer ∧ executed u c.id events =
      (completeLines (arrived c.id events)).map fun l => cstr l.dropLast := by
  have hbuffer : newline ∉ c.buffer := by
    have hbound := noneBehind_of_run hrun hmeets hstop i c hc hup hempty
    rw [hphase] at hbound
    exact List.count_eq_zero.mp (Nat.le_zero.mp hbound)
  obtain ⟨lines, hlines, hbytes, -, hdone⟩ := (kept_of_run hrun hstop).known i c hc hup
  rw [hphase] at hbytes hdone
  refine ⟨hbuffer, ?_⟩
  have hahead : arrived c.id events = lines.flatten ++ c.buffer := by
    rw [hbytes, hempty, List.append_nil]
    rfl
  have hexecuted : executed u c.id events = lines.map fun l => cstr l.dropLast := by
    rw [← hdone]
    exact (List.append_nil _).symm
  rw [hexecuted, hahead, completeLines_append hlines, completeLines,
    linesFrom_of_notMem hbuffer, List.append_nil]

/-- Two commands of a client arrive together: the second one stays in the buffer. -/
theorem second_line_behind :
    ∃ w c, (loop smallSettings).run
        (acceptOn 4 ++ [.arrive 0 (lit "USER anonymous\r\nPASS\r\n")] ++ turnOf 1 4) = .ok w ∧
      w.phase = .polling ∧ w.stopServer = false ∧ w.connections 1 = some c ∧
        w.world.os.hungup c.id = false ∧ w.received c.id = [] ∧ newline ∈ c.buffer := by
  obtain ⟨w, hw, hphase, hstop, hentry⟩ : ∃ w, (loop smallSettings).run
      (acceptOn 4 ++ [.arrive 0 (lit "USER anonymous\r\nPASS\r\n")] ++ turnOf 1 4) = .ok w ∧
        (w.phase = .polling ∧ w.stopServer = false ∧ ∃ c ∈ w.connections 1,
          w.world.os.hungup c.id = false ∧ w.received c.id = [] ∧ newline ∈ c.buffer) :=
    Machine.exists_of_run (by decide +kernel)
  obtain ⟨c, hc, hrest⟩ := hentry
  exact ⟨w, c, hw, hphase, hstop, hc, hrest⟩

/-- A command arrives in two pieces, the second one while `getline` waits for it, and then another
command. -/
def inPieces : List LoopEvent :=
  acceptOn 4 ++ [.arrive 0 (lit "USER anon")] ++ List.replicate 4 (.server (.fine [1] 0)) ++
    [.arrive 0 (lit "ymous\r\n")] ++ List.replicate 4 (.server (.fine [1] 0)) ++
    [.arrive 0 (lit "PASS\r\n")] ++ turnOf 1 4

/-- Both are executed. -/
theorem no_line_behind_pieces : ∃ w c, (loop smallSettings).run inPieces = .ok w ∧
    w.connections 1 = some c ∧ newline ∉ c.buffer ∧
      executed smallSettings 0 inPieces = [lit "USER anonymous\r", lit "PASS\r"] := by
  obtain ⟨w, hw, hmeets, hphase, hstop, hentry⟩ := Machine.exists_of_run (m := loop smallSettings)
    (l := inPieces)
    (P := fun w => (loop smallSettings).Meets (BringsOne smallSettings) inPieces ∧
      w.phase = .polling ∧ w.stopServer = false ∧ ∃ c ∈ w.connections 1,
        c.id = 0 ∧ w.world.os.hungup c.id = false ∧ w.received c.id = []) (by decide +kernel)
  obtain ⟨c, hc, hid, hup, hempty⟩ := hentry
  obtain ⟨hbuffer, hexecuted⟩ :=
    no_line_behind_of_run smallSettings inPieces w hw hmeets hphase hstop 1 c hc hup hempty
  rw [hid] at hexecuted
  exact ⟨w, c, hw, hc, hbuffer, hexecuted.trans (by decide +kernel)⟩

end MyFtp.Server
