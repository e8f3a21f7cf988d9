import MyFtp.Server.Hangups

/-!
# How the server process ends

A client that is gone is not the only end of the server: some lines make it use a pointer that
it was never given. `Endures` says of a step that it has nothing of either: what it prints goes
to a client that is there, and the line it handles is one the parser and the handlers are made
for.

> `endings_of_run`: every run that gets somewhere went through such steps only, and a run of
> sound steps does not end of itself: a step of it can only wait, or be impossible. The loop is
> left after a signal, or when `poll` fails.
-/

namespace MyFtp.Server

open MyFtp.Posix
open Prog

/-! ## Lines the server is made for -/

/-- The parser is made for the line exactly when it returns. -/
theorem singleSpaced_iff {line : CStr} : SingleSpaced line ↔ (parseBuffer line).isOk = true := by
  constructor
  · intro hs
    by_cases hne : trim line = []
    · rw [(parseBuffer_eq_none_iff hs).mpr (trim_eq_nil_iff.mp hne)]
      rfl
    · obtain ⟨command, hp⟩ := parsedAs_of_singleSpaced hne hs
      rw [hp.result]
      rfl
  · intro hok
    by_contra hs
    rw [parseBuffer_undefined hs] at hok
    cases hok

instance (line : CStr) : Decidable (SingleSpaced line) :=
  decidable_of_iff _ singleSpaced_iff.symm

/-- The parser and the handlers are made for the line. -/
def Understood (line : CStr) (os : Os) (c : Client) : Prop :=
  SingleSpaced line ∧ ∀ W ∈ c.connection.workingDirectory, ∀ command ∈ commandOf line,
    command.FindsDirectory (Ctx.start os c.connection) W

instance (line : CStr) (os : Os) (c : Client) : Decidable (Understood line os c) :=
  inferInstanceAs (Decidable (_ ∧ ∀ W ∈ c.connection.workingDirectory,
    ∀ command ∈ commandOf line, command.FindsDirectory (Ctx.start os c.connection) W))

/-- The line that is handled is one of these. -/
def UnderstandsIn (w : Loop) : Phase → Prop
  | .executing i (some line) => ∀ c ∈ w.connections i, Understood line w.world.os c
  | _ => True

instance (w : Loop) : ∀ p, Decidable (UnderstandsIn w p)
  | .executing i (some line) =>
    inferInstanceAs (Decidable (∀ c ∈ w.connections i, Understood line w.world.os c))
  | .executing _ none | .accepting | .stopping _ | .polling | .serving _ | .reading .. |
    .stopped => .isTrue trivial

/-- The step does not end the server. -/
def Endures (u : Settings) (w : Loop) (e : LoopEvent) : Prop :=
  Outlives u w e ∧ (e.isServer = true → UnderstandsIn w w.phase)

instance (u : Settings) (w : Loop) (e : LoopEvent) : Decidable (Endures u w e) :=
  inferInstanceAs (Decidable (_ ∧ _))

section

variable {u : Settings} {w w' : Loop} {events : List LoopEvent} {e : LoopEvent} {calls : Calls}
  {i : SlotIndex} {c : Client} {S : Sessions} {line : CStr} {halt : Halt}

/-- **A step that is taken** did not end the server. -/
theorem endures_of_step (hrun : (loop u).run events = .ok w)
    (hopens : (loop u).Meets StreamOpens events) (hstep : w.step u e = .ok w') :
    Endures u w e := by
  refine ⟨outlives_of_step hrun hopens hstep, fun hserver => ?_⟩
  cases e with
  | server calls =>
    unfold UnderstandsIn
    split
    next i line hphase =>
      intro c hc
      obtain ⟨S, hS, hT⟩ := tracks_of_run hrun hopens
      obtain ⟨S', hline⟩ := executing_ok hT hphase hc hstep
      obtain ⟨-, -, -, -, hparse, -, -⟩ := line_outcome hS hline
      have hsingle : SingleSpaced line := by
        rw [singleSpaced_iff, hparse]
        rfl
      -- a handler that loses its directory would have used a pointer it does not have
      have hparses : Parses (.line c.id line calls.line) := ⟨_, hparse⟩
      have hfinds : FindsDirectory S (.line c.id line calls.line) := by
        by_contra hlost
        cases hline.symm.trans ((step_undefined_iff hS hparses).mpr hlost)
      refine ⟨hsingle, ?_⟩
      rw [← hT.world (by rw [hphase]; simp)]
      exact hfinds c.connection (hT.record i c hc)
    next => trivial
  | _ => cases hserver

/-- Such a line uses no pointer that was not given. -/
theorem understood_defined (hS : (sessions u.toSetup).run (sessionEvents u events) = .ok S)
    (hT : Tracks u w S) (hphase : w.phase = .executing i (some line))
    (hc : w.connections i = some c) (hunderstood : Understood line w.world.os c) :
    w.server u calls ≠ .error .undefined := by
  intro h
  obtain ⟨hsingle, hfinds⟩ := hunderstood
  have hline := (executing_error_iff hT hphase hc).mp h
  have hrecord := hT.record i c hc
  rw [← hT.world (by rw [hphase]; simp)] at hfinds
  have hfinds' : FindsDirectory S (.line c.id line calls.line) := by
    intro c' hc'
    obtain rfl := Option.some.inj (hrecord.symm.trans hc')
    exact hfinds
  obtain ⟨parsed, hparse⟩ : ∃ parsed, parseBuffer line = .ok parsed := by
    have hok := singleSpaced_iff.mp hsingle
    cases hp : parseBuffer line with
    | ok parsed => exact ⟨parsed, rfl⟩
    | error e =>
      rw [hp] at hok
      cases hok
  cases line_stops hS hrecord hparse hfinds' hline

/-- **A step that fails** without ending the server has to wait, or is none. -/
theorem error_of_endures (hrun : (loop u).run events = .ok w)
    (hopens : (loop u).Meets StreamOpens events) (hendures : Endures u w e)
    (hstep : w.step u e = .error halt) : halt = .blocked ∨ halt = .disabled := by
  obtain ⟨houtlives, hunderstands⟩ := hendures
  rcases error_of_outlives hrun hopens houtlives hstep with
    hblocked | hdisabled | ⟨rfl, calls, i, line, rfl, hphase⟩
  · exact .inl hblocked
  · exact .inr hdisabled
  · obtain ⟨S, hS, hT⟩ := tracks_of_run hrun hopens
    obtain ⟨c, hc⟩ := Option.ne_none_iff_exists'.mp
      (slot_of_run hrun hopens i (by rw [hphase]; rfl))
    have hunderstood : UnderstandsIn w w.phase := hunderstands rfl
    rw [hphase] at hunderstood
    exact absurd hstep (understood_defined hS hT hphase hc (hunderstood c hc))

end

/-- **How the server process ends.** As long as its streams open,

* every run that gets through met `Endures` in all its steps: nobody was told anything who was
  gone, and no line was handled that the server cannot take,
* a run that does so ends for no other reason than that a step has to wait, or is impossible,
* and the main loop is left only after a signal, or when `poll` has failed. -/
theorem endings_of_run (u : Settings) (events : List LoopEvent)
    (hopens : (loop u).Meets StreamOpens events) :
    (∀ w, (loop u).run events = .ok w → (loop u).Meets (Endures u) events ∧
      (w.phase.leaving = true →
        .signal ∈ events ∨ ∃ calls, .server calls ∈ events ∧ calls.poll = none)) ∧
      ((loop u).Meets (Endures u) events → ∀ halt, (loop u).run events = .error halt →
        halt = .blocked ∨ halt = .disabled) := by
  refine ⟨fun w hrun => ⟨?_, (leaving_of_run hrun).2⟩, fun hendures halt hrun => ?_⟩
  · refine Machine.meetsFrom_of_passed events _ fun l₁ e l₂ w₁ hl hrun₁ => ?_
    rw [hl] at hrun hopens
    obtain ⟨w₂, hrun₂, hrest⟩ := Machine.runFrom_append_ok.mp hrun
    obtain rfl : w₁ = w₂ := Except.ok.inj (hrun₁.symm.trans hrun₂)
    obtain ⟨w₃, hstep, -⟩ := Machine.runFrom_cons_ok hrest
    exact endures_of_step hrun₁ (Machine.meetsFrom_append.mp hopens).1 hstep
  · have hboth : (loop u).Meets (fun w e => StreamOpens w e ∧ Endures u w e) events :=
      Machine.meetsFrom_and.mpr ⟨hopens, hendures⟩
    exact Machine.run_error_of_meets (C := fun w e => StreamOpens w e ∧ Endures u w e)
      (E := fun halt => halt = .blocked ∨ halt = .disabled)
      (fun events w e halt hmeets hrun hC hstep =>
        error_of_endures hrun (Machine.meetsFrom_and.mp hmeets).1 hC.2 hstep) events halt hboth hrun

/-- A client that is answered once, is gone, and then has its `QUIT` handled. -/
def lastWord : List LoopEvent :=
  acceptOn 4 ++ [.arrive 0 (lit "NOOP\r\nQUIT\r\n")] ++ turnOf 1 4 ++ [.hangup 0 true] ++ turnOf 1 3

/-- It is told goodbye, which ends the server. -/
theorem killed_first :
    (loop smallSettings).run lastWord = .error .sigpipe ∧
      ¬ (loop smallSettings).Meets (Endures smallSettings) lastWord := by
  have hrun : (loop smallSettings).run lastWord = .error .sigpipe :=
    Machine.error_of_run (by decide +kernel)
  refine ⟨hrun, fun hendures => ?_⟩
  rcases (endings_of_run smallSettings lastWord (by decide +kernel)).2 hendures _ hrun
    with h | h <;>
    cases h

end MyFtp.Server
