import Mathlib.Data.List.Basic

/-!
# Machines and their runs

A `Machine σ ι ε` starts in a state and consumes events one at a time; a step
that cannot be taken, or that ends the machine, gives an error `ε`. A run is a
list of events all of whose steps succeed.

The induction over a run is done here once. `run_invariant` carries a relation
between the events consumed so far and the state; `run_invariant_of_meets` is
its version for runs all of whose steps meet a condition. `seen` is what an
observer of the steps gets to see of a run; `run_simulation` runs another machine on
it, and `runFrom_filter` compares a run with the same run without some of its events.
-/

namespace MyFtp

/-- A deterministic machine consuming events of type `ι`. -/
structure Machine (σ ι ε : Type) where
  init : σ
  step : σ → ι → Except ε σ

namespace Machine

variable {σ τ ι κ ε δ : Type}

/-- Consume a list of events from a given state. -/
def runFrom (m : Machine σ ι ε) : σ → List ι → Except ε σ
  | s, [] => .ok s
  | s, i :: l =>
    match m.step s i with
    | .ok s' => runFrom m s' l
    | .error e => .error e

/-- Consume a list of events from the initial state. -/
def run (m : Machine σ ι ε) (l : List ι) : Except ε σ := m.runFrom m.init l

/-- The states some run ends in. -/
def Reachable (m : Machine σ ι ε) (s : σ) : Prop := ∃ l, m.run l = .ok s

variable {m : Machine σ ι ε}

@[simp] theorem runFrom_nil (s : σ) : m.runFrom s [] = .ok s := rfl

theorem runFrom_cons_ok {s s' : σ} {i : ι} {l : List ι}
    (h : m.runFrom s (i :: l) = .ok s') :
    ∃ s₁, m.step s i = .ok s₁ ∧ m.runFrom s₁ l = .ok s' := by
  unfold runFrom at h
  split at h
  next s₁ hs => exact ⟨s₁, hs, h⟩
  next => cases h

theorem runFrom_cons_of_step {s s₁ : σ} {i : ι} (h : m.step s i = .ok s₁) (l : List ι) :
    m.runFrom s (i :: l) = m.runFrom s₁ l := by
  rw [runFrom, h]

/-- A run splits at any point of its list of events. -/
theorem runFrom_append_ok {s s' : σ} {l l' : List ι} :
    m.runFrom s (l ++ l') = .ok s' ↔ ∃ s₁, m.runFrom s l = .ok s₁ ∧ m.runFrom s₁ l' = .ok s' := by
  induction l generalizing s with
  | nil =>
    constructor
    · intro h; exact ⟨s, rfl, h⟩
    · rintro ⟨s₁, h₁, h⟩; cases h₁; exact h
  | cons i l ih =>
    constructor
    · intro h
      obtain ⟨s₁, hs, h₁⟩ := runFrom_cons_ok h
      rw [runFrom_cons_of_step hs]
      exact ih.mp h₁
    · rintro ⟨s₁, h₁, h⟩
      obtain ⟨s₂, hs, h₂⟩ := runFrom_cons_ok h₁
      rw [List.cons_append, runFrom_cons_of_step hs]
      exact ih.mpr ⟨s₁, h₂, h⟩

/-- A property of the state a run ends in, by running it. -/
theorem exists_of_run {P : σ → Prop} [DecidablePred P] {l : List ι}
    (h : (match m.run l with
      | .ok s => decide (P s)
      | .error _ => false) = true) : ∃ s, m.run l = .ok s ∧ P s := by
  split at h
  next s hs => exact ⟨s, hs, of_decide_eq_true h⟩
  next => cases h

/-- Every step of the run is taken in a state where `C` allows it. -/
def MeetsFrom (m : Machine σ ι ε) (C : σ → ι → Prop) : σ → List ι → Prop
  | _, [] => True
  | s, i :: l => C s i ∧ ∀ s', m.step s i = .ok s' → MeetsFrom m C s' l

/-- The run from the initial state takes only steps that `C` allows. -/
def Meets (m : Machine σ ι ε) (C : σ → ι → Prop) (l : List ι) : Prop := m.MeetsFrom C m.init l

theorem meetsFrom_append {C : σ → ι → Prop} {s : σ} {l l' : List ι} :
    m.MeetsFrom C s (l ++ l') ↔
      m.MeetsFrom C s l ∧ ∀ s', m.runFrom s l = .ok s' → m.MeetsFrom C s' l' := by
  induction l generalizing s with
  | nil =>
    constructor
    · intro h; exact ⟨trivial, fun s' hs' => by cases hs'; exact h⟩
    · intro h; exact h.2 s rfl
  | cons i l ih =>
    constructor
    · rintro ⟨hc, h⟩
      refine ⟨⟨hc, fun s' hs => (ih.mp (h s' hs)).1⟩, fun s' hs' => ?_⟩
      obtain ⟨s₁, hs, h₁⟩ := runFrom_cons_ok hs'
      exact (ih.mp (h s₁ hs)).2 s' h₁
    · rintro ⟨⟨hc, h⟩, h'⟩
      refine ⟨hc, fun s₁ hs => ih.mpr ⟨h s₁ hs, fun s' hs' => h' s' ?_⟩⟩
      rw [runFrom_cons_of_step hs]
      exact hs'

/-- Whether a run meets a condition can be computed by running it. -/
instance decidableMeetsFrom {C : σ → ι → Prop} [∀ s i, Decidable (C s i)] :
    ∀ (s : σ) (l : List ι), Decidable (m.MeetsFrom C s l)
  | _, [] => isTrue trivial
  | s, i :: l =>
    match h : m.step s i with
    | .ok s₁ =>
      have : Decidable (m.MeetsFrom C s₁ l) := decidableMeetsFrom s₁ l
      decidable_of_iff (C s i ∧ m.MeetsFrom C s₁ l) <|
        and_congr_right fun _ =>
          ⟨fun hm s' hs => Except.ok.inj (h.symm.trans hs) ▸ hm, fun hm => hm s₁ h⟩
    | .error _ =>
      decidable_of_iff (C s i) <|
        ⟨fun hc => ⟨hc, fun s' hs => by rw [h] at hs; cases hs⟩, And.left⟩

instance {C : σ → ι → Prop} [∀ s i, Decidable (C s i)] (l : List ι) : Decidable (m.Meets C l) :=
  decidableMeetsFrom m.init l

/-- Along the list of events the machine goes from `s` to `s'` by the event
`i`. -/
def Took (m : Machine σ ι ε) (l : List ι) (s : σ) (i : ι) (s' : σ) : Prop :=
  ∃ l₁ l₂, l = l₁ ++ i :: l₂ ∧ m.run l₁ = .ok s ∧ m.step s i = .ok s'

/-- A property of the last step of a run, by running it. -/
theorem exists_of_step {P : σ → σ → Prop} [∀ s s', Decidable (P s s')] {l : List ι} {i : ι}
    (h : (match m.run l with
      | .ok s =>
        match m.step s i with
        | .ok s' => decide (P s s')
        | .error _ => false
      | .error _ => false) = true) : ∃ s s', m.Took (l ++ [i]) s i s' ∧ P s s' := by
  split at h
  next s hs =>
    split at h
    next s' hs' => exact ⟨s, s', ⟨l, [], rfl, hs, hs'⟩, of_decide_eq_true h⟩
    next => cases h
  next => cases h

/-- How a run fails, by running it. -/
theorem error_of_run [DecidableEq ε] {l : List ι} {e : ε}
    (h : (match m.run l with
      | .ok _ => false
      | .error e' => decide (e' = e)) = true) : m.run l = .error e := by
  split at h
  next => cases h
  next e' he => rw [he, of_decide_eq_true h]

/-- A condition met along the events is met by each of them. -/
theorem Took.meets {C : σ → ι → Prop} {l : List ι} {s s' : σ} {i : ι} (h : m.Took l s i s')
    (hm : m.Meets C l) : C s i := by
  obtain ⟨l₁, l₂, rfl, hrun, -⟩ := h
  exact ((meetsFrom_append.mp hm).2 s hrun).1

theorem Took.append {l : List ι} {s s' : σ} {i : ι} (h : m.Took l s i s') (l' : List ι) :
    m.Took (l ++ l') s i s' := by
  obtain ⟨l₁, l₂, rfl, hrun, hs⟩ := h
  exact ⟨l₁, l₂ ++ l', by rw [List.append_assoc, List.cons_append], hrun, hs⟩

/-- A step along the events was taken before the last one, or is the last one. -/
theorem Took.of_concat {l : List ι} {s s' : σ} {i j : ι} (h : m.Took (l ++ [i]) s j s') :
    m.Took l s j s' ∨ (j = i ∧ m.run l = .ok s ∧ m.step s j = .ok s') := by
  obtain ⟨l₁, l₂, hl, hrun, hs⟩ := h
  rcases List.eq_nil_or_concat l₂ with rfl | ⟨l₂', k, rfl⟩
  · obtain ⟨rfl, hi⟩ := List.append_inj' hl rfl
    cases hi
    exact .inr ⟨rfl, hrun, hs⟩
  · refine .inl ⟨l₁, l₂', ?_, hrun, hs⟩
    rw [List.concat_eq_append, ← List.cons_append, ← List.append_assoc] at hl
    exact (List.append_inj' hl rfl).1

theorem meets_concat {C : σ → ι → Prop} {l : List ι} {s : σ} {i : ι} (h : m.run l = .ok s) :
    m.Meets C (l ++ [i]) ↔ m.Meets C l ∧ C s i := by
  refine meetsFrom_append.trans (and_congr_right fun _ => ?_)
  constructor
  · intro hm
    exact (hm s h).1
  · intro hC s' hs'
    obtain rfl : s = s' := Except.ok.inj (h.symm.trans hs')
    exact ⟨hC, fun _ _ => trivial⟩

/-- A condition every step meets is met along every list of events. -/
theorem meetsFrom_of_forall {C : σ → ι → Prop} (h : ∀ s i, C s i) :
    ∀ (l : List ι) (s : σ), m.MeetsFrom C s l
  | [], _ => trivial
  | i :: l, s => ⟨h s i, fun s' _ => meetsFrom_of_forall h l s'⟩

/-- A weaker condition is met too. -/
theorem MeetsFrom.mono {C D : σ → ι → Prop} (h : ∀ s i, C s i → D s i) :
    ∀ {l : List ι} {s : σ}, m.MeetsFrom C s l → m.MeetsFrom D s l
  | [], _, _ => trivial
  | _ :: _, _, hm => ⟨h _ _ hm.1, fun s' hs => MeetsFrom.mono h (hm.2 s' hs)⟩

/-- Where an invariant that such steps keep makes one condition imply another. -/
theorem MeetsFrom.of_invariant {C D : σ → ι → Prop} {I : σ → Prop}
    (hstep : ∀ s i s', I s → C s i → m.step s i = .ok s' → I s')
    (hD : ∀ s i, I s → C s i → D s i) :
    ∀ {l : List ι} {s : σ}, I s → m.MeetsFrom C s l → m.MeetsFrom D s l
  | [], _, _, _ => trivial
  | _ :: _, _, hI, hm =>
    ⟨hD _ _ hI hm.1, fun s' hs => of_invariant hstep hD (hstep _ _ s' hI hm.1 hs) (hm.2 s' hs)⟩

/-- Two conditions that are met together are met one by one. -/
theorem meetsFrom_and {C D : σ → ι → Prop} : ∀ {l : List ι} {s : σ},
    m.MeetsFrom (fun s i => C s i ∧ D s i) s l ↔ m.MeetsFrom C s l ∧ m.MeetsFrom D s l
  | [], _ => ⟨fun _ => ⟨trivial, trivial⟩, fun _ => trivial⟩
  | i :: l, s => by
    constructor
    · rintro ⟨⟨hC, hD⟩, h⟩
      exact ⟨⟨hC, fun s' hs => (meetsFrom_and.mp (h s' hs)).1⟩,
        ⟨hD, fun s' hs => (meetsFrom_and.mp (h s' hs)).2⟩⟩
    · rintro ⟨⟨hC, hl⟩, ⟨hD, hl'⟩⟩
      exact ⟨⟨hC, hD⟩, fun s' hs => meetsFrom_and.mpr ⟨hl s' hs, hl' s' hs⟩⟩

/-- The invariant rule for runs all of whose steps meet a condition: what holds
of the events consumed and the state at the start, and is kept by every step
that meets `C`, holds at the end. -/
theorem run_invariant_of_meets {C : σ → ι → Prop} {I : List ι → σ → Prop} (h₀ : I [] m.init)
    (hstep : ∀ l s i s', I l s → C s i → m.step s i = .ok s' → I (l ++ [i]) s') :
    ∀ l s, m.Meets C l → m.run l = .ok s → I l s := by
  have key : ∀ (l l₀ : List ι) (s s' : σ), I l₀ s → m.MeetsFrom C s l →
      m.runFrom s l = .ok s' → I (l₀ ++ l) s' := by
    intro l
    induction l with
    | nil => intro l₀ s s' hI _ h; cases h; simpa using hI
    | cons i l ih =>
      intro l₀ s s' hI hm h
      obtain ⟨s₁, hs, h₁⟩ := runFrom_cons_ok h
      have := ih (l₀ ++ [i]) s₁ s' (hstep l₀ s i s₁ hI hm.1 hs) (hm.2 s₁ hs) h₁
      simpa using this
  intro l s hm h
  simpa using key l [] m.init s h₀ hm h

/-- The invariant rule: what holds of the events consumed and the state at the
start, and is kept by every step, holds at the end of every run. -/
theorem run_invariant {I : List ι → σ → Prop} (h₀ : I [] m.init)
    (hstep : ∀ l s i s', I l s → m.step s i = .ok s' → I (l ++ [i]) s') (l : List ι) (s : σ)
    (h : m.run l = .ok s) : I l s :=
  run_invariant_of_meets (C := fun _ _ => True) h₀
    (fun l s i s' hI _ hs => hstep l s i s' hI hs) l s
      (meetsFrom_of_forall (fun _ _ => trivial) l _) h

theorem run_append_step {l : List ι} {s s' : σ} {i : ι} (h : m.run l = .ok s)
    (hs : m.step s i = .ok s') : m.run (l ++ [i]) = .ok s' := by
  refine runFrom_append_ok.mpr ⟨s, h, ?_⟩
  rw [runFrom_cons_of_step hs]
  rfl

/-- The invariant rule, where a step may use what is known of every run. -/
theorem run_induction {I : List ι → σ → Prop} (h₀ : I [] m.init)
    (hstep : ∀ l s i s', m.run l = .ok s → I l s → m.step s i = .ok s' → I (l ++ [i]) s')
    (l : List ι) (s : σ) (h : m.run l = .ok s) : I l s := by
  refine (run_invariant (m := m) (I := fun l s => m.run l = .ok s ∧ I l s) ⟨rfl, h₀⟩ ?_ l s h).2
  intro l s i s' hI hs
  exact ⟨run_append_step hI.1 hs, hstep l s i s' hI.1 hI.2 hs⟩

/-- A property that a step gives up exactly where it does not meet `C`, and that does
not come back, holds after a run exactly when all its steps met `C`. -/
theorem iff_meets_of_run {C : σ → ι → Prop} {G : σ → Prop} (h₀ : G m.init)
    (hstep : ∀ l s i s', m.run l = .ok s → m.step s i = .ok s' → (G s' ↔ G s ∧ C s i))
    (l : List ι) (s : σ) (h : m.run l = .ok s) : G s ↔ m.Meets C l := by
  refine run_induction (m := m) (I := fun l s => G s ↔ m.Meets C l) ?_ ?_ l s h
  · exact ⟨fun _ => trivial, fun _ => h₀⟩
  · intro l s i s' hrun hI hs
    rw [meets_concat hrun, ← hI]
    exact hstep l s i s' hrun hs

/-- A condition that holds in every state the run passes through is met along
the run. -/
theorem meetsFrom_of_passed {C : σ → ι → Prop} :
    ∀ (l : List ι) (s : σ),
      (∀ l₁ i l₂ s₁, l = l₁ ++ i :: l₂ → m.runFrom s l₁ = .ok s₁ → C s₁ i) → m.MeetsFrom C s l
  | [], _, _ => trivial
  | i :: l, s, h => by
    refine ⟨h [] i l s rfl rfl, fun s' hs => meetsFrom_of_passed l s' fun l₁ j l₂ s₁ hl hrun => ?_⟩
    refine h (i :: l₁) j l₂ s₁ (by rw [hl, List.cons_append]) ?_
    rw [runFrom_cons_of_step hs, hrun]

theorem Reachable.step {s s' : σ} {i : ι} (h : m.Reachable s) (hs : m.step s i = .ok s') :
    m.Reachable s' := by
  obtain ⟨l, hl⟩ := h
  exact ⟨l ++ [i], run_append_step hl hs⟩

/-- Why a run ends. If no step that meets `C` fails for a reason outside `E`, then no run of
such steps does. -/
theorem run_error_of_meets {C : σ → ι → Prop} {E : ε → Prop}
    (hstep : ∀ l s i e, m.Meets C l → m.run l = .ok s → C s i → m.step s i = .error e → E e)
    (l : List ι) (e : ε) (hmeets : m.Meets C l) (h : m.run l = .error e) : E e := by
  have key : ∀ (l l₀ : List ι) (s : σ), m.Meets C l₀ → m.run l₀ = .ok s → m.MeetsFrom C s l →
      m.runFrom s l = .error e → E e := by
    intro l
    induction l with
    | nil => intro l₀ s _ _ _ h; cases h
    | cons i l ih =>
      intro l₀ s hm₀ hrun hm h
      cases hs : m.step s i with
      | error e' =>
        rw [runFrom, hs] at h
        cases h
        exact hstep l₀ s i e hm₀ hrun hm.1 hs
      | ok s₁ =>
        rw [runFrom_cons_of_step hs] at h
        exact ih (l₀ ++ [i]) s₁ ((meets_concat hrun).mpr ⟨hm₀, hm.1⟩) (run_append_step hrun hs)
          (hm.2 s₁ hs) h
  exact key l [] m.init trivial rfl hmeets h

/-- The ranking rule. If no step that meets `C` raises the rank while `I` holds, and each event
of `p` lowers it, until the machine gets from `I` to one of the states `Q`, then it gets there
before more than that many events of `p` have happened. -/
theorem reaches_of_rank {C : σ → ι → Prop} {I Q : σ → Prop} {p : ι → Bool} {rank : σ → Nat}
    (hstep : ∀ l s i s', m.Meets C l → m.run l = .ok s → C s i → m.step s i = .ok s' → I s →
      Q s' ∨ I s' ∧ rank s' + (if p i then 1 else 0) ≤ rank s)
    (later l : List ι) (s s' : σ) (hmeets : m.Meets C (l ++ later)) (hs : m.run l = .ok s)
    (hI : I s) (hrun : m.run (l ++ later) = .ok s') (hrank : rank s < later.countP p) :
    ∃ l₁ l₂ s₁, later = l₁ ++ l₂ ∧ m.run (l ++ l₁) = .ok s₁ ∧ Q s₁ := by
  induction later generalizing l s with
  | nil => exact absurd hrank (Nat.not_lt_zero _)
  | cons i later ih =>
    have hsplit : l ++ i :: later = (l ++ [i]) ++ later := by simp
    obtain ⟨s₀, hs₀, hrest⟩ := runFrom_append_ok.mp hrun
    obtain rfl : s = s₀ := Except.ok.inj (hs.symm.trans hs₀)
    obtain ⟨s₁, hi, -⟩ := runFrom_cons_ok hrest
    have hrun₁ : m.run (l ++ [i]) = .ok s₁ := run_append_step hs hi
    have hC : C s i := ((meetsFrom_append.mp hmeets).2 s hs).1
    rcases hstep l s i s₁ (meetsFrom_append.mp hmeets).1 hs hC hi hI with hQ | ⟨hI₁, hlower⟩
    · exact ⟨[i], later, s₁, rfl, hrun₁, hQ⟩
    rw [hsplit] at hmeets hrun
    rw [List.countP_cons] at hrank
    obtain ⟨l₁, l₂, s₂, rfl, hrun₂, hQ⟩ := ih (l ++ [i]) s₁ hmeets hrun₁ hI₁ hrun (by omega)
    refine ⟨i :: l₁, l₂, s₂, rfl, ?_, hQ⟩
    rwa [List.append_assoc] at hrun₂

/-- If a step ends the machine with `e` exactly where `C` does not allow it, then
so does a run. -/
theorem runFrom_eq_error_iff {C : σ → ι → Prop} {P : ι → Prop} {e : ε}
    (hstep : ∀ s i, m.Reachable s → P i → (m.step s i = .error e ↔ ¬ C s i)) :
    ∀ (l : List ι) (s : σ), m.Reachable s → (∀ i ∈ l, P i) →
      (m.runFrom s l = .error e ↔ ¬ m.MeetsFrom C s l)
  | [], s, _, _ => ⟨fun h => (by cases h), fun h => absurd trivial h⟩
  | i :: l, s, hs, hP => by
    have hi := hstep s i hs (hP i List.mem_cons_self)
    have hP' : ∀ j ∈ l, P j := fun j hj => hP j (List.mem_cons_of_mem _ hj)
    cases h : m.step s i with
    | error e' =>
      rw [runFrom, h]
      dsimp only
      rw [h] at hi
      constructor
      · intro he hm
        exact hi.mp he hm.1
      · intro hm
        refine hi.mpr fun hC => hm ⟨hC, fun s' hs' => ?_⟩
        rw [h] at hs'
        cases hs'
    | ok s₁ =>
      have hC : C s i := by
        by_contra hC
        have herror := hi.mpr hC
        rw [h] at herror
        cases herror
      rw [runFrom_cons_of_step h, runFrom_eq_error_iff hstep l s₁ (hs.step h) hP']
      refine not_congr ⟨fun hm => ⟨hC, fun s' hs' => ?_⟩, fun hm => hm.2 s₁ h⟩
      rw [h] at hs'
      cases hs'
      exact hm

/-- What `f` sees of the steps along the list of events, in order. -/
def seenFrom (m : Machine σ ι ε) {ω : Type} (f : σ → ι → σ → Option ω) : σ → List ι → List ω
  | _, [] => []
  | s, i :: l =>
    match m.step s i with
    | .ok s' => (f s i s').toList ++ seenFrom m f s' l
    | .error _ => []

/-- What `f` sees of the steps from the initial state. -/
def seen (m : Machine σ ι ε) {ω : Type} (f : σ → ι → σ → Option ω) (l : List ι) : List ω :=
  m.seenFrom f m.init l

/-- One more step is one more thing to see. -/
theorem seenFrom_append_step {ω : Type} {f : σ → ι → σ → Option ω} {s s₁ s' : σ}
    {l : List ι} {i : ι}
    (h : m.runFrom s l = .ok s₁) (hs : m.step s₁ i = .ok s') :
    m.seenFrom f s (l ++ [i]) = m.seenFrom f s l ++ (f s₁ i s').toList := by
  induction l generalizing s with
  | nil =>
    cases h
    show (match m.step s₁ i with
      | .ok s' => (f s₁ i s').toList ++ []
      | .error _ => []) = _
    rw [hs]
    exact List.append_nil _
  | cons j l ih =>
    obtain ⟨s₂, hj, h⟩ := runFrom_cons_ok h
    rw [List.cons_append, seenFrom, seenFrom, hj]
    dsimp only
    rw [ih h, List.append_assoc]

theorem seen_append_step {ω : Type} {f : σ → ι → σ → Option ω} {s s' : σ} {l : List ι} {i : ι}
    (h : m.run l = .ok s) (hs : m.step s i = .ok s') :
    m.seen f (l ++ [i]) = m.seen f l ++ (f s i s').toList :=
  seenFrom_append_step h hs

/-- A simulation. If every step that meets `C` is a step of the other machine, or none that
it sees, then a run is a run of the other machine, over what is seen of it. -/
theorem run_simulation {n : Machine τ κ δ} {C : σ → ι → Prop} {R : σ → τ → Prop}
    {f : σ → ι → σ → Option κ} (h₀ : R m.init n.init)
    (hstep : ∀ s t i s', n.Reachable t → R s t → C s i → m.step s i = .ok s' →
      match f s i s' with
      | some j => ∃ t', n.step t j = .ok t' ∧ R s' t'
      | none => R s' t)
    (l : List ι) (s : σ) (hmeets : m.Meets C l) (h : m.run l = .ok s) :
    ∃ t, n.run (m.seen f l) = .ok t ∧ R s t := by
  have hboth : m.run l = .ok s ∧ ∃ t, n.run (m.seen f l) = .ok t ∧ R s t := by
    refine run_invariant_of_meets (m := m) (C := C)
      (I := fun l s => m.run l = .ok s ∧ ∃ t, n.run (m.seen f l) = .ok t ∧ R s t)
      ⟨rfl, n.init, rfl, h₀⟩ ?_ l s hmeets h
    rintro l s i s' ⟨hrun, t, ht, hR⟩ hC hs
    refine ⟨run_append_step hrun hs, ?_⟩
    rw [seen_append_step hrun hs]
    have hnext := hstep s t i s' ⟨_, ht⟩ hR hC hs
    cases hf : f s i s' with
    | none =>
      rw [hf] at hnext
      refine ⟨t, ?_, hnext⟩
      rw [Option.toList_none, List.append_nil, ht]
    | some j =>
      rw [hf] at hnext
      obtain ⟨t', hj, hR'⟩ := hnext
      exact ⟨t', run_append_step ht hj, hR'⟩
  exact hboth.2

/-- Leaving events out. If a kept event can be repeated from a state related to
the one it happened in, and one that is left out does not break the relation,
then a run can be repeated without the events that are left out. -/
theorem runFrom_filter {C : σ → ι → Prop} {keep : ι → Bool} {S : σ → σ → Prop}
    (hkeep : ∀ s t i s', S s t → C s i → m.step s i = .ok s' → keep i = true →
      ∃ t', m.step t i = .ok t' ∧ S s' t')
    (hdrop : ∀ s t i s', S s t → C s i → m.step s i = .ok s' → keep i = false → S s' t) :
    ∀ (l : List ι) (s t s' : σ), S s t → m.MeetsFrom C s l → m.runFrom s l = .ok s' →
      ∃ t', m.runFrom t (l.filter keep) = .ok t' ∧ S s' t' := by
  intro l
  induction l with
  | nil =>
    intro s t s' hst _ h
    cases h
    exact ⟨t, rfl, hst⟩
  | cons i l ih =>
    intro s t s' hst hm h
    obtain ⟨s₁, hs, h₁⟩ := runFrom_cons_ok h
    by_cases hi : keep i = true
    · obtain ⟨t₁, ht, hst₁⟩ := hkeep s t i s₁ hst hm.1 hs hi
      obtain ⟨t', hrun, hst'⟩ := ih s₁ t₁ s' hst₁ (hm.2 s₁ hs) h₁
      refine ⟨t', ?_, hst'⟩
      rw [List.filter_cons_of_pos hi, runFrom_cons_of_step ht, hrun]
    · rw [List.filter_cons_of_neg hi]
      exact ih s₁ t s' (hdrop s t i s₁ hst hm.1 hs (by simpa using hi)) (hm.2 s₁ hs) h₁

end Machine

end MyFtp
