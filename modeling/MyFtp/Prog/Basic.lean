import Mathlib.Order.Defs.Unbundled

/-!
# Programs that can stop part-way

C code that calls the operating system changes the world as it goes and may
stop in the middle: it blocks, it is killed, or it reads what was never
written. `Prog σ ε α` is such a program over a state `σ`: it always leaves a
state behind, and either a result or the reason `ε` it stopped for. What was
done before the stop stays done — that is the difference from
`StateT σ (Except ε)`, which forgets the state of a failed run.

A few kinds of facts about programs are enough for everything built on them:

> `Keeps R p`: whatever happens, `p` moves the state along the relation `R`.

> `Safe I E p`: where `I` holds, `p` stops only for reasons in `E`, and `I` holds
> where it ends.

> `Stops E p s`: started in the one state `s`, `p` stops only for reasons in `E`.

> `Ends P p`: every result of `p` satisfies `P`.

> `Yields T P p`: a run of `p` goes from its state to its end with a list of
> outputs, in the sense of `T`, that `P` allows for its result.

> `Utters T P E p`: the same for every run of `p`, with outputs that `E` allows if
> it stops.

> `Agree S V p q`: from states related by `S`, the programs `p` and `q` end the
> same way, with results related by `V`, in states related by `S` again.

Each comes with one rule per way of putting programs together, so that a proof
about a program follows its text.
-/

namespace MyFtp

/-- A program over the state `σ` with results in `α`, which may stop for a
reason in `ε`. The state it leaves behind is part of every outcome. -/
def Prog (σ ε α : Type) : Type := σ → Except ε α × σ

namespace Prog

variable {σ τ ε α β γ δ : Type}

instance : Monad (Prog σ ε) where
  pure a := fun s => (.ok a, s)
  bind p k := fun s =>
    match p s with
    | (.ok a, s') => k a s'
    | (.error e, s') => (.error e, s')

/-- Read a part of the state. -/
def gets (f : σ → α) : Prog σ ε α := fun s => (.ok (f s), s)

/-- Change the state. -/
def modify (f : σ → σ) : Prog σ ε Unit := fun s => (.ok (), f s)

/-- Stop. -/
def fail (e : ε) : Prog σ ε α := fun s => (.error e, s)

/-- Go on with the value, or stop for the reason given instead of one. -/
def lift : Except ε α → Prog σ ε α
  | .ok a => pure a
  | .error e => fail e

/-! ## Running a program -/

@[simp] theorem pure_apply (a : α) (s : σ) : (pure a : Prog σ ε α) s = (.ok a, s) := rfl

@[simp] theorem gets_apply (f : σ → α) (s : σ) :
    (gets f : Prog σ ε α) s = (.ok (f s), s) := rfl

@[simp] theorem modify_apply (f : σ → σ) (s : σ) :
    (modify f : Prog σ ε Unit) s = (.ok (), f s) := rfl

@[simp] theorem fail_apply (e : ε) (s : σ) : (fail e : Prog σ ε α) s = (.error e, s) := rfl

@[simp] theorem lift_ok (a : α) : (lift (.ok a) : Prog σ ε α) = pure a := rfl

@[simp] theorem lift_error (e : ε) : (lift (.error e) : Prog σ ε α) = fail e := rfl

theorem bind_apply (p : Prog σ ε α) (k : α → Prog σ ε β) (s : σ) :
    (p >>= k) s = match p s with
      | (.ok a, s') => k a s'
      | (.error e, s') => (.error e, s') := rfl

@[simp] theorem pure_bind_apply (a : α) (k : α → Prog σ ε β) (s : σ) :
    ((pure a : Prog σ ε α) >>= k) s = k a s := rfl

@[simp] theorem gets_bind_apply (f : σ → α) (k : α → Prog σ ε β) (s : σ) :
    ((gets f : Prog σ ε α) >>= k) s = k (f s) s := rfl

@[simp] theorem modify_bind_apply (f : σ → σ) (k : Unit → Prog σ ε β) (s : σ) :
    ((modify f : Prog σ ε Unit) >>= k) s = k () (f s) := rfl

@[simp] theorem fail_bind_apply (e : ε) (k : α → Prog σ ε β) (s : σ) :
    ((fail e : Prog σ ε α) >>= k) s = (.error e, s) := rfl

/-- Sequencing after a run that is known to give a result. -/
theorem bind_of_ok {p : Prog σ ε α} {s s' : σ} {a : α} (h : p s = (.ok a, s'))
    (k : α → Prog σ ε β) : (p >>= k) s = k a s' := by
  rw [bind_apply, h]

/-- Sequencing after a run that is known to stop. -/
theorem bind_of_error {p : Prog σ ε α} {s s' : σ} {e : ε} (h : p s = (.error e, s'))
    (k : α → Prog σ ε β) : (p >>= k) s = (.error e, s') := by
  rw [bind_apply, h]

/-- A sequence gives a result only if both halves do. -/
theorem bind_eq_ok {p : Prog σ ε α} {k : α → Prog σ ε β} {s s' : σ} {b : β}
    (h : (p >>= k) s = (.ok b, s')) :
    ∃ a s₁, p s = (.ok a, s₁) ∧ k a s₁ = (.ok b, s') := by
  rw [bind_apply] at h
  match hp : p s with
  | (.ok a, s₁) =>
    rw [hp] at h
    exact ⟨a, s₁, rfl, h⟩
  | (.error e, s₁) =>
    rw [hp] at h
    injection h with h₁
    cases h₁

theorem bind_pure_eq (p : Prog σ ε α) : (p >>= fun a => pure a) = p := by
  funext s
  match hp : p s with
  | (.ok a, s₁) => rw [bind_of_ok hp]; rfl
  | (.error e, s₁) => rw [bind_of_error hp]

theorem bind_assoc_eq (p : Prog σ ε α) (k : α → Prog σ ε β) (l : β → Prog σ ε γ) :
    (p >>= k >>= l) = p >>= fun a => k a >>= l := by
  funext s
  match hp : p s with
  | (.ok a, s₁) =>
    rw [bind_of_ok hp, bind_apply, bind_of_ok hp]
    rfl
  | (.error e, s₁) => rw [bind_of_error hp, bind_of_error (bind_of_error hp k)]

instance : LawfulMonad (Prog σ ε) :=
  LawfulMonad.mk' _ bind_pure_eq (fun _ _ => rfl) bind_assoc_eq

/-! ## Properties that follow a program's text -/

/-- A property of programs that is kept by putting them together. -/
structure Modular (P : ∀ {α : Type}, Prog σ ε α → Prop) : Prop where
  pure : ∀ {α : Type} (a : α), P (Pure.pure a : Prog σ ε α)
  gets : ∀ {α : Type} (f : σ → α), P (gets f : Prog σ ε α)
  bind : ∀ {α β : Type} {p : Prog σ ε α} {k : α → Prog σ ε β},
    P p → (∀ a, P (k a)) → P (p >>= k)

/-- A branch has a property if both sides do. -/
theorem prop_ite {P : Prog σ ε α → Prop} {c : Prop} [Decidable c] {p q : Prog σ ε α}
    (hp : c → P p) (hq : ¬ c → P q) : P (if c then p else q) := by
  split
  next h => exact hp h
  next h => exact hq h

/-! ## `Keeps`: what a program may do to the state -/

/-- Whatever the outcome, the state is moved along `R`. -/
def Keeps (R : σ → σ → Prop) (p : Prog σ ε α) : Prop := ∀ s, R s (p s).2

section Keeps

variable {R : σ → σ → Prop}

theorem keeps_pure [Std.Refl R] (a : α) : Keeps R (pure a : Prog σ ε α) :=
  fun s => Std.Refl.refl s

theorem keeps_gets [Std.Refl R] (f : σ → α) : Keeps R (gets f : Prog σ ε α) :=
  fun s => Std.Refl.refl s

theorem keeps_fail [Std.Refl R] (e : ε) : Keeps R (fail e : Prog σ ε α) :=
  fun s => Std.Refl.refl s

theorem keeps_modify {f : σ → σ} (h : ∀ s, R s (f s)) :
    Keeps R (modify f : Prog σ ε Unit) := h

/-- A run that is known goes along the relation. -/
theorem Keeps.after {p : Prog σ ε α} (hp : Keeps R p) {s s' : σ} {r : Except ε α}
    (h : p s = (r, s')) : R s s' := by
  have hs := hp s
  rwa [h] at hs

/-- The sequencing rule. -/
theorem Keeps.bind [IsTrans σ R] {p : Prog σ ε α} {k : α → Prog σ ε β}
    (hp : Keeps R p) (hk : ∀ a, Keeps R (k a)) : Keeps R (p >>= k) := by
  intro s
  rw [bind_apply]
  have h₁ := hp s
  match h : p s with
  | (.ok a, s₁) =>
    rw [h] at h₁
    exact IsTrans.trans _ _ _ h₁ (hk a s₁)
  | (.error e, s₁) =>
    rw [h] at h₁
    exact h₁

theorem Keeps.ite {c : Prop} [Decidable c] {p q : Prog σ ε α}
    (hp : c → Keeps R p) (hq : ¬ c → Keeps R q) : Keeps R (if c then p else q) :=
  prop_ite hp hq

theorem modular_keeps [Std.Refl R] [IsTrans σ R] :
    Modular (Keeps R : ∀ {α : Type}, Prog σ ε α → Prop) :=
  ⟨keeps_pure, keeps_gets, Keeps.bind⟩

end Keeps

/-- What holds before holds after. -/
def Preserves (P : σ → Prop) (s s' : σ) : Prop := P s → P s'

instance (P : σ → Prop) : Std.Refl (Preserves P) := ⟨fun _ h => h⟩

instance (P : σ → Prop) : IsTrans σ (Preserves P) := ⟨fun _ _ _ h h' hp => h' (h hp)⟩

/-! ## `Safe`: where a program may stop, and where it ends -/

/-- From a state in which `I` holds the program stops only for reasons in `E`, and
`I` holds again in the state it ends in. -/
def Safe (I : σ → Prop) (E : ε → Prop) (p : Prog σ ε α) : Prop :=
  ∀ s, I s → (∀ e s', p s = (.error e, s') → E e) ∧ ∀ a s', p s = (.ok a, s') → I s'

section Safe

variable {I : σ → Prop} {E : ε → Prop}

theorem safe_pure (a : α) : Safe I E (pure a : Prog σ ε α) := by
  intro s hs
  refine ⟨fun e s' h => (by cases h), fun b s' h => ?_⟩
  cases h
  exact hs

theorem safe_gets (f : σ → α) : Safe I E (gets f : Prog σ ε α) := by
  intro s hs
  refine ⟨fun e s' h => (by cases h), fun b s' h => ?_⟩
  cases h
  exact hs

theorem safe_fail {e : ε} (he : E e) : Safe I E (fail e : Prog σ ε α) := by
  intro s _
  refine ⟨fun e' s' h => ?_, fun b s' h => by cases h⟩
  cases h
  exact he

theorem safe_modify {f : σ → σ} (h : ∀ s, I s → I (f s)) :
    Safe I E (modify f : Prog σ ε Unit) := by
  intro s hs
  refine ⟨fun e s' h' => (by cases h'), fun a s' h' => ?_⟩
  cases h'
  exact h s hs

theorem Safe.bind {p : Prog σ ε α} {k : α → Prog σ ε β} (hp : Safe I E p)
    (hk : ∀ a, Safe I E (k a)) : Safe I E (p >>= k) := by
  intro s hs
  match h : p s with
  | (.ok a, s₁) =>
    rw [bind_of_ok h]
    exact hk a s₁ ((hp s hs).2 a s₁ h)
  | (.error e, s₁) =>
    rw [bind_of_error h]
    refine ⟨fun e' s' h' => ?_, fun b s' h' => by cases h'⟩
    cases h'
    exact (hp s hs).1 e s₁ h

theorem modular_safe : Modular (Safe I E : ∀ {α : Type}, Prog σ ε α → Prop) :=
  ⟨safe_pure, safe_gets, Safe.bind⟩

end Safe

/-! ## `Stops`: why a program stops in a given state -/

/-- From the state `s` the program stops, if it does, for a reason in `E`. -/
def Stops (E : ε → Prop) (p : Prog σ ε α) (s : σ) : Prop := ∀ e s', p s = (.error e, s') → E e

section Stops

variable {E : ε → Prop} {p : Prog σ ε α} {k : α → Prog σ ε β} {s s' : σ}

theorem stops_of_ok {a : α} (h : p s = (.ok a, s')) : Stops E p s := by
  intro e s₁ he
  rw [h] at he
  cases he

theorem stops_of_error {e : ε} (h : p s = (.error e, s')) (he : E e) : Stops E p s := by
  intro e' s₁ he'
  rw [h] at he'
  cases he'
  exact he

theorem stops_pure (a : α) : Stops E (pure a : Prog σ ε α) s := stops_of_ok rfl

/-- The second program is judged in the states the first one ends in. -/
theorem Stops.bind (hp : Stops E p s) (hk : ∀ a s₁, p s = (.ok a, s₁) → Stops E (k a) s₁) :
    Stops E (p >>= k) s := by
  match h : p s with
  | (.ok a, s₁) =>
    intro e s₂ he
    rw [bind_of_ok h] at he
    exact hk a s₁ h e s₂ he
  | (.error e, s₁) => exact stops_of_error (bind_of_error h k) (hp e s₁ h)

theorem stops_ite {c : Prop} [Decidable c] {p q : Prog σ ε α} (hp : c → Stops E p s)
    (hq : ¬ c → Stops E q s) : Stops E (if c then p else q) s := by
  split
  next h => exact hp h
  next h => exact hq h

end Stops

/-! ## `Ends`: what a program may return -/

/-- Every result the program gives satisfies `P`. -/
def Ends (P : α → Prop) (p : Prog σ ε α) : Prop := ∀ s a s', p s = (.ok a, s') → P a

section Ends

variable {P : β → Prop}

theorem ends_pure {b : β} (h : P b) : Ends P (pure b : Prog σ ε β) := by
  intro s a s' hp
  cases hp
  exact h

/-- The last program of a sequence decides. -/
theorem ends_bind {p : Prog σ ε α} {k : α → Prog σ ε β} (hk : ∀ a, Ends P (k a)) :
    Ends P (p >>= k) := by
  intro s b s' h
  obtain ⟨a, s₁, -, hb⟩ := bind_eq_ok h
  exact hk a s₁ b s' hb

theorem Ends.ite {c : Prop} [Decidable c] {p q : Prog σ ε β} (hp : Ends P p) (hq : Ends P q) :
    Ends P (if c then p else q) := by
  split
  next => exact hp
  next => exact hq

end Ends

/-! ## `Yields`: what a program puts out -/

/-- A relation between states that is labelled with what is put out on the
way. -/
structure Labelled {ω : Type} (T : σ → List ω → σ → Prop) : Prop where
  refl : ∀ s, T s [] s
  trans : ∀ {s s₁ s₂ l l'}, T s l s₁ → T s₁ l' s₂ → T s (l ++ l') s₂

/-- A result `a` comes with outputs `l` such that `P a l`. -/
def Yields {ω : Type} (T : σ → List ω → σ → Prop) (P : α → List ω → Prop) (p : Prog σ ε α) :
    Prop :=
  ∀ s a s', p s = (.ok a, s') → ∃ l, P a l ∧ T s l s'

section Yields

variable {ω : Type} {T : σ → List ω → σ → Prop} {P : β → List ω → Prop}

theorem yields_pure (hT : Labelled T) {b : β} (h : P b []) : Yields T P (pure b : Prog σ ε β) := by
  intro s a s' hp
  cases hp
  exact ⟨[], h, hT.refl s⟩

theorem yields_fail (e : ε) : Yields T P (fail e : Prog σ ε β) := by
  intro s a s' hp
  cases hp

theorem Yields.mono {P' : β → List ω → Prop} {p : Prog σ ε β} (hp : Yields T P p)
    (h : ∀ b l, P b l → P' b l) : Yields T P' p := by
  intro s a s' hs
  obtain ⟨l, hl, hT⟩ := hp s a s' hs
  exact ⟨l, h a l hl, hT⟩

/-- The outputs of a sequence are those of its halves, one after the other. -/
theorem Yields.bind (hT : Labelled T) {Q : α → List ω → Prop} {p : Prog σ ε α}
    {k : α → Prog σ ε β} (hp : Yields T Q p)
    (hk : ∀ a l, Q a l → Yields T (fun b l' => P b (l ++ l')) (k a)) : Yields T P (p >>= k) := by
  intro s b s' h
  obtain ⟨a, s₁, ha, hb⟩ := bind_eq_ok h
  obtain ⟨l, hl, hs⟩ := hp s a s₁ ha
  obtain ⟨l', hl', hs'⟩ := hk a l hl s₁ b s' hb
  exact ⟨l ++ l', hl', hT.trans hs hs'⟩

/-- A program that puts nothing out. -/
def Silently (T : σ → List ω → σ → Prop) (p : Prog σ ε α) : Prop := Yields T (fun _ l => l = []) p

theorem Silently.bind (hT : Labelled T) {p : Prog σ ε α} {k : α → Prog σ ε β} (hp : Silently T p)
    (hk : ∀ a, Yields T P (k a)) : Yields T P (p >>= k) := by
  refine Yields.bind hT hp fun a l hl => ?_
  rw [hl]
  exact hk a

theorem silently_gets (hT : Labelled T) (f : σ → α) : Silently T (gets f : Prog σ ε α) := by
  intro s a s' h
  cases h
  exact ⟨[], rfl, hT.refl s⟩

theorem silently_pure (hT : Labelled T) (a : α) : Silently T (pure a : Prog σ ε α) :=
  yields_pure hT rfl

/-- A program along the relation for no output puts nothing out. -/
theorem silently_of_keeps {p : Prog σ ε α} (h : Keeps (fun s s' => T s [] s') p) : Silently T p :=
  fun _ _ _ hs => ⟨[], rfl, h.after hs⟩

end Yields

/-! ## `Utters`: what a program has put out wherever it ends -/

/-- However the program ends, something was put out: `l` with `P a l` before a result
`a`, and `l` with `E l` before a stop. -/
def Utters {ω : Type} (T : σ → List ω → σ → Prop) (P : α → List ω → Prop) (E : List ω → Prop)
    (p : Prog σ ε α) : Prop :=
  ∀ s, ∃ l, T s l (p s).2 ∧ (∀ a, (p s).1 = .ok a → P a l) ∧ ∀ e, (p s).1 = .error e → E l

section Utters

variable {ω : Type} {T : σ → List ω → σ → Prop} {P : β → List ω → Prop} {E : List ω → Prop}

theorem utters_pure (hT : Labelled T) {b : β} (h : P b []) :
    Utters T P E (pure b : Prog σ ε β) := by
  intro s
  refine ⟨[], hT.refl s, fun a ha => ?_, fun e he => by cases he⟩
  cases ha
  exact h

/-- A sequence that stops in its first half has put out what that half has. -/
theorem Utters.bind (hT : Labelled T) {Q : α → List ω → Prop} {p : Prog σ ε α}
    {k : α → Prog σ ε β} (hp : Utters T Q E p)
    (hk : ∀ a l, Q a l → Utters T (fun b l' => P b (l ++ l')) (fun l' => E (l ++ l')) (k a)) :
    Utters T P E (p >>= k) := by
  intro s
  obtain ⟨l, hl, hok, herror⟩ := hp s
  match h : p s with
  | (.ok a, s₁) =>
    rw [h] at hl hok
    obtain ⟨l', hl', hok', herror'⟩ := hk a l (hok a rfl) s₁
    rw [bind_of_ok h]
    exact ⟨l ++ l', hT.trans hl hl', hok', herror'⟩
  | (.error e, s₁) =>
    rw [h] at hl herror
    rw [bind_of_error h]
    exact ⟨l, hl, fun a ha => (by cases ha), fun _ _ => herror e rfl⟩

/-- First something that puts nothing out. -/
theorem Utters.bind_silent (hT : Labelled T) {p : Prog σ ε α} {k : α → Prog σ ε β}
    (hp : Keeps (fun s s' => T s [] s') p) (hE : E []) (hk : ∀ a, Utters T P E (k a)) :
    Utters T P E (p >>= k) := by
  refine Utters.bind hT (Q := fun _ l => l = [])
    (fun s => ⟨[], hp s, fun _ _ => rfl, fun _ _ => hE⟩)
    fun a l hl => ?_
  rw [hl]
  exact hk a

end Utters

/-! ## `Agree`: two programs side by side -/

/-- Two outcomes of one kind: results related by `V`, or the same reason to
stop. -/
def SameEnd (V : α → β → Prop) : Except ε α → Except ε β → Prop
  | .ok a, .ok b => V a b
  | .error e, .error e' => e = e'
  | _, _ => False

/-- From states related by `S` both programs end the same way, in related
states — unless one of them stops for a reason in `X`, which is then no possible
course of events. -/
def Agree (X : ε → Prop) (S : σ → τ → Prop) (V : α → β → Prop) (p : Prog σ ε α)
    (q : Prog τ ε β) : Prop :=
  ∀ s t, S s t → (∃ e, X e ∧ (p s).1 = .error e) ∨ (∃ e, X e ∧ (q t).1 = .error e) ∨
    (SameEnd V (p s).1 (q t).1 ∧ S (p s).2 (q t).2)

section Agree

variable {X : ε → Prop} {S : σ → τ → Prop} {V : α → β → Prop} {W : γ → δ → Prop}

theorem agree_pure {a : α} {b : β} (h : V a b) :
    Agree X S V (pure a : Prog σ ε α) (pure b : Prog τ ε β) :=
  fun _ _ hst => .inr (.inr ⟨h, hst⟩)

theorem agree_fail (e : ε) : Agree X S V (fail e : Prog σ ε α) (fail e : Prog τ ε β) :=
  fun _ _ hst => .inr (.inr ⟨rfl, hst⟩)

theorem agree_gets {f : σ → α} {g : τ → β} (h : ∀ s t, S s t → V (f s) (g t)) :
    Agree X S V (gets f : Prog σ ε α) (gets g : Prog τ ε β) :=
  fun s t hst => .inr (.inr ⟨h s t hst, hst⟩)

/-- The sequencing rule for two programs. -/
theorem Agree.bind {p : Prog σ ε α} {q : Prog τ ε β} {k : α → Prog σ ε γ}
    {l : β → Prog τ ε δ} (h : Agree X S V p q)
    (hk : ∀ a b, V a b → Agree X S W (k a) (l b)) : Agree X S W (p >>= k) (q >>= l) := by
  intro s t hst
  rcases h s t hst with ⟨e, he, hp⟩ | ⟨e, he, hq⟩ | ⟨hv, hs⟩
  · exact .inl ⟨e, he, by rw [bind_of_error (Prod.ext hp rfl)]⟩
  · exact .inr (.inl ⟨e, he, by rw [bind_of_error (Prod.ext hq rfl)]⟩)
  · match hp : p s, hq : q t with
    | (.ok a, s₁), (.ok b, t₁) =>
      rw [hp, hq] at hv hs
      rw [bind_of_ok hp, bind_of_ok hq]
      exact hk a b hv s₁ t₁ hs
    | (.ok a, s₁), (.error e, t₁) => rw [hp, hq] at hv; exact hv.elim
    | (.error e, s₁), (.ok b, t₁) => rw [hp, hq] at hv; exact hv.elim
    | (.error e, s₁), (.error e', t₁) =>
      rw [hp, hq] at hv hs
      rw [bind_of_error hp, bind_of_error hq]
      exact .inr (.inr ⟨hv, hs⟩)

/-- Both programs take the same branch. -/
theorem agree_ite {c d : Prop} [Decidable c] [Decidable d] {p p' : Prog σ ε α}
    {q q' : Prog τ ε β} (hcd : c ↔ d) (ht : c → Agree X S V p q) (hf : ¬ c → Agree X S V p' q') :
    Agree X S V (if c then p else p') (if d then q else q') := by
  by_cases h : c
  · rw [if_pos h, if_pos (hcd.mp h)]
    exact ht h
  · rw [if_neg h, if_neg fun hd => h (hcd.mpr hd)]
    exact hf h

end Agree

end Prog

end MyFtp
