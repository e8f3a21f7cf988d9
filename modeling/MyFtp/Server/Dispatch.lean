import MyFtp.Server.Loop
import MyFtp.Server.Outcome

/-!
# What a line is told apart by

A line goes through `read_socket`, `trim`, `tokenize_buffer` and `touppercase` before a
handler sees anything of it, each of which changes it in place.

> `parsed_eq`: where the parse is defined it depends on the trimmed text alone: the first
> word is the name, the runs of the rest are the arguments.

> `dispatch_of_text`: lines whose trimmed texts differ in the case of the first word only
> have the same handler, the same replies and the same next state; a handler runs only for
> its own name.

`get_command_handler` changes the case in the command itself, which a child gets a copy of
and does not look at again. In the model a command keeps its name as it was parsed;
`dispatched` is the command, the child and the state as the program has them. Nothing that
happens later tells them apart (`step_dispatched`).
-/

namespace MyFtp.Server

open MyFtp.Posix
open Prog

/-! ## The text of a line -/

/-- The text up to the first blank. -/
def firstWord (text : CStr) : CStr := text.takeWhile (! blank ·)

/-- The text from the first blank on. -/
def afterFirstWord (text : CStr) : CStr := text.dropWhile (! blank ·)

/-- A letter of the ASCII alphabet, and the small one that goes with it. -/
def IsCapitalOf (capital small : Byte) : Prop :=
  65 ≤ capital ∧ capital ≤ 90 ∧ small = capital + 32

/-- The bytes are equal, or they are one letter in both cases. -/
def SameLetter (a b : Byte) : Prop := a = b ∨ IsCapitalOf a b ∨ IsCapitalOf b a

/-- Two texts are equal up to the case of the letters of the first word. -/
def SameText (text₁ text₂ : CStr) : Prop :=
  List.Forall₂ SameLetter (firstWord text₁) (firstWord text₂) ∧
    afterFirstWord text₁ = afterFirstWord text₂

instance (capital small : Byte) : Decidable (IsCapitalOf capital small) :=
  inferInstanceAs (Decidable (_ ∧ _ ∧ _))

instance (a b : Byte) : Decidable (SameLetter a b) := inferInstanceAs (Decidable (_ ∨ _ ∨ _))

instance (text₁ text₂ : CStr) : Decidable (SameText text₁ text₂) :=
  inferInstanceAs (Decidable (_ ∧ _))

/-- `touppercase` makes the capital of a small letter, and leaves a capital. -/
theorem touppercase_capital {capital small : Byte} (h : IsCapitalOf capital small) :
    touppercase [capital] = touppercase [small] := by
  obtain ⟨hle, hge, rfl⟩ := h
  simp only [UInt8.le_iff_toNat_le, UInt8.reduceToNat] at hle hge
  have hcapital : ¬ (97 ≤ capital ∧ capital ≤ 122) := by
    simp only [UInt8.le_iff_toNat_le, UInt8.reduceToNat]
    omega
  have hsmall : 97 ≤ capital + 32 ∧ capital + 32 ≤ 122 := by
    simp only [UInt8.le_iff_toNat_le, UInt8.toNat_add, UInt8.reduceToNat]
    omega
  unfold touppercase
  rw [List.map_singleton, List.map_singleton, if_neg hcapital, if_pos hsmall,
    UInt8.add_sub_cancel]

/-- The case of a letter makes no difference to it. -/
theorem touppercase_sameLetters {word₁ word₂ : CStr} (h : List.Forall₂ SameLetter word₁ word₂) :
    touppercase word₁ = touppercase word₂ := by
  have hcons : ∀ (c : Byte) (word : CStr),
      touppercase (c :: word) = touppercase [c] ++ touppercase word := fun _ _ => rfl
  induction h with
  | nil => rfl
  | @cons a b word₁ word₂ hletter _ ih =>
    rw [hcons a, hcons b, ih]
    rcases hletter with rfl | hcapital | hcapital
    · rfl
    · rw [touppercase_capital hcapital]
    · rw [touppercase_capital hcapital]

/-- The command in a trimmed text. -/
def commandOfText (text : CStr) : Option Command :=
  if text = [] then none
  else some ⟨firstWord text, runs blank ((afterFirstWord text).drop 1)⟩

/-- A blank at the end makes no difference to `trim`. -/
theorem trim_concat {c : Byte} (hc : isspace c = true) (s : CStr) : trim (s ++ [c]) = trim s := by
  unfold trim
  rw [List.dropWhile_append]
  split
  next h =>
    rw [List.isEmpty_iff.mp h, List.dropWhile_cons_of_pos hc, List.dropWhile_nil]
  next => rw [List.rdropWhile_concat_pos _ _ _ hc]

/-- Taking the newline off makes no difference to what `trim` leaves. -/
theorem trim_readSocket {bytes : List Byte} {line : CStr} (hnul : NulFree bytes)
    (h : readSocket bytes = some line) : trim line = trim bytes := by
  unfold readSocket at h
  split at h
  next => cases h
  next hne =>
    obtain rfl := Option.some.inj h
    split
    next hlast =>
      have hsplit := List.dropLast_append_getLast? newline hlast
      have hcstr : cstr bytes.dropLast = bytes.dropLast :=
        cstr_eq_self fun hmem => hnul (List.dropLast_subset _ hmem)
      rw [hcstr]
      conv_rhs => rw [← hsplit]
      exact (trim_concat (by decide) _).symm
    next => rw [cstr_eq_self hnul]

/-- The words of a line are its first word and the runs of the rest. -/
theorem words_eq {s : CStr} (hne : trim s ≠ []) :
    words s = firstWord (trim s) :: runs blank ((afterFirstWord (trim s)).drop 1) := by
  have hfirst : blank ((trim s).head hne) = false := by
    cases h : blank ((trim s).head hne) with
    | false => rfl
    | true =>
      have hspace := head_trim hne
      rw [show (trim s).head hne = 32 by simpa [blank] using h, isspace_blank] at hspace
      cases hspace
  refine runs_of_strtok ?_
  cases htrim : trim s with
  | nil => exact absurd htrim hne
  | cons c t =>
    simp only [htrim, List.head_cons] at hfirst
    rw [strtok, List.dropWhile_cons_of_neg (by simp [hfirst])]
    rfl

/-- **What is parsed.** A defined parse is the command in the trimmed text. -/
theorem parsed_eq {line : CStr} {parsed : Option Command} (h : parseBuffer line = .ok parsed) :
    parsed = commandOfText (trim line) := by
  unfold commandOfText
  by_cases hne : trim line = []
  · rw [if_pos hne]
    rw [parseBuffer, hne] at h
    cases h
    rfl
  · rw [if_neg hne]
    have hs : SingleSpaced line := by
      by_contra hs
      rw [parseBuffer_undefined hs] at h
      cases h
    obtain ⟨command, hparsed⟩ := parsedAs_of_singleSpaced hne hs
    cases h.symm.trans hparsed.result
    have hwords := hparsed.words
    rw [words_eq hne] at hwords
    obtain ⟨hname, hargv⟩ := List.cons.inj hwords
    rw [← hname, ← hargv]

/-! ## The name as the program leaves it -/

/-- The command after `touppercase(command->name)`. -/
def Command.dispatched (command : Command) : Command := { command with name := command.word }

def Child.dispatched (child : Child) : Child := { child with command := child.command.dispatched }

def Ctx.dispatched (s : Ctx) : Ctx := { s with forked := s.forked.map Child.dispatched }

def World.dispatched (w : World) : World :=
  { w with children := w.children.map fun child => (child.1, child.2.dispatched) }

def Sessions.dispatched (S : Sessions) : Sessions := { S with world := S.world.dispatched }

/-- Texts equal up to the case of the first word hold the same command. -/
theorem dispatched_of_sameText {text₁ text₂ : CStr} (h : SameText text₁ text₂) :
    (commandOfText text₁).map Command.dispatched =
      (commandOfText text₂).map Command.dispatched := by
  obtain ⟨hletters, hafter⟩ := h
  have hword := touppercase_sameLetters hletters
  have hnil : ∀ text : CStr, text = [] ↔ touppercase (firstWord text) = [] ∧
      afterFirstWord text = [] := by
    intro text
    have hsplit : firstWord text ++ afterFirstWord text = text := List.takeWhile_append_dropWhile
    unfold touppercase
    rw [List.map_eq_nil_iff, ← List.append_eq_nil_iff, hsplit]
  have hempty : text₁ = [] ↔ text₂ = [] := by rw [hnil text₁, hnil text₂, hword, hafter]
  unfold commandOfText
  by_cases h₁ : text₁ = []
  · rw [if_pos h₁, if_pos (hempty.mp h₁)]
  · rw [if_neg h₁, if_neg fun h₂ => h₁ (hempty.mpr h₂), Option.map_some, Option.map_some]
    unfold Command.dispatched Command.word
    dsimp only
    rw [hword, hafter]

/-- The handler depends on the command as it is dispatched. -/
theorem getCommandHandler_dispatched {command₁ command₂ : Command}
    (h : command₁.dispatched = command₂.dispatched) :
    getCommandHandler command₁ = getCommandHandler command₂ := by
  have hword : touppercase command₁.name = touppercase command₂.name := congrArg Command.name h
  unfold getCommandHandler
  rw [hword]

/-- From one state both programs go to one state, as the program has it. -/
def Indistinct {α : Type} (p q : M α) : Prop :=
  ∀ s, (p s).1 = (q s).1 ∧ (p s).2.dispatched = (q s).2.dispatched

theorem indistinct_refl {α : Type} (p : M α) : Indistinct p p := fun _ => ⟨rfl, rfl⟩

theorem indistinct_bind {α β : Type} {p : M α} {k l : α → M β} (h : ∀ a, Indistinct (k a) (l a)) :
    Indistinct (p >>= k) (p >>= l) := by
  intro s
  match hp : p s with
  | (.ok a, s₁) =>
    rw [bind_of_ok hp, bind_of_ok hp]
    exact h a s₁
  | (.error e, s₁) =>
    rw [bind_of_error hp, bind_of_error hp]
    exact ⟨rfl, rfl⟩

theorem indistinct_ite {α : Type} {c : Prop} [Decidable c] {p p' q q' : M α} (h : Indistinct p q)
    (h' : Indistinct p' q') : Indistinct (if c then p else p') (if c then q else q') := by
  by_cases hc : c
  · rw [if_pos hc, if_pos hc]
    exact h
  · rw [if_neg hc, if_neg hc]
    exact h'

/-- What follows a fork does not look at the children. -/
theorem release_withForked (s : Ctx) (forked : List Child) :
    let release : M CommandStatus := do
      let c ← conn
      destroyDataSocket c.dataSocket
      setDataSocket none
      return .success
    release { s with forked } = ((release s).1, { (release s).2 with forked }) := by
  intro release
  have hrelease : ∀ s, release s = (do
    destroyDataSocket s.conn.dataSocket
    setDataSocket none
    return .success : M CommandStatus) s := fun _ => rfl
  rw [hrelease, hrelease]
  unfold destroyDataSocket
  dsimp only
  cases s.conn.dataSocket.bind DataSocket.clientSockfd with
  | none => rfl
  | some fd => rfl

section

variable {server : ServerT} {ans : Answers} {command₁ command₂ : Command}

theorem indistinct_transfer (ans : Answers) (h : command₁.dispatched = command₂.dispatched)
    (body : TransferBody) :
    Indistinct (executeDataSocketCommand ans body command₁)
      (executeDataSocketCommand ans body command₂) := by
  refine indistinct_bind fun connected => indistinct_ite (indistinct_refl _) ?_
  cases hfork : ans.fork with
  | false =>
    have hsame : forkExecution ans body command₁ = forkExecution ans body command₂ := by
      unfold forkExecution
      rw [hfork]
      rfl
    rw [hsame]
    exact indistinct_refl _
  | true =>
    intro s
    have hforked : ∀ command, forkExecution ans body command s = (.ok .success,
        { s with forked := s.forked ++ [⟨body, command, s.conn, s.os.cwd, s.os.desc⟩] }) := by
      intro command
      rw [forkExecution_apply, hfork]
      rfl
    rw [bind_of_ok (hforked command₁), bind_of_ok (hforked command₂)]
    have hafter := fun command =>
      release_withForked s (s.forked ++ [⟨body, command, s.conn, s.os.cwd, s.os.desc⟩])
    refine ⟨(congrArg Prod.fst (hafter command₁)).trans
      (congrArg Prod.fst (hafter command₂)).symm, ?_⟩
    refine (congrArg (fun r => r.2.dispatched) (hafter command₁)).trans <|
      Eq.trans ?_ (congrArg (fun r => r.2.dispatched) (hafter command₂)).symm
    unfold Ctx.dispatched
    dsimp only
    rw [List.map_append, List.map_append, List.map_singleton, List.map_singleton, Child.dispatched,
      Child.dispatched, h]

theorem indistinct_handler {name : CStr} {handler : Handler}
    (hmem : (name, handler) ∈ commandHandlers)
    (h : command₁.dispatched = command₂.dispatched) :
    Indistinct (handler server ans command₁) (handler server ans command₂) := by
  have htransfer := fun body => indistinct_transfer ans h body
  have hargv : command₁.dispatched.argv = command₂.dispatched.argv := congrArg Command.argv h
  obtain ⟨name₁, argv⟩ := command₁
  obtain ⟨name₂, argv₂⟩ := command₂
  obtain rfl : argv = argv₂ := hargv
  simp only [commandHandlers, List.mem_cons, Prod.mk.injEq, List.not_mem_nil, or_false] at hmem
  rcases hmem with hh | hh | hh | hh | hh | hh | hh | hh | hh | hh | hh | hh | hh | hh | hh <;>
    obtain ⟨-, rfl⟩ := hh
  -- only the handlers of transfers keep the command
  · exact indistinct_refl _
  · exact indistinct_refl _
  · exact indistinct_refl _
  · exact indistinct_refl _
  · exact indistinct_refl _
  · exact indistinct_refl _
  · exact indistinct_refl _
  · exact indistinct_refl _
  · exact indistinct_refl _
  · exact indistinct_refl _
  · exact indistinct_refl _
  · exact indistinct_bind fun c => indistinct_ite (indistinct_refl _) <|
      indistinct_ite (indistinct_refl _) <| indistinct_ite (indistinct_refl _) <|
        indistinct_bind fun path => indistinct_bind fun failed =>
          indistinct_ite (indistinct_refl _) (htransfer _)
  · exact indistinct_bind fun c => indistinct_ite (indistinct_refl _) <|
      indistinct_ite (indistinct_refl _) <| indistinct_ite (indistinct_refl _) (htransfer _)
  · refine indistinct_bind fun c => indistinct_ite (indistinct_refl _) <|
      indistinct_ite (indistinct_refl _) ?_
    cases argv with
    | nil => exact htransfer _
    | cons path argv =>
      exact indistinct_bind fun failed => indistinct_ite (indistinct_refl _) (htransfer _)
  · exact indistinct_refl _

/-- A line goes to its handler or to the answer that there is none. -/
theorem indistinct_executeCommand (server : ServerT) (ans : Answers)
    {parsed₁ parsed₂ : Option Command}
    (h : parsed₁.map Command.dispatched = parsed₂.map Command.dispatched) :
    Indistinct (executeCommand server ans parsed₁) (executeCommand server ans parsed₂) := by
  cases parsed₁ with
  | none =>
    rw [Option.map_none, eq_comm, Option.map_eq_none_iff] at h
    rw [h]
    exact indistinct_refl _
  | some command₁ =>
    obtain ⟨command₂, rfl, hsame⟩ := Option.map_eq_some_iff.mp h.symm
    have hhandler := getCommandHandler_dispatched hsame
    cases hh : getCommandHandler command₁ with
    | none =>
      rw [executeCommand_of_none hh, executeCommand_of_none (hhandler.trans hh)]
      exact indistinct_refl _
    | some handler =>
      have hmem := getCommandHandler_mem hh
      rw [executeCommand_of_mem hmem,
        executeCommand_of_mem (getCommandHandler_mem (hhandler.trans hh))]
      exact indistinct_handler hmem hsame.symm

end

/-! ## The state after a line -/

theorem merge_dispatched (w : World) (id : ConnId) (s : Ctx) :
    (w.merge id s).dispatched = w.dispatched.merge id s.dispatched := by
  unfold World.dispatched World.merge Ctx.dispatched
  dsimp only
  rw [List.map_append, List.map_map, List.map_map]
  rfl

theorem handled_dispatched (S : Sessions) (id : ConnId) (stays : Bool) (c : Connection)
    (w : World) :
    (S.handled id (stays, c, w)).dispatched = S.dispatched.handled id
      (stays, c, w.dispatched) := rfl

/-- Lines with the same command leave the same state. -/
theorem handleLine_dispatched {server : ServerT} {S : Sessions} {id : ConnId} {c : Connection}
    {line₁ line₂ : CStr} {ans : Answers} {parsed₁ parsed₂ : Option Command}
    (hc : S.conns id = some c) (hparse₁ : parseBuffer line₁ = .ok parsed₁)
    (hparse₂ : parseBuffer line₂ = .ok parsed₂)
    (h : parsed₁.map Command.dispatched = parsed₂.map Command.dispatched) :
    (S.handleLine server id line₁ ans).map Sessions.dispatched =
      (S.handleLine server id line₂ ans).map Sessions.dispatched := by
  have hquits : ∀ {parsed parsed' : Option Command},
      parsed.map Command.dispatched = parsed'.map Command.dispatched →
      ∀ command, parsed = some command → command.word = lit "QUIT" →
        ∃ command', parsed' = some command' ∧ command'.word = lit "QUIT" := by
    rintro parsed parsed' h command rfl hword
    obtain ⟨command', rfl, hsame⟩ := Option.map_eq_some_iff.mp h.symm
    exact ⟨command', rfl, (congrArg Command.name hsame).trans hword⟩
  by_cases hquit : ∃ command, parsed₁ = some command ∧ command.word = lit "QUIT"
  · obtain ⟨command₁, rfl, hword₁⟩ := hquit
    obtain ⟨command₂, rfl, hword₂⟩ := hquits h command₁ rfl hword₁
    rw [handleLine_quit hc hparse₁ hword₁, handleLine_quit hc hparse₂ hword₂]
  · have hquit₁ : ∀ command, parsed₁ = some command → command.word ≠ lit "QUIT" :=
      fun command hcommand hword => hquit ⟨command, hcommand, hword⟩
    have hquit₂ : ∀ command, parsed₂ = some command → command.word ≠ lit "QUIT" :=
      fun command hcommand hword => hquit (hquits h.symm command hcommand hword)
    rw [handleLine_of_executeCommand hc hparse₁ hquit₁,
      handleLine_of_executeCommand hc hparse₂ hquit₂]
    have hsame_end := indistinct_executeCommand server ans h (Ctx.start S.world.os c)
    match hx₁ : executeCommand server ans parsed₁ (Ctx.start S.world.os c),
      hx₂ : executeCommand server ans parsed₂ (Ctx.start S.world.os c) with
    | (.ok status₁, s₁), (.ok status₂, s₂) =>
      rw [hx₁, hx₂] at hsame_end
      show Except.ok (S.handled id (true, s₁.dispatched.conn, S.world.merge id s₁)).dispatched =
        Except.ok (S.handled id (true, s₂.dispatched.conn, S.world.merge id s₂)).dispatched
      rw [handled_dispatched, handled_dispatched, merge_dispatched, merge_dispatched, hsame_end.2]
    | (.ok status₁, s₁), (.error e₂, s₂) =>
      rw [hx₁, hx₂] at hsame_end
      cases hsame_end.1
    | (.error e₁, s₁), (.ok status₂, s₂) =>
      rw [hx₁, hx₂] at hsame_end
      cases hsame_end.1
    | (.error e₁, s₁), (.error e₂, s₂) =>
      rw [hx₁, hx₂] at hsame_end
      cases hsame_end.1
      rfl

/-! ## What happens later -/

theorem Command.dispatched_dispatched (command : Command) :
    command.dispatched.dispatched = command.dispatched := by
  unfold Command.dispatched Command.word
  dsimp only
  rw [touppercase_touppercase]

theorem World.dispatched_dispatched (w : World) : w.dispatched.dispatched = w.dispatched := by
  unfold World.dispatched
  dsimp only
  rw [List.map_map]
  refine congrArg (fun children => { w with children }) (List.map_congr_left fun child _ => ?_)
  exact congrArg (fun command => (child.1, { child.2 with command }))
    (Command.dispatched_dispatched child.2.command)

/-- A child does what it does whatever its command is called. -/
theorem run_dispatched (body : TransferBody) (server : ServerT) (cans : ChildAnswers)
    (command : Command) : body.run server cans command.dispatched =
      body.run server cans command := by
  cases body with
  | executeLsCommand => rfl
  | executeRetrCommand => rfl
  | executeStorCommand => rfl

theorem runChild_dispatched (w : World) (server : ServerT) (k : Nat) (cans : ChildAnswers) :
    w.dispatched.runChild server k cans = (w.runChild server k cans).map World.dispatched := by
  unfold World.runChild World.dispatched
  dsimp only
  rw [List.getElem?_map]
  cases w.children[k]? with
  | none => rfl
  | some child =>
    obtain ⟨id, child⟩ := child
    dsimp only [Option.map_some]
    have herase : ∀ {α β : Type} (f : α → β) (l : List α),
        (l.map f).eraseIdx k = (l.eraseIdx k).map f := by
      intro α β f l
      rw [List.eraseIdx_eq_take_drop_succ, List.eraseIdx_eq_take_drop_succ, List.map_append,
        List.map_take, List.map_drop]
    rw [Child.dispatched, run_dispatched, herase]
    rfl

theorem merge_of_dispatched (w : World) (id : ConnId) (s : Ctx) :
    (w.dispatched.merge id s).dispatched = (w.merge id s).dispatched := by
  rw [merge_dispatched, merge_dispatched, World.dispatched_dispatched]

theorem exec_dispatched {α : Type} (w : World) (id : ConnId) (c : Connection) (p : M α) :
    (w.dispatched.exec id c p).map (fun r => (r.1, r.2.1, r.2.2.dispatched)) =
      (w.exec id c p).map fun r => (r.1, r.2.1, r.2.2.dispatched) := by
  have hos : w.dispatched.os = w.os := rfl
  unfold World.exec
  rw [hos]
  match p (Ctx.start w.os c) with
  | (.ok a, s) =>
    exact congrArg (fun w => Except.ok (a, s.conn, w)) (merge_of_dispatched w id s)
  | (.error e, s) => rfl

theorem accept_dispatched (w : World) (server : ServerT) (fd : Fd) (addr : SockAddr) :
    (w.dispatched.accept server fd addr).map (fun r => (r.1, r.2.dispatched)) =
      (w.accept server fd addr).map fun r => (r.1, r.2.dispatched) := by
  have hos : w.dispatched.os = w.os := rfl
  have hnext : w.dispatched.nextId = w.nextId := rfl
  unfold World.accept World.exec
  rw [hos, hnext]
  match greet fd w.nextId (Ctx.start w.os (initConnection server fd addr)) with
  | (.ok a, s) =>
    exact congrArg (fun world : World => Except.ok (s.conn, { world with nextId := w.nextId + 1 }))
      (merge_of_dispatched w w.nextId s)
  | (.error e, s) => rfl

theorem map_map {α β γ : Type} (x : Except Halt α) (f : α → β) (g : β → γ) :
    (x.map f).map g = x.map fun a => g (f a) := by
  cases x with
  | ok a => rfl
  | error e => rfl

theorem dataConnect_dispatched (w : World) (fd : Fd) :
    w.dispatched.dataConnect fd = (w.dataConnect fd).map World.dispatched := by
  have hos : w.dispatched.os = w.os := rfl
  unfold World.dataConnect
  rw [hos]
  split
  next => rfl
  next => rfl

/-- What changes the world only. -/
theorem same_of_map (S : Sessions) (x : Except Halt World) :
    ((x.map World.dispatched).map fun world =>
      { S.dispatched with world }).map Sessions.dispatched =
      (x.map fun world => { S with world }).map Sessions.dispatched := by
  cases x with
  | ok w =>
    exact congrArg (fun world => Except.ok ({ S with world } : Sessions)) w.dispatched_dispatched
  | error e => rfl

/-- **The name is not looked at again.** One event makes of a state, and of the state as
the program has it, the same. -/
theorem step_dispatched (server : ServerT) (S : Sessions) (e : SessionEvent) :
    (S.dispatched.step server e).map Sessions.dispatched =
      (S.step server e).map Sessions.dispatched := by
  cases e with
  | accept fd addr served =>
    have haccept := congrArg (Except.map fun r : Connection × World => (
      { world := r.2
        conns := if served then Function.update S.conns S.world.nextId (some r.1) else S.conns } :
          Sessions)) (accept_dispatched S.world server fd addr)
    unfold Sessions.step
    dsimp only
    rw [map_map, map_map] at haccept ⊢
    exact haccept
  | line id line ans =>
    show (S.dispatched.handleLine server id line ans).map _ =
      (S.handleLine server id line ans).map _
    have hconns : S.dispatched.conns = S.conns := rfl
    unfold Sessions.handleLine
    rw [hconns]
    cases S.conns id with
    | none => rfl
    | some c =>
      have hexec := congrArg (Except.map (S.handled id)) (exec_dispatched S.world id c
        (handleConnection server ans c.clientSockfd (some line)))
      dsimp only
      rw [map_map, map_map] at hexec ⊢
      exact hexec
  | child k cans =>
    show ((S.world.dispatched.runChild server k cans).map _).map _ = _
    rw [runChild_dispatched]
    exact same_of_map S (S.world.runChild server k cans)
  | hangup id =>
    exact congrArg (fun world => Except.ok ({ S with world } : Sessions))
      (World.dispatched_dispatched (S.world.hangup id))
  | dataConnect fd =>
    show ((S.world.dispatched.dataConnect fd).map _).map _ = _
    rw [dataConnect_dispatched]
    exact same_of_map S (S.world.dataConnect fd)

/-- Two states that are one state to the program stay one, whatever happens. -/
theorem run_indistinct {u : Setup} (events : List SessionEvent) :
    ∀ {S T : Sessions}, S.dispatched = T.dispatched →
      ((sessions u).runFrom S events).map Sessions.dispatched =
        ((sessions u).runFrom T events).map Sessions.dispatched := by
  induction events with
  | nil => exact fun h => congrArg Except.ok h
  | cons e events ih =>
    intro S T h
    have hstep : ((sessions u).step S e).map Sessions.dispatched =
        ((sessions u).step T e).map Sessions.dispatched := by
      show (S.step u.server e).map _ = (T.step u.server e).map _
      rw [← step_dispatched, h, step_dispatched]
    unfold Machine.runFrom
    cases hS : (sessions u).step S e with
    | ok S' =>
      rw [hS] at hstep
      obtain ⟨T', hT, hsame⟩ := map_eq_ok hstep.symm
      rw [hT]
      exact ih hsame.symm
    | error err =>
      rw [hS] at hstep
      rw [map_eq_error hstep.symm]

/-! ## Lines with a handler, and without -/

section

variable {u : Setup} {events : List SessionEvent} {S : Sessions} {id : ConnId} {c : Connection}
  {ans : Answers}

/-- A line that has no handler is answered, if its client is there, and nothing else
happens. -/
theorem unknown_step {line : CStr} {parsed : Option Command}
    (hrun : (sessions u).run events = .ok S) (hc : S.conns id = some c)
    (hparse : parseBuffer line = .ok parsed)
    (hnone : ∀ command, parsed = some command → getCommandHandler command = none) :
    S.step u.server (.line id line ans) =
      if S.world.os.hungup id then .error .sigpipe
      else .ok { S with world := { S.world with
        sent := S.world.sent ++
          [(id, if c.loggedIn then .unknownCommand else .pleaseLogin)] } } := by
  obtain ⟨hspeaks, -⟩ := speaks_of_run hrun hc
  have hctl : S.world.os.desc c.clientSockfd = some (.control id) := hspeaks.owns.control
  have hsig : S.world.os.signals .sigpipe = .default := hspeaks.sigpipe
  have hquit : ∀ command, parsed = some command → command.word ≠ lit "QUIT" := by
    intro command hcommand hword
    have hmem : (command.word, fun _ _ _ => quitCommand) ∈ commandHandlers := by
      rw [hword]
      exact List.mem_of_getElem? (i := 4) rfl
    have hhandler := getCommandHandler_of_mem hmem
    rw [hnone command hcommand] at hhandler
    cases hhandler
  have hexec : executeCommand u.server ans parsed = executeCommand u.server ans none := by
    cases parsed with
    | none => rfl
    | some command => exact executeCommand_of_none (hnone command rfl)
  show S.handleLine u.server id line ans = _
  rw [handleLine_of_executeCommand hc hparse hquit, hexec]
  have hanswer : executeCommand u.server ans none (Ctx.start S.world.os c) =
      if S.world.os.kills c.clientSockfd then (.error .sigpipe, Ctx.start S.world.os c)
      else (.ok .notFound, { Ctx.start S.world.os c with
        out := S.world.os.delivers c.clientSockfd
          (if c.loggedIn then .unknownCommand else .pleaseLogin) }) := by
    show (notFoundMessage >>= fun _ => pure .notFound : M CommandStatus) _ = _
    unfold notFoundMessage
    rw [bind_assoc, conn_bind_apply, reply_bind_apply, dprintf_bind_apply]
    rfl
  rw [hanswer]
  cases hup : S.world.os.hungup id with
  | true =>
    have hkills : S.world.os.kills c.clientSockfd = true := by
      rw [kills_eq hctl, hup, hsig]
      rfl
    rw [hkills]
    rfl
  | false =>
    rw [kills_of_control hctl hup, delivers_of_control hctl hup]
    show Except.ok (S.handled id (true, c, _)) = _
    unfold Sessions.handled
    dsimp only
    rw [if_pos rfl, ← hc, Function.update_eq_self]
    simp [World.merge, Ctx.start]

/-- The handler of a line is the one in the table for its first word. -/
theorem handler_of_text {line : CStr} {parsed : Option Command} {handler : Handler}
    (hparse : parseBuffer line = .ok parsed) :
    (∃ command, parsed = some command ∧ getCommandHandler command = some handler) ↔
      (touppercase (firstWord (trim line)), handler) ∈ commandHandlers := by
  rw [parsed_eq hparse]
  unfold commandOfText
  by_cases hne : trim line = []
  · rw [if_pos hne, hne]
    refine iff_of_false (by simp) fun hmem => ?_
    have hname : touppercase (firstWord []) ∈ commandHandlers.map Prod.fst :=
      List.mem_map_of_mem hmem
    revert hname
    decide
  · rw [if_neg hne]
    constructor
    · rintro ⟨command, hcommand, hhandler⟩
      cases hcommand
      exact getCommandHandler_mem hhandler
    · exact fun hmem => ⟨_, rfl, getCommandHandler_of_mem hmem⟩

/-- **Case and surrounding blanks, and nothing else.** Two lines are read whose parse is
defined, and their trimmed texts are equal up to the case of the first word: they are one
command, they have one handler, and the replies and the next state are the same. A line
runs a handler only if its first word in upper case is the handler's name in the table.
Otherwise the client, if it is there, is told that the command is unknown or to log in, and
nothing else changes. -/
theorem dispatch_of_text (u : Setup) (events : List SessionEvent) (S : Sessions) (id : ConnId)
    (c : Connection) (ans : Answers) (hrun : (sessions u).run events = .ok S)
    (hc : S.conns id = some c) :
    (∀ bytes₁ bytes₂ line₁ line₂ parsed₁ parsed₂, NulFree bytes₁ → NulFree bytes₂ →
      readSocket bytes₁ = some line₁ → readSocket bytes₂ = some line₂ →
      parseBuffer line₁ = .ok parsed₁ → parseBuffer line₂ = .ok parsed₂ →
      SameText (trim bytes₁) (trim bytes₂) →
      parsed₁.map Command.dispatched = parsed₂.map Command.dispatched ∧
        parsed₁.bind getCommandHandler = parsed₂.bind getCommandHandler ∧
        (S.step u.server (.line id line₁ ans)).map Sessions.dispatched =
          (S.step u.server (.line id line₂ ans)).map Sessions.dispatched) ∧
    ∀ bytes line parsed, NulFree bytes → readSocket bytes = some line →
      parseBuffer line = .ok parsed →
      (∃ command handler, parsed = some command ∧
        (touppercase (firstWord (trim bytes)), handler) ∈ commandHandlers ∧
        executeCommand u.server ans parsed = handler u.server ans command) ∨
      (touppercase (firstWord (trim bytes)) ∉ commandHandlers.map Prod.fst ∧
        S.step u.server (.line id line ans) =
          if S.world.os.hungup id then .error .sigpipe
          else .ok { S with world := { S.world with
            sent := S.world.sent ++
              [(id, if c.loggedIn then .unknownCommand else .pleaseLogin)] } }) := by
  constructor
  · intro bytes₁ bytes₂ line₁ line₂ parsed₁ parsed₂ hnul₁ hnul₂ hread₁ hread₂ hparse₁ hparse₂ htext
    have hsame : parsed₁.map Command.dispatched = parsed₂.map Command.dispatched := by
      rw [parsed_eq hparse₁, parsed_eq hparse₂, trim_readSocket hnul₁ hread₁,
        trim_readSocket hnul₂ hread₂]
      exact dispatched_of_sameText htext
    refine ⟨hsame, ?_, handleLine_dispatched hc hparse₁ hparse₂ hsame⟩
    cases parsed₁ with
    | none =>
      rw [Option.map_none, eq_comm, Option.map_eq_none_iff] at hsame
      rw [hsame]
    | some command₁ =>
      obtain ⟨command₂, rfl, hcommand⟩ := Option.map_eq_some_iff.mp hsame.symm
      exact getCommandHandler_dispatched hcommand.symm
  · intro bytes line parsed hnul hread hparse
    rw [← trim_readSocket hnul hread]
    by_cases hnone : ∀ command, parsed = some command → getCommandHandler command = none
    · refine .inr ⟨fun hmem => ?_, unknown_step hrun hc hparse hnone⟩
      obtain ⟨⟨name, handler⟩, hmem, rfl⟩ := List.mem_map.mp hmem
      obtain ⟨command, hcommand, hhandler⟩ := (handler_of_text hparse).mpr hmem
      rw [hnone command hcommand] at hhandler
      cases hhandler
    · obtain ⟨command, hnone⟩ := not_forall.mp hnone
      obtain ⟨hcommand, hnone⟩ := Classical.not_imp.mp hnone
      obtain ⟨handler, hhandler⟩ := Option.ne_none_iff_exists'.mp hnone
      refine .inl ⟨command, handler, hcommand,
        (handler_of_text hparse).mp ⟨command, hcommand, hhandler⟩, ?_⟩
      rw [hcommand]
      exact executeCommand_of_mem (getCommandHandler_mem hhandler)

end

/-- A listing asked for in two ways, and a word that is in no entry of the table. -/
theorem dispatch_of_text_list :
    ∃ S, (sessions smallSetup).run
        (oneClient ["USER anonymous", "PASS", "PORT 127,0,0,1,4,7"]) = .ok S ∧
      (S.step smallSetup.server (.line 0 (lit "\tlIsT pub\r") (.fine 8))).map Sessions.dispatched =
        (S.step smallSetup.server (.line 0 (lit "LIST pub ") (.fine 8))).map Sessions.dispatched ∧
      S.step smallSetup.server (.line 0 (lit "LISTS pub") (.fine 8)) =
        .ok { S with world := { S.world with
          sent := S.world.sent ++ [(0, .unknownCommand)] } } := by
  obtain ⟨S, hrun, hlog, hup⟩ := Machine.exists_of_run (m := sessions smallSetup)
    (P := fun S => (S.conns 0).map (·.loggedIn) = some true ∧ S.world.os.hungup 0 = false)
    (l := oneClient ["USER anonymous", "PASS", "PORT 127,0,0,1,4,7"]) (by decide +kernel)
  obtain ⟨c, hc, hlog⟩ := Option.map_eq_some_iff.mp hlog
  have hdispatch := dispatch_of_text smallSetup _ S 0 c (.fine 8) hrun hc
  refine ⟨S, hrun, ?_, ?_⟩
  · exact (hdispatch.1 (lit "\tlIsT pub\r\n") (lit "LIST pub \n") _ _
      (some ⟨lit "lIsT", [lit "pub"]⟩) (some ⟨lit "LIST", [lit "pub"]⟩) (by decide) (by decide)
      (by decide) (by decide) (by decide) (by decide) (by decide)).2.2
  · rcases hdispatch.2 (lit "LISTS pub\n") (lit "LISTS pub") (some ⟨lit "LISTS", [lit "pub"]⟩)
      (by decide) (by decide) (by decide) with ⟨command, handler, -, hmem, -⟩ | ⟨-, hstep⟩
    · have hname : touppercase (firstWord (trim (lit "LISTS pub\n"))) ∈
          commandHandlers.map Prod.fst := List.mem_map_of_mem hmem
      exact absurd hname (by decide)
    · rw [hup, hlog] at hstep
      exact hstep

end MyFtp.Server
