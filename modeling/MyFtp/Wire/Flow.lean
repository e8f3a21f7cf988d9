import MyFtp.Wire.Exchange

/-!
# What is on its way

The books of an exchange. Every byte of the request, of the replies and of the data is
still to be written, on its way, or read, and where the client is says how much of it
it has read.

> `Flow`: the invariant, which every move keeps that does not read beyond a line
> (`flow_of_run`).

What makes a deadlock possible is in it too: as long as `get` and `ls` wait for the second
line, nobody takes anything from the data connection.
-/

namespace MyFtp.Wire

open MyFtp.Posix
open MyFtp.Server
open MyFtp.Client (hasCode commandLine)

/-! ## Scripts -/

/-- The text of the opening line, if there is one. -/
def Script.openingText (script : Script) : List Byte := script.opening.elim [] Reply.text

/-- All that is said. -/
def Script.said (script : Script) : List Byte := script.openingText ++ script.closing.text

/-- Whether the client gets data, rather than sending it. -/
def Action.fetches : Action → Bool
  | .get _ => true
  | .ls _ => true
  | .put _ _ => false

/-- What an answer to the action looks like. -/
structure Script.Fair (script : Script) (action : Action) : Prop where
  closing_line : IsLine script.closing.text
  opening_line : ∀ r ∈ script.opening, IsLine r.text
  opening_code : ∀ r ∈ script.opening, hasCode (cstr r.text) "150" = true
  refusal_code : script.opening = none → hasCode (cstr script.closing.text) "150" = false
  refusal_bytes : script.opening = none → script.middle = .sends []
  upload_bytes : action.fetches = false → script.middle.bytes = []
  fetch_sends : action.fetches = true → script.middle ≠ .receives

theorem fair_refusal {r : Reply} (action : Action) (hline : IsLine r.text)
    (hcode : hasCode (cstr r.text) "150" = false) : (Script.refusal r).Fair action where
  closing_line := hline
  opening_line := nofun
  opening_code := nofun
  refusal_code := fun _ => hcode
  refusal_bytes := fun _ => rfl
  upload_bytes := fun _ => rfl
  fetch_sends := nofun

theorem fair_transfer {opening closing : Reply} {middle : Middle} {action : Action}
    (ho : IsLine opening.text) (hcode : hasCode (cstr opening.text) "150" = true)
    (hc : IsLine closing.text) (hput : action.fetches = false → middle.bytes = [])
    (hget : action.fetches = true → middle ≠ .receives) :
    Script.Fair ⟨some opening, middle, closing⟩ action where
  closing_line := hc
  opening_line := fun _ hr => Option.some.inj hr ▸ ho
  opening_code := fun _ hr => Option.some.inj hr ▸ hcode
  refusal_code := nofun
  refusal_bytes := nofun
  upload_bytes := hput
  fetch_sends := hget

theorem fair_refusals (action : Action) : ∀ r ∈ refusals, (Script.refusal r).Fair action := by
  have hall : ∀ r ∈ refusals, IsLine r.text ∧ hasCode (cstr r.text) "150" = false := by decide
  intro r hr
  exact fair_refusal action (hall r hr).1 (hall r hr).2

/-- The children's answers, one function at a time. -/
theorem fair_child (ls : Path → FileTree → List Byte) (cans : ChildAnswers) (command : Command)
    (s : Ctx) (W : Path) (path : CStr) (action : Action) :
    (childScript ls cans command s W path action.body).Fair action := by
  cases action with
  | get opens =>
    show (retrScript s W path).Fair _
    unfold retrScript
    split
    next =>
      exact fair_transfer (by decide) (by decide) (by decide) (fun _ => rfl) (fun _ => by simp)
    next =>
      exact fair_transfer (by decide) (by decide) (by decide) nofun (fun _ => by simp)
  | ls opens =>
    show (listScript ls cans command s W).Fair _
    unfold listScript
    split
    next => exact fair_refusals _ _ (by decide)
    next =>
      split
      next => exact fair_refusals _ _ (by decide)
      next =>
        exact fair_transfer (by decide) (by decide) (by decide) nofun (fun _ => by simp)
  | put opens content =>
    show (storScript cans s path).Fair _
    unfold storScript
    split
    next =>
      exact fair_transfer (by decide) (by decide) (by decide) (fun _ => rfl) nofun
    next =>
      refine fair_transfer (by decide) (by decide) (by decide) (fun _ => ?_) nofun
      split
      next => rfl
      next => rfl

/-- The answer of an exchange. -/
theorem Exchange.fair (x : Exchange) : x.script.Fair x.action := by
  unfold Exchange.script
  split
  next r hr _ => exact fair_refusals _ r hr
  next => exact fair_child ..

theorem Script.Fair.closing_ne_nil {script : Script} {action : Action} (h : script.Fair action) :
    script.closing.text ≠ [] := h.closing_line.ne_nil

theorem Script.openingText_of_some {script : Script} {r : Reply} (h : script.opening = some r) :
    script.openingText = r.text := by
  rw [openingText, h]
  rfl

/-- The opening line, if there is a transfer. -/
theorem Script.Fair.openingText_line {script : Script} {action : Action} (h : script.Fair action)
    (ho : script.opening ≠ none) :
    IsLine script.openingText ∧ hasCode (cstr script.openingText) "150" = true := by
  obtain ⟨r, hr⟩ := Option.ne_none_iff_exists'.mp ho
  rw [Script.openingText_of_some hr]
  exact ⟨h.opening_line r hr, h.opening_code r hr⟩

/-- A request is a line. -/
theorem Exchange.request_line (x : Exchange) : IsLine x.request := by
  refine ⟨x.action.word ++ lit " " ++ x.name ++ lit "\r", ?_, ?_⟩
  · have hword : newline ∉ x.action.word := by
      cases x.action with
      | get _ => exact (by decide : newline ∉ lit "RETR")
      | ls _ => exact (by decide : newline ∉ lit "LIST")
      | put _ _ => exact (by decide : newline ∉ lit "STOR")
    have hblank : newline ∉ lit " " := by decide
    have hcr : newline ∉ lit "\r" := by decide
    simp only [List.mem_append, not_or]
    exact ⟨⟨⟨hword, hblank⟩, x.typed⟩, hcr⟩
  · rw [Exchange.request, commandLine, List.append_assoc _ (lit "\r")]
    rfl

/-! ## The books -/

/-- The condition under which an exchange comes to its end: what the client gets fits in the
data connection, and a client that uploads is read from or need not be. -/
def Exchange.Fits (x : Exchange) : Prop :=
  x.script.opening ≠ none →
    match x.action with
    | .get _ => x.script.middle.bytes.length ≤ x.dataRoom
    | .ls _ => x.script.middle.bytes.length ≤ x.dataRoom
    | .put opens content =>
      match x.script.middle with
      | .receives => opens = true
      | .sends _ => opens = true →
        x.script.closing.text.length ≤ x.downRoom ∨ content.length ≤ x.dataRoom

/-- What is left of the request. -/
def ClientPhase.left : ClientPhase → List Byte
  | .request left => left
  | _ => []

/-- What the client has of the replies. -/
def Script.heard (script : Script) : ClientPhase → List Byte
  | .request _ => []
  | .opening taken => taken
  | .upload _ => script.openingText
  | .closing taken => script.openingText ++ taken
  | .download => script.said
  | .done => script.said

/-- What the parent has of the request. -/
def ParentPhase.taken (request : List Byte) : ParentPhase → List Byte
  | .reading taken => taken
  | _ => request

/-- What is still to be said. -/
def Script.toSay (script : Script) : AnswerPhase → List Byte
  | .waiting => script.said
  | .opening left => left ++ script.closing.text
  | .sending _ => script.closing.text
  | .receiving => script.closing.text
  | .closing left => left
  | .done => []

/-- What is still to be sent. -/
def Script.toSend (script : Script) : AnswerPhase → List Byte
  | .waiting => script.middle.bytes
  | .opening _ => script.middle.bytes
  | .sending left => left
  | _ => []

/-- Whether the client still holds the data connection. -/
def Action.holds (action : Action) : ClientPhase → Bool
  | .closing _ =>
    match action with
    | .put opens _ => !opens
    | _ => true
  | .done => false
  | _ => true

/-- The answer has not come beyond the upload. -/
def AnswerPhase.Early : AnswerPhase → Prop
  | .waiting => True
  | .opening _ => True
  | .receiving => True
  | _ => False

/-- The client waits for a line, of which it has `taken`. -/
def ClientPhase.Hears (taken : List Byte) (client : ClientPhase) : Prop :=
  client = .opening taken ∨ client = .closing taken

/-- The client has no reply yet. -/
def ClientPhase.Asks : ClientPhase → Prop
  | .request _ => True
  | .opening _ => True
  | _ => False

/-- The books are in order. -/
structure Flow (x : Exchange) (S : Net) : Prop where
  asked : S.parent.taken x.request ++ S.up ++ S.client.left = x.request
  waiting : S.answer = .waiting ↔ ∃ taken, S.parent = .reading taken
  reading : ∀ taken, S.parent = .reading taken → newline ∉ taken
  said : S.client ≠ .done →
    x.script.heard S.client ++ S.down ++ x.script.toSay S.answer = x.script.said
  hears : ∀ taken, S.client.Hears taken → newline ∉ taken
  begun : ∀ taken, S.client = .closing taken ∨ S.client = .upload taken → x.script.opening ≠ none
  settled : S.client = .download ∨ S.client = .done → x.script.toSay S.answer = [] ∧ x.Fits
  holds : S.dataOpen = x.action.holds S.client
  sent : x.action.fetches = true → S.client ≠ .download → S.client ≠ .done →
    S.data ++ x.script.toSend S.answer = x.script.middle.bytes
  fresh : x.action.fetches = false → S.client.Asks → S.data = []
  uploading : ∀ left, S.client = .upload left → ∃ content, x.action = .put true content ∧
    ∀ bytes, x.script.middle = .sends bytes →
      x.script.closing.text.length ≤ x.downRoom ∨ S.data ++ left = content
  uploaded : ∀ taken content, S.client = .closing taken → x.action = .put true content → x.Fits
  sending : ∀ left, S.answer = .sending left → left <:+ x.script.middle.bytes
  receiving : S.answer = .receiving → x.script.middle = .receives
  early : x.script.middle = .receives → S.dataOpen = true → S.answer.Early
  down_le : S.down.length ≤ x.downRoom
  data_le : S.data.length ≤ x.dataRoom

variable {x : Exchange} {S : Net}

theorem flow_start (x : Exchange) : Flow x x.start where
  asked := rfl
  waiting := ⟨fun _ => ⟨[], rfl⟩, fun _ => rfl⟩
  reading := fun taken h => ParentPhase.reading.inj h ▸ List.not_mem_nil
  said := fun _ => rfl
  hears := fun _ h => by cases h <;> contradiction
  begun := fun _ h => by cases h <;> contradiction
  settled := fun h => by cases h <;> contradiction
  holds := rfl
  sent := fun _ _ _ => rfl
  fresh := fun _ _ => rfl
  uploading := nofun
  uploaded := nofun
  sending := nofun
  receiving := nofun
  early := fun _ _ => trivial
  down_le := Nat.zero_le _
  data_le := Nat.zero_le _

theorem Exchange.said_ne_nil (x : Exchange) : x.script.said ≠ [] := by
  rw [Script.said]
  exact List.append_ne_nil_of_right_ne_nil _ x.fair.closing_ne_nil

/-! ## The one that answers -/

/-- The answer goes on and leaves the channels alone: nothing is said or sent by it. -/
theorem Flow.answer_to {a : AnswerPhase} (h : Flow x S) (hold : S.answer ≠ .waiting)
    (hnew : a ≠ .waiting) (hsay : x.script.toSay a = x.script.toSay S.answer)
    (hsend : x.script.toSend a = x.script.toSend S.answer)
    (hsending : ∀ left, a = .sending left → left <:+ x.script.middle.bytes)
    (hreceiving : a = .receiving → x.script.middle = .receives)
    (hearly : x.script.middle = .receives → S.dataOpen = true → a.Early) :
    Flow x { S with answer := a } :=
  { h with
    waiting := ⟨fun ha => absurd ha hnew, fun hp => absurd (h.waiting.mpr hp) hold⟩
    said := fun hc => by
      rw [← h.said hc]
      exact congrArg _ hsay
    settled := fun hc => ⟨hsay.trans (h.settled hc).1, (h.settled hc).2⟩
    sent := fun hf h₁ h₂ => by
      rw [← h.sent hf h₁ h₂]
      exact congrArg _ hsend
    sending := hsending
    receiving := hreceiving
    early := hearly }

/-- A byte of a reply is written. -/
theorem Flow.say {a : AnswerPhase} {b : Byte} (h : Flow x S) (hold : S.answer ≠ .waiting)
    (hnew : a ≠ .waiting) (hsay : x.script.toSay S.answer = b :: x.script.toSay a)
    (hsend : x.script.toSend a = x.script.toSend S.answer) (hsending : ∀ left, a ≠ .sending left)
    (hreceiving : a ≠ .receiving)
    (hearly : x.script.middle = .receives → S.dataOpen = true → a.Early)
    (hroom : S.down.length < x.downRoom) :
    Flow x { S with down := S.down ++ [b], answer := a } :=
  { h with
    waiting := ⟨fun ha => absurd ha hnew, fun hp => absurd (h.waiting.mpr hp) hold⟩
    said := fun hc => by
      rw [← h.said hc, hsay]
      simp
    settled := fun hc => by
      have hnil := (h.settled hc).1
      rw [hsay] at hnil
      cases hnil
    sent := fun hf h₁ h₂ => by
      rw [← h.sent hf h₁ h₂]
      exact congrArg _ hsend
    sending := fun left ha => absurd ha (hsending left)
    receiving := fun ha => absurd ha hreceiving
    early := hearly
    down_le := by
      show (S.down ++ [b]).length ≤ _
      rw [List.length_append, List.length_singleton]
      omega }

/-- An upload sends nothing to the client. -/
theorem Flow.fetches_of_sending {b : Byte} {left : List Byte} (h : Flow x S)
    (ha : S.answer = .sending (b :: left)) : x.action.fetches = true := by
  by_contra hf
  have hsuffix := h.sending _ ha
  rw [x.fair.upload_bytes (by simpa using hf)] at hsuffix
  cases List.suffix_nil.mp hsuffix

/-- While something is sent the client holds the data connection. -/
theorem Flow.open_of_sending {b : Byte} {left : List Byte} (h : Flow x S)
    (ha : S.answer = .sending (b :: left)) : S.dataOpen = true := by
  have hf := h.fetches_of_sending ha
  have hsettled : S.client ≠ .done := fun hc => by
    have hnil := (h.settled (.inr hc)).1
    rw [ha] at hnil
    exact x.fair.closing_ne_nil hnil
  rw [h.holds]
  cases hc : S.client with
  | done => exact absurd hc hsettled
  | closing taken =>
    cases haction : x.action with
    | put opens content =>
      rw [haction] at hf
      cases hf
    | get opens => rfl
    | ls opens => rfl
  | _ => rfl

/-- A byte of the data is written. -/
theorem Flow.send {b : Byte} {left : List Byte} (h : Flow x S)
    (ha : S.answer = .sending (b :: left)) (hroom : S.data.length < x.dataRoom) :
    Flow x { S with data := S.data ++ [b], answer := .sending left } :=
  have hf := h.fetches_of_sending ha
  { h with
    waiting := ⟨nofun, fun hp => by
      have hw := h.waiting.mpr hp
      rw [ha] at hw
      cases hw⟩
    said := fun hc => by
      rw [← h.said hc, ha]
      rfl
    settled := fun hc => by
      have hsettled := h.settled hc
      rw [ha] at hsettled
      exact hsettled
    sent := fun _ h₁ h₂ => by
      rw [← h.sent hf h₁ h₂, ha, List.append_assoc]
      rfl
    fresh := fun hf' => by
      rw [hf] at hf'
      cases hf'
    uploading := fun l hc => by
      obtain ⟨content, haction, -⟩ := h.uploading l hc
      rw [haction] at hf
      cases hf
    sending := fun l hl => by
      cases hl
      exact (List.suffix_cons b left).trans (h.sending _ ha)
    receiving := nofun
    early := fun hm => absurd hm (x.fair.fetch_sends hf)
    data_le := by
      show (S.data ++ [b]).length ≤ _
      rw [List.length_append, List.length_singleton]
      omega }

/-- Some of the data is read by the server. -/
theorem Flow.receive (h : Flow x S) (ha : S.answer = .receiving) (n : Nat) :
    Flow x { S with data := S.data.drop n } :=
  have hm := h.receiving ha
  { h with
    sent := fun hf => absurd hm (x.fair.fetch_sends hf)
    fresh := fun hf hc => by
      show S.data.drop n = []
      rw [h.fresh hf hc, List.drop_nil]
    uploading := fun left hc => by
      obtain ⟨content, haction, -⟩ := h.uploading left hc
      refine ⟨content, haction, fun bytes hbytes => ?_⟩
      rw [hm] at hbytes
      cases hbytes
    data_le := by
      show (S.data.drop n).length ≤ _
      rw [List.length_drop]
      exact Nat.le_trans (Nat.sub_le _ _) h.data_le }

/-- A move of the one that answers keeps the books in order. -/
theorem Flow.answerStep {n : Nat} {S' : Net} (h : Flow x S) (hs : x.answerStep S n = some S') :
    Flow x S' := by
  unfold Exchange.answerStep at hs
  -- the reply is printed byte by byte, and so is the data
  split at hs
  next => cases hs
  next ha =>
    cases hs
    have hold : S.answer ≠ .waiting := by rw [ha]; nofun
    cases hmiddle : x.script.middle with
    | sends bytes =>
      have hm : x.script.transfer = .sending bytes := by rw [Script.transfer, hmiddle]
      rw [hm]
      refine h.answer_to hold nofun (by rw [ha]; rfl) ?_ ?_ nofun (by rw [hmiddle]; nofun)
      · rw [ha]
        show bytes = x.script.middle.bytes
        rw [hmiddle]
        rfl
      · rintro left hleft
        cases hleft
        rw [hmiddle]
        exact List.suffix_rfl
    | receives =>
      have hm : x.script.transfer = .receiving := by rw [Script.transfer, hmiddle]
      rw [hm]
      refine h.answer_to hold nofun (by rw [ha]; rfl) ?_ nofun (fun _ => hmiddle)
        fun _ _ => trivial
      rw [ha]
      show [] = x.script.middle.bytes
      rw [hmiddle]
      rfl
  next b left ha =>
    split at hs
    next hroom =>
      cases hs
      have hold : S.answer ≠ .waiting := by rw [ha]; nofun
      exact h.say hold nofun (by rw [ha]; rfl) (by rw [ha]; rfl) nofun nofun
        (fun _ _ => trivial) hroom
    next => cases hs
  next ha =>
    cases hs
    have hold : S.answer ≠ .waiting := by rw [ha]; nofun
    refine h.answer_to hold nofun (by rw [ha]; rfl) (by rw [ha]; rfl) nofun nofun fun hm ho => ?_
    have hearly := h.early hm ho
    rw [ha] at hearly
    exact hearly.elim
  next b left ha =>
    rw [if_neg (by rw [h.open_of_sending ha]; simp)] at hs
    split at hs
    next hroom =>
      cases hs
      exact h.send ha hroom
    next => cases hs
  next ha =>
    split at hs
    next =>
      cases hs
      exact h.receive ha n
    next =>
      split at hs
      next hclosed =>
        cases hs
        have hold : S.answer ≠ .waiting := by rw [ha]; nofun
        refine h.answer_to hold nofun (by rw [ha]; rfl) (by rw [ha]; rfl) nofun nofun
          fun _ ho => ?_
        rw [hclosed.1] at ho
        cases ho
      next => cases hs
  next ha =>
    cases hs
    have hold : S.answer ≠ .waiting := by rw [ha]; nofun
    refine h.answer_to hold nofun (by rw [ha]; rfl) (by rw [ha]; rfl) nofun nofun fun hm ho => ?_
    have hearly := h.early hm ho
    rw [ha] at hearly
    exact hearly.elim
  next b left ha =>
    split at hs
    next hroom =>
      cases hs
      have hold : S.answer ≠ .waiting := by rw [ha]; nofun
      refine h.say hold nofun (by rw [ha]; rfl) (by rw [ha]; rfl) nofun nofun (fun hm ho => ?_)
        hroom
      have hearly := h.early hm ho
      rw [ha] at hearly
      exact hearly.elim
    next => cases hs
  next => cases hs

/-! ## The parent -/

theorem Script.toSay_start (script : Script) : script.toSay script.start = script.said := by
  unfold Script.start Script.said Script.openingText
  cases script.opening with
  | none => rfl
  | some r => rfl

theorem Script.Fair.toSend_start {script : Script} {action : Action} (h : script.Fair action) :
    script.toSend script.start = script.middle.bytes := by
  unfold Script.start
  cases ho : script.opening with
  | none =>
    rw [h.refusal_bytes ho]
    rfl
  | some r => rfl

/-- The first newline of a line is its last byte. -/
theorem eq_of_newline_mem {l a b : List Byte} (hl : IsLine l) (ha : newline ∈ a)
    (h : a ++ b = l) : b = [] := by
  by_contra hb
  refine (isLine_iff.mp hl).2 ?_
  rw [← h, List.dropLast_append_of_ne_nil hb]
  exact List.mem_append_left _ ha

/-- A move of the parent keeps the books in order. -/
theorem Flow.parentStep {n : Nat} {S' : Net} (h : Flow x S) (hs : x.parentStep S n = some S') :
    Flow x S' := by
  unfold Exchange.parentStep at hs
  split at hs
  next taken hp =>
    split at hs
    next =>
      have hasked : taken ++ S.up ++ S.client.left = x.request := by
        rw [← h.asked, hp]
        rfl
      have hgot : taken ++ S.up.take n ++ (S.up.drop n ++ S.client.left) = x.request := by
        rw [← hasked, ← List.append_assoc, List.append_assoc taken, List.take_append_drop]
      have hwaiting := h.waiting.mpr ⟨taken, hp⟩
      dsimp only at hs
      split at hs
      next hmem =>
        cases hs
        -- the request is complete, and nothing comes behind it
        have hrest := eq_of_newline_mem x.request_line hmem hgot
        have hstart : x.script.start ≠ .waiting := by
          unfold Script.start
          split <;> nofun
        have hparent : ∀ taken', (if x.answer.forks then ParentPhase.forked else .done) ≠
            .reading taken' := by
          intro taken'
          split <;> nofun
        exact
          { h with
            asked := by
              show ParentPhase.taken x.request (if x.answer.forks then .forked else .done) ++
                S.up.drop n ++ S.client.left = _
              rw [List.append_assoc, hrest, List.append_nil]
              split <;> rfl
            waiting := ⟨fun ha => absurd ha hstart, fun ⟨_, hp'⟩ => absurd hp' (hparent _)⟩
            reading := fun taken' hp' => absurd hp' (hparent taken')
            said := fun hc => by
              rw [← h.said hc, hwaiting]
              exact congrArg _ x.script.toSay_start
            settled := fun hc => by
              have hnil := (h.settled hc).1
              rw [hwaiting] at hnil
              exact absurd hnil x.said_ne_nil
            sent := fun hf h₁ h₂ => by
              rw [← h.sent hf h₁ h₂, hwaiting]
              exact congrArg _ x.fair.toSend_start
            sending := fun left hleft => by
              have hne : x.script.start ≠ .sending left := by
                unfold Script.start
                split <;> nofun
              exact absurd hleft hne
            receiving := fun hr => by
              have hne : x.script.start ≠ .receiving := by
                unfold Script.start
                split <;> nofun
              exact absurd hr hne
            early := fun hm _ => by
              show x.script.start.Early
              unfold Script.start
              cases ho : x.script.opening with
              | none =>
                rw [x.fair.refusal_bytes ho] at hm
                cases hm
              | some r => trivial }
      next hmem =>
        cases hs
        exact
          { h with
            asked := by
              rw [← hgot, List.append_assoc]
              rfl
            waiting := ⟨fun _ => ⟨_, rfl⟩, fun _ => hwaiting⟩
            reading := fun taken' hp' => ParentPhase.reading.inj hp' ▸ hmem }
    next => cases hs
  next hp =>
    cases hs
    have hasked := h.asked
    rw [hp] at hasked
    exact
      { h with
        asked := hasked
        waiting := by
          refine ⟨fun ha => ?_, nofun⟩
          obtain ⟨taken, hp'⟩ := h.waiting.mp ha
          rw [hp] at hp'
          cases hp'
        reading := nofun }
  next => cases hs

/-! ## The client -/

/-- What `n` bytes make of a line, when they do not go beyond it. -/
theorem hear_cases {n : Nat} {taken : List Byte} {more next : List Byte → ClientPhase}
    (htaken : newline ∉ taken) (hread : newline ∉ (S.down.take n).dropLast) :
    (newline ∉ taken ++ S.down.take n ∧ S.hear n taken more next =
      { S with down := S.down.drop n }.goto (more (taken ++ S.down.take n))) ∨
    (IsLine (taken ++ S.down.take n) ∧ S.hear n taken more next =
      { S with down := S.down.drop n }.goto (next (taken ++ S.down.take n))) := by
  unfold Net.hear
  by_cases hmem : newline ∈ taken ++ S.down.take n
  · have hread' := (List.mem_append.mp hmem).resolve_left htaken
    have hline : IsLine (taken ++ S.down.take n) := by
      refine isLine_of_mem hmem fun hmem' => ?_
      rw [List.dropLast_append_of_ne_nil (List.ne_nil_of_mem hread')] at hmem'
      exact (List.mem_append.mp hmem').elim htaken hread
    have htake := hline.takeLine [] (Nat.le_refl _)
    rw [List.append_nil] at htake
    dsimp only
    rw [if_pos hmem, htake]
    exact .inr ⟨hline, rfl⟩
  · dsimp only
    rw [if_neg hmem]
    exact .inl ⟨hmem, rfl⟩

/-- The client goes on, and may have read some of what was said. -/
theorem Flow.client_to {client : ClientPhase} {down : List Byte} (h : Flow x S)
    (hleft : client.left = S.client.left) (hdown : down.length ≤ S.down.length)
    (hsaid : client ≠ .done →
      x.script.heard client ++ down ++ x.script.toSay S.answer = x.script.said)
    (hhears : ∀ taken, client.Hears taken → newline ∉ taken)
    (hbegun : ∀ taken, client = .closing taken ∨ client = .upload taken →
      x.script.opening ≠ none)
    (hsettled : client = .download ∨ client = .done → x.script.toSay S.answer = [] ∧ x.Fits)
    (hholds : (S.dataOpen && client ≠ .done) = x.action.holds client)
    (hsent : client ≠ .download → client ≠ .done → S.client ≠ .download ∧ S.client ≠ .done)
    (hfresh : client.Asks → S.client.Asks)
    (huploading : ∀ left, client = .upload left → ∃ content, x.action = .put true content ∧
      ∀ bytes, x.script.middle = .sends bytes →
        x.script.closing.text.length ≤ x.downRoom ∨ S.data ++ left = content)
    (huploaded : ∀ taken content, client = .closing taken → x.action = .put true content →
      x.Fits) : Flow x ({ S with down }.goto client) :=
  { h with
    asked := (congrArg _ hleft).trans h.asked
    said := hsaid
    hears := hhears
    begun := hbegun
    settled := hsettled
    holds := hholds
    sent := fun hf h₁ h₂ => h.sent hf (hsent h₁ h₂).1 (hsent h₁ h₂).2
    fresh := fun hf hc => h.fresh hf (hfresh hc)
    uploading := huploading
    uploaded := huploaded
    early := fun hm ho => by
      have ho' : (S.dataOpen && client ≠ .done) = true := ho
      rw [Bool.and_eq_true] at ho'
      exact h.early hm ho'.1
    down_le := Nat.le_trans hdown h.down_le }

/-- The client is at its end. -/
theorem Flow.quit {down : List Byte} (h : Flow x S) (hleft : S.client.left = [])
    (hdown : down.length ≤ S.down.length) (hsay : x.script.toSay S.answer = []) (hfits : x.Fits) :
    Flow x ({ S with down }.goto .done) := by
  refine h.client_to hleft.symm hdown (fun hd => absurd rfl hd) (fun t ht => ?_) (fun _ hb => ?_)
    (fun _ => ⟨hsay, hfits⟩) ?_ (fun _ hd => absurd rfl hd) nofun nofun nofun
  · rcases ht with ht | ht <;> cases ht
  · rcases hb with hb | hb <;> cases hb
  · cases S.dataOpen <;> rfl

/-- What is said to the end leaves nothing to be sent. -/
theorem Exchange.toSend_of_toSay (x : Exchange) {a : AnswerPhase} (h : x.script.toSay a = []) :
    x.script.toSend a = [] ∧ ¬ a.Early := by
  have hc := x.fair.closing_ne_nil
  cases a with
  | waiting => exact absurd h x.said_ne_nil
  | opening left => exact absurd (List.append_eq_nil_iff.mp h).2 hc
  | sending left => exact absurd h hc
  | receiving => exact absurd h hc
  | closing left => exact ⟨rfl, id⟩
  | done => exact ⟨rfl, id⟩

/-- A client that waits for the second line hears all of it only if the data had room. -/
theorem Flow.fits_of_closing {taken : List Byte} (h : Flow x S) (hc : S.client = .closing taken)
    (hsay : x.script.toSay S.answer = []) : x.Fits := by
  obtain ⟨hsend, hearly⟩ := x.toSend_of_toSay hsay
  have hfetch : x.action.fetches = true → x.script.middle.bytes.length ≤ x.dataRoom := by
    intro hf
    have hsent := h.sent hf (by rw [hc]; nofun) (by rw [hc]; nofun)
    rw [hsend, List.append_nil] at hsent
    rw [← hsent]
    exact h.data_le
  intro _
  cases haction : x.action with
  | get opens => exact hfetch (by rw [haction]; rfl)
  | ls opens => exact hfetch (by rw [haction]; rfl)
  | put opens content =>
    cases opens with
    | true =>
      have hfits := h.uploaded taken content hc haction
      have hbegun := h.begun taken (.inl hc)
      unfold Exchange.Fits at hfits
      rw [haction] at hfits
      exact hfits hbegun
    | false =>
      cases hm : x.script.middle with
      | sends bytes => exact nofun
      | receives =>
        have ho := h.holds
        rw [hc, haction] at ho
        exact absurd (h.early hm ho) hearly

/-- When the server is gone while the client uploads, its last line had room. -/
theorem Flow.closing_le_of_exited {left : List Byte} (h : Flow x S) (hc : S.client = .upload left)
    (he : S.Exited) : x.script.closing.text.length ≤ x.downRoom := by
  have hsaid := h.said (by rw [hc]; nofun)
  rw [hc, he.2] at hsaid
  have hdown : S.down = x.script.closing.text := by
    have happend : x.script.openingText ++ (S.down ++ []) =
        x.script.openingText ++ x.script.closing.text := by
      rw [← List.append_assoc]
      exact hsaid
    have hcancel := List.append_cancel_left happend
    rwa [List.append_nil] at hcancel
  rw [← hdown]
  exact h.down_le

/-- An upload that the server has left behind. -/
theorem fits_of_closing_le {content : List Byte} (haction : x.action = .put true content)
    (hle : x.script.closing.text.length ≤ x.downRoom) : x.Fits := by
  intro _
  rw [haction]
  cases x.script.middle with
  | sends bytes => exact fun _ => .inl hle
  | receives => rfl

/-- The client hears a part of a line, or all of the first one. -/
theorem Flow.hear_opening {n : Nat} {taken : List Byte} (h : Flow x S)
    (hc : S.client = .opening taken) (hread : newline ∉ (S.down.take n).dropLast) :
    Flow x (S.hear n taken .opening x.action.afterOpening) := by
  have hdown : (S.down.drop n).length ≤ S.down.length := by
    rw [List.length_drop]
    omega
  have hopen : S.dataOpen = true := by
    rw [h.holds, hc]
    rfl
  have hsaid : taken ++ S.down.take n ++ (S.down.drop n ++ x.script.toSay S.answer) =
      x.script.said := by
    have hall := h.said (by rw [hc]; nofun)
    rw [hc] at hall
    rw [← hall, ← List.append_assoc, List.append_assoc taken, List.take_append_drop]
    rfl
  have hleft : S.client.left = [] := by
    rw [hc]
    rfl
  have hasks : S.client.Asks := by
    rw [hc]
    trivial
  rcases hear_cases (h.hears taken (.inl hc)) hread with ⟨hpart, heq⟩ | ⟨hline, heq⟩
  · rw [heq]
    refine h.client_to hleft.symm hdown (fun _ => ?_) (fun t ht => ?_) (fun _ hb => ?_)
      (fun ho => ?_) (by rw [hopen]; rfl) (fun _ _ => by rw [hc]; exact ⟨nofun, nofun⟩)
      (fun _ => hasks) nofun nofun
    · rw [← hsaid, ← List.append_assoc]
      rfl
    · rcases ht with ht | ht
      · exact ClientPhase.opening.inj ht ▸ hpart
      · cases ht
    · rcases hb with hb | hb <;> cases hb
    · rcases ho with ho | ho <;> cases ho
  · rw [heq]
    cases hopening : x.script.opening with
    | none =>
      -- a refusal is the only line
      have hsaid' : taken ++ S.down.take n ++ (S.down.drop n ++ x.script.toSay S.answer) =
          x.script.closing.text ++ [] := by
        rw [hsaid, Script.said, Script.openingText, hopening, List.append_nil]
        rfl
      obtain ⟨hgot, hrest⟩ := hline.append_inj x.fair.closing_line hsaid'
      rw [hgot]
      unfold Action.afterOpening
      rw [x.fair.refusal_code hopening, if_neg (by simp)]
      exact h.quit hleft hdown (List.append_eq_nil_iff.mp hrest).2 fun hne => absurd hopening hne
    | some r =>
      have hsome : x.script.opening ≠ none := by
        rw [hopening]
        nofun
      obtain ⟨holine, hcode⟩ := x.fair.openingText_line hsome
      obtain ⟨hgot, hrest⟩ := hline.append_inj holine hsaid
      rw [hgot]
      unfold Action.afterOpening
      rw [hcode, if_pos rfl]
      have hsaid' : x.script.openingText ++ S.down.drop n ++ x.script.toSay S.answer =
          x.script.said := by
        rw [List.append_assoc, hrest]
        rfl
      -- `get`, `ls` and a `put` that gets no stream wait for the second line
      have hwait : (∀ content, x.action ≠ .put true content) →
          Flow x ({ S with down := S.down.drop n }.goto (.closing [])) := by
        intro hput
        have hholds : x.action.holds (.closing []) = true := by
          cases haction : x.action with
          | get _ => rfl
          | ls _ => rfl
          | put opens content =>
            cases opens with
            | true => exact absurd haction (hput content)
            | false => rfl
        refine h.client_to hleft.symm hdown (fun _ => ?_) (fun t ht => ?_) (fun _ _ => hsome)
          (fun ho => ?_) (by rw [hopen, hholds]; rfl)
          (fun _ _ => by rw [hc]; exact ⟨nofun, nofun⟩) nofun nofun
          fun _ content _ haction => absurd haction (hput content)
        · rw [← hsaid']
          exact congrArg (· ++ _ ++ _) (List.append_nil _)
        · rcases ht with ht | ht
          · cases ht
          · exact ClientPhase.closing.inj ht ▸ List.not_mem_nil
        · rcases ho with ho | ho <;> cases ho
      cases haction : x.action with
      | get _ => exact hwait (by rw [haction]; nofun)
      | ls _ => exact hwait (by rw [haction]; nofun)
      | put opens content =>
        cases opens with
        | false => exact hwait (by rw [haction]; nofun)
        | true =>
          refine h.client_to hleft.symm hdown (fun _ => hsaid') (fun t ht => ?_)
            (fun _ _ => hsome) (fun ho => ?_) (by rw [hopen]; rfl)
            (fun _ _ => by rw [hc]; exact ⟨nofun, nofun⟩) nofun (fun left hl => ?_) nofun
          · rcases ht with ht | ht <;> cases ht
          · rcases ho with ho | ho <;> cases ho
          · refine ⟨content, haction, fun _ _ => .inr ?_⟩
            rw [h.fresh (by rw [haction]; rfl) hasks, List.nil_append]
            exact (ClientPhase.upload.inj hl).symm

/-- The client hears a part of the second line, or all of it. -/
theorem Flow.hear_closing {n : Nat} {taken : List Byte} (h : Flow x S)
    (hc : S.client = .closing taken) (hread : newline ∉ (S.down.take n).dropLast) :
    Flow x (S.hear n taken .closing x.action.afterClosing) := by
  have hdown : (S.down.drop n).length ≤ S.down.length := by
    rw [List.length_drop]
    omega
  have hbegun := h.begun taken (.inl hc)
  have hleft : S.client.left = [] := by
    rw [hc]
    rfl
  have hsaid : taken ++ S.down.take n ++ (S.down.drop n ++ x.script.toSay S.answer) =
      x.script.closing.text := by
    have hall := h.said (by rw [hc]; nofun)
    rw [hc] at hall
    have hheard : x.script.openingText ++ (taken ++ S.down.take n ++
        (S.down.drop n ++ x.script.toSay S.answer)) =
        x.script.openingText ++ x.script.closing.text := by
      refine Eq.trans ?_ hall
      rw [List.append_assoc taken, ← List.append_assoc (S.down.take n), List.take_append_drop]
      simp only [Script.heard, List.append_assoc]
    exact List.append_cancel_left hheard
  rcases hear_cases (h.hears taken (.inr hc)) hread with ⟨hpart, heq⟩ | ⟨hline, heq⟩
  · rw [heq]
    refine h.client_to hleft.symm hdown (fun _ => ?_) (fun t ht => ?_) (fun _ _ => hbegun)
      (fun ho => ?_) ?_ (fun _ _ => by rw [hc]; exact ⟨nofun, nofun⟩) nofun nofun
      fun _ content _ haction => h.uploaded taken content hc haction
    · rw [Script.said, ← hsaid]
      simp only [Script.heard, List.append_assoc]
    · rcases ht with ht | ht
      · cases ht
      · exact ClientPhase.closing.inj ht ▸ hpart
    · rcases ho with ho | ho <;> cases ho
    · rw [h.holds, hc]
      exact Bool.and_true _
  · rw [heq]
    have hsaid' := hsaid.trans (List.append_nil _).symm
    obtain ⟨hgot, hrest⟩ := hline.append_inj x.fair.closing_line hsaid'
    obtain ⟨hnone, hsay⟩ := List.append_eq_nil_iff.mp hrest
    have hfits := h.fits_of_closing hc hsay
    have hdone := h.quit hleft hdown hsay hfits
    have hread : (∀ opens content, x.action ≠ .put opens content) →
        Flow x ({ S with down := S.down.drop n }.goto .download) := by
      intro hput
      have hholds : ∀ client, client ≠ .done → x.action.holds client = true := by
        intro client hne
        cases haction : x.action with
        | put opens content => exact absurd haction (hput opens content)
        | get _ =>
          cases client with
          | done => exact absurd rfl hne
          | _ => rfl
        | ls _ =>
          cases client with
          | done => exact absurd rfl hne
          | _ => rfl
      refine h.client_to hleft.symm hdown (fun _ => ?_) (fun t ht => ?_) (fun _ hb => ?_)
        (fun _ => ⟨hsay, hfits⟩) ?_ (fun hd => absurd rfl hd) nofun nofun nofun
      · rw [hnone, hsay, List.append_nil, List.append_nil]
        rfl
      · rcases ht with ht | ht <;> cases ht
      · rcases hb with hb | hb <;> cases hb
      · rw [h.holds, hc, hholds (.closing taken) nofun, hholds .download nofun]
        rfl
    unfold Action.afterClosing
    split
    next =>
      cases haction : x.action with
      | put opens content => exact hdone
      | get opens =>
        cases opens with
        | true => exact hread (by rw [haction]; nofun)
        | false => exact hdone
      | ls opens =>
        cases opens with
        | true => exact hread (by rw [haction]; nofun)
        | false => exact hdone
    next => exact hdone

/-- A byte of the request is written. -/
theorem Flow.ask {b : Byte} {left : List Byte} (h : Flow x S)
    (hc : S.client = .request (b :: left)) :
    Flow x { S with up := S.up ++ [b], client := .request left } :=
  { h with
    asked := by
      refine Eq.trans ?_ h.asked
      rw [hc]
      simp [ClientPhase.left]
    said := fun _ => by
      have hsaid := h.said (by rw [hc]; nofun)
      rw [hc] at hsaid
      exact hsaid
    hears := fun t ht => by rcases ht with ht | ht <;> cases ht
    begun := fun _ hb => by rcases hb with hb | hb <;> cases hb
    settled := fun ho => by rcases ho with ho | ho <;> cases ho
    holds := by
      rw [h.holds, hc]
      rfl
    sent := fun hf _ _ => h.sent hf (by rw [hc]; nofun) (by rw [hc]; nofun)
    fresh := fun hf _ => h.fresh hf (by rw [hc]; trivial)
    uploading := nofun
    uploaded := nofun }

/-- The whole file is written, and the client closes the data connection. -/
theorem Flow.uploaded_all (h : Flow x S) (hc : S.client = .upload []) :
    Flow x { S with client := .closing [], dataOpen := false } := by
  obtain ⟨content, haction, hdata⟩ := h.uploading [] hc
  have hbegun := h.begun [] (.inr hc)
  exact
    { h with
      asked := by
        refine Eq.trans ?_ h.asked
        rw [hc]
        rfl
      said := fun _ => by
        have hsaid := h.said (by rw [hc]; nofun)
        rw [hc] at hsaid
        rw [← hsaid]
        exact congrArg (· ++ _ ++ _) (List.append_nil _)
      hears := fun t ht => by
        rcases ht with ht | ht
        · cases ht
        · exact ClientPhase.closing.inj ht ▸ List.not_mem_nil
      begun := fun _ _ => hbegun
      settled := fun ho => by rcases ho with ho | ho <;> cases ho
      holds := by
        rw [haction]
        rfl
      sent := fun hf => by
        rw [haction] at hf
        cases hf
      fresh := nofun
      uploading := nofun
      uploaded := fun _ content' _ haction' _ => by
        rw [haction'] at haction
        obtain rfl := (Action.put.inj haction).2
        rw [haction']
        cases hm : x.script.middle with
        | receives => rfl
        | sends bytes =>
          intro _
          -- what nobody reads is still on its way
          refine (hdata bytes hm).imp id fun hcontent => ?_
          rw [← hcontent, List.append_nil]
          exact h.data_le
      early := nofun }

/-- A byte of the file is written. -/
theorem Flow.upload_byte {b : Byte} {left : List Byte} (h : Flow x S)
    (hc : S.client = .upload (b :: left)) (hroom : S.data.length < x.dataRoom) :
    Flow x { S with data := S.data ++ [b], client := .upload left } := by
  obtain ⟨content, haction, hdata⟩ := h.uploading _ hc
  have hbegun := h.begun _ (.inr hc)
  exact
    { h with
      asked := by
        refine Eq.trans ?_ h.asked
        rw [hc]
        rfl
      said := fun _ => by
        have hsaid := h.said (by rw [hc]; nofun)
        rw [hc] at hsaid
        exact hsaid
      hears := fun t ht => by rcases ht with ht | ht <;> cases ht
      begun := fun _ _ => hbegun
      settled := fun ho => by rcases ho with ho | ho <;> cases ho
      holds := by
        rw [h.holds, hc]
        rfl
      sent := fun hf => by
        rw [haction] at hf
        cases hf
      fresh := nofun
      uploading := fun l hl => by
        obtain rfl := ClientPhase.upload.inj hl
        refine ⟨content, haction, fun bytes hm => (hdata bytes hm).imp id fun hcontent => ?_⟩
        rw [← hcontent]
        simp
      uploaded := nofun
      data_le := by
        show (S.data ++ [b]).length ≤ _
        rw [List.length_append, List.length_singleton]
        omega }

/-- A byte is written for a server that is gone. -/
theorem Flow.upload_lost {b : Byte} {left : List Byte} (h : Flow x S)
    (hc : S.client = .upload (b :: left)) (he : S.Exited) (n : Nat) :
    Flow x (S.goto (if n = 0 then .done else .upload left)) := by
  obtain ⟨content, haction, -⟩ := h.uploading _ hc
  have hle := h.closing_le_of_exited hc he
  have hleft : S.client.left = [] := by
    rw [hc]
    rfl
  split
  next =>
    refine h.quit hleft (Nat.le_refl _) ?_ (fits_of_closing_le haction hle)
    rw [he.2]
    rfl
  next =>
    have hsaid := h.said (by rw [hc]; nofun)
    rw [hc] at hsaid
    have hbegun := h.begun _ (.inr hc)
    refine h.client_to hleft.symm (Nat.le_refl _) (fun _ => hsaid) (fun t ht => ?_)
      (fun _ _ => hbegun) (fun ho => ?_) ?_ (fun _ _ => by rw [hc]; exact ⟨nofun, nofun⟩) nofun
      (fun l _ => ⟨content, haction, fun _ _ => .inl hle⟩) nofun
    · rcases ht with ht | ht <;> cases ht
    · rcases ho with ho | ho <;> cases ho
    · rw [h.holds, hc]
      rfl

/-- Some of the data is read by the client. -/
theorem Flow.download_some (h : Flow x S) (hc : S.client = .download) (n : Nat) :
    Flow x { S with data := S.data.drop n } :=
  { h with
    sent := fun _ hd => absurd hc hd
    fresh := fun _ ha => by
      have ha' : S.client.Asks := ha
      rw [hc] at ha'
      exact ha'.elim
    uploading := fun left hl => by
      have hl' : S.client = .upload left := hl
      rw [hc] at hl'
      cases hl'
    data_le := by
      show (S.data.drop n).length ≤ _
      rw [List.length_drop]
      exact Nat.le_trans (Nat.sub_le _ _) h.data_le }

/-- A move of the client that does not read beyond a line keeps the books in order. -/
theorem Flow.clientStep {n : Nat} {S' : Net} (h : Flow x S) (hs : x.clientStep S n = some S')
    (hread : ReadsLines S (.client n)) : Flow x S' := by
  unfold Exchange.clientStep at hs
  split at hs
  next hc =>
    cases hs
    have hopen : S.dataOpen = true := by
      rw [h.holds, hc]
      rfl
    have hsaid := h.said (by rw [hc]; nofun)
    rw [hc] at hsaid
    refine h.client_to (by rw [hc]; rfl) (Nat.le_refl _) (fun _ => hsaid) (fun t ht => ?_)
      (fun _ hb => ?_) (fun ho => ?_) (by rw [hopen]; rfl)
      (fun _ _ => by rw [hc]; exact ⟨nofun, nofun⟩) (fun _ => by rw [hc]; trivial) nofun nofun
    · rcases ht with ht | ht
      · exact ClientPhase.opening.inj ht ▸ List.not_mem_nil
      · cases ht
    · rcases hb with hb | hb <;> cases hb
    · rcases ho with ho | ho <;> cases ho
  next b left hc =>
    split at hs
    next hroom =>
      cases hs
      exact h.ask hc
    next => cases hs
  next taken hc =>
    split at hs
    next =>
      cases hs
      exact h.hear_opening hc (hread (by rw [hc]; rfl))
    next => cases hs
  next hc =>
    cases hs
    exact h.uploaded_all hc
  next b left hc =>
    split at hs
    next he =>
      cases hs
      exact h.upload_lost hc he n
    next =>
      split at hs
      next hroom =>
        cases hs
        exact h.upload_byte hc hroom
      next => cases hs
  next taken hc =>
    split at hs
    next =>
      cases hs
      exact h.hear_closing hc (hread (by rw [hc]; rfl))
    next => cases hs
  next hc =>
    split at hs
    next =>
      cases hs
      exact h.download_some hc n
    next =>
      split at hs
      next =>
        cases hs
        have hsettled := h.settled (.inl hc)
        exact h.quit (by rw [hc]; rfl) (Nat.le_refl _) hsettled.1 hsettled.2
      next => cases hs
  next => cases hs

/-! ## Runs -/

theorem Flow.step {m : Move} {S' : Net} (h : Flow x S) (hread : ReadsLines S m)
    (hs : x.net.step S m = .ok S') : Flow x S' := by
  have hmove := net_step_eq_ok.mp hs
  cases m with
  | client n => exact h.clientStep hmove hread
  | parent n => exact h.parentStep hmove
  | answer n => exact h.answerStep hmove

/-- The books are in order throughout a run in which the client does not read beyond a
line. -/
theorem flow_of_run {moves : List Move} (hread : x.net.Meets ReadsLines moves)
    (hrun : x.net.run moves = .ok S) : Flow x S :=
  Machine.run_invariant_of_meets (I := fun _ S => Flow x S) (flow_start x)
    (fun _ _ _ _ h hC hs => h.step hC hs) moves S hread hrun

end MyFtp.Wire
