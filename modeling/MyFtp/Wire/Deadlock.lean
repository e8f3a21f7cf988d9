import MyFtp.Server.Retrieval
import MyFtp.Wire.Flow

/-!
# Does a transfer come to its end?

`get` and `ls` read both replies before they touch the data connection, and the child
prints the second one after all of the data. `put` sends its file between the two, and
the child reads between its two. So an upload is taken as it comes, and a download has
to fit in the data connection as a whole.

> `never_stuck_iff`: in every run in which the client does not read beyond a line there
> is always someone who can go on, or the exchange is over, exactly when it fits.

Nobody goes on for ever (`length_add_cost_le`), so an exchange that never gets stuck
comes to its end. The end shows that it fits.
-/

namespace MyFtp.Wire

open MyFtp.Posix
open MyFtp.Server

variable {x : Exchange} {S : Net}

/-! ## Someone can go on -/

theorem arrived_one {l : List Byte} (h : l ≠ []) : Arrived 1 l :=
  ⟨Nat.one_pos, List.length_pos_of_ne_nil h⟩

theorem not_arrived_nil (n : Nat) : ¬ Arrived n [] := by
  intro h
  have hpos := h.1
  have hle := h.2
  rw [List.length_nil] at hle
  omega

/-- A request that is still on its way. -/
theorem Flow.enabled_of_reading {taken : List Byte} (h : Flow x S) (hp : S.parent = .reading taken)
    (hleft : S.client.left = [] ∨ S.up ≠ []) : x.Enabled S := by
  have hup : S.up ≠ [] := by
    rcases hleft with hleft | hup
    · intro hup
      have hasked := h.asked
      rw [hp, hup, hleft, List.append_nil, List.append_nil] at hasked
      have hnone := h.reading taken hp
      have hall : taken = x.request := hasked
      rw [hall] at hnone
      exact hnone x.request_line.newline_mem
    · exact hup
  refine enabled_of_move (.parent 1) ?_
  show (x.parentStep S 1).isSome = true
  unfold Exchange.parentStep
  rw [hp]
  dsimp only
  rw [if_pos (arrived_one hup)]
  split <;> rfl

theorem enabled_of_forked (hp : S.parent = .forked) : x.Enabled S := by
  refine enabled_of_move (.parent 0) ?_
  show (x.parentStep S 0).isSome = true
  unfold Exchange.parentStep
  rw [hp]
  rfl

/-- Where the data fits, there is room for each of its bytes. -/
theorem Flow.data_room {b : Byte} {left : List Byte} (h : Flow x S) (hfits : x.Fits)
    (ha : S.answer = .sending (b :: left)) : S.data.length < x.dataRoom := by
  have hf := h.fetches_of_sending ha
  have hsay : x.script.toSay S.answer ≠ [] := by
    rw [ha]
    exact x.fair.closing_ne_nil
  have hsent := h.sent hf (fun hc => hsay (h.settled (.inl hc)).1) fun hc =>
      hsay (h.settled (.inr hc)).1
  rw [ha] at hsent
  have hlength := congrArg List.length hsent
  rw [List.length_append] at hlength
  have hsending : (x.script.toSend (.sending (b :: left))).length = left.length + 1 := rfl
  have hopening : x.script.opening ≠ none := by
    intro ho
    rw [x.fair.refusal_bytes ho] at hlength
    have hnil : (Middle.sends []).bytes.length = 0 := rfl
    omega
  have hle : x.script.middle.bytes.length ≤ x.dataRoom := by
    have hfits' := hfits hopening
    cases haction : x.action with
    | get opens =>
      rw [haction] at hfits'
      exact hfits'
    | ls opens =>
      rw [haction] at hfits'
      exact hfits'
    | put opens content =>
      rw [haction] at hf
      cases hf
  omega

/-- The one that answers goes on, unless it waits for room on the control connection or for
data. -/
theorem Flow.enabled_of_answer (h : Flow x S) (hfits : x.Fits) (hwaiting : S.answer ≠ .waiting)
    (hdone : S.answer ≠ .done)
    (hdown : ∀ b left, S.answer = .opening (b :: left) ∨ S.answer = .closing (b :: left) →
      S.down.length < x.downRoom)
    (hreceive : S.answer = .receiving → S.data ≠ [] ∨ S.dataOpen = false) : x.Enabled S := by
  refine enabled_of_move (.answer 1) ?_
  show (x.answerStep S 1).isSome = true
  unfold Exchange.answerStep
  cases ha : S.answer with
  | waiting => exact absurd ha hwaiting
  | done => exact absurd ha hdone
  | opening left =>
    cases left with
    | nil => rfl
    | cons b left =>
      dsimp only
      rw [if_pos (hdown b left (.inl ha))]
      rfl
  | closing left =>
    cases left with
    | nil => rfl
    | cons b left =>
      dsimp only
      rw [if_pos (hdown b left (.inr ha))]
      rfl
  | sending left =>
    cases left with
    | nil => rfl
    | cons b left =>
      dsimp only
      rw [if_neg (by rw [h.open_of_sending ha]; simp), if_pos (h.data_room hfits ha)]
      rfl
  | receiving =>
    dsimp only
    by_cases hdata : S.data = []
    · have hclosed := (hreceive ha).resolve_left (not_not_intro hdata)
      rw [if_neg (by rw [hdata]; exact not_arrived_nil 1), if_pos ⟨hclosed, hdata⟩]
      rfl
    · rw [if_pos (arrived_one hdata)]
      rfl

/-- A client that has a reply waiting reads it. -/
theorem enabled_of_hears {taken : List Byte} (hc : S.client.Hears taken) (hdown : S.down ≠ []) :
    x.Enabled S := by
  refine enabled_of_move (.client 1) ?_
  show (x.clientStep S 1).isSome = true
  unfold Exchange.clientStep
  rcases hc with hc | hc
  · rw [hc]
    dsimp only
    rw [if_pos (arrived_one hdown)]
    rfl
  · rw [hc]
    dsimp only
    rw [if_pos (arrived_one hdown)]
    rfl

/-- A line that the client waits for is still to be said, or on its way. -/
theorem Flow.toSay_of_hears {taken : List Byte} (h : Flow x S) (hc : S.client.Hears taken)
    (hdown : S.down = []) :
    x.script.toSay S.answer ≠ [] ∧ (S.client = .opening taken → x.script.opening ≠ none →
      x.script.toSay S.answer ≠ x.script.closing.text) := by
  have hnone := h.hears taken hc
  have hclosing := x.fair.closing_line.newline_mem
  have hsaid := h.said (by rcases hc with hc | hc <;> rw [hc] <;> nofun)
  rw [hdown, List.append_nil] at hsaid
  constructor
  · intro hsay
    rw [hsay, List.append_nil] at hsaid
    rcases hc with hc | hc
    · rw [hc] at hsaid
      have hall : taken = x.script.said := hsaid
      rw [hall] at hnone
      exact hnone (List.mem_append_right _ hclosing)
    · rw [hc] at hsaid
      have hall : taken = x.script.closing.text := List.append_cancel_left hsaid
      rw [hall] at hnone
      exact hnone hclosing
  · intro hc' hopening hsay
    rw [hc', hsay] at hsaid
    have hall : taken = x.script.openingText := List.append_cancel_right hsaid
    rw [hall] at hnone
    exact hnone (x.fair.openingText_line hopening).1.newline_mem

/-- Only an upload is received. -/
theorem Exchange.put_of_receives (x : Exchange) (hm : x.script.middle = .receives) :
    x.script.opening ≠ none ∧ ∃ opens content, x.action = .put opens content := by
  constructor
  · intro ho
    rw [x.fair.refusal_bytes ho] at hm
    cases hm
  · cases haction : x.action with
    | put opens content => exact ⟨opens, content, rfl⟩
    | get _ => exact absurd hm (x.fair.fetch_sends (by rw [haction]; rfl))
    | ls _ => exact absurd hm (x.fair.fetch_sends (by rw [haction]; rfl))

/-- Where the data connection is full of what the client uploads, the server has room for
its last line. -/
theorem Flow.down_room_of_upload {b : Byte} {left : List Byte} (h : Flow x S) (hfits : x.Fits)
    (hc : S.client = .upload (b :: left)) (hfull : x.dataRoom ≤ S.data.length) {c : Byte}
    {rest : List Byte} (ha : S.answer = .opening (c :: rest) ∨ S.answer = .closing (c :: rest)) :
    S.down.length < x.downRoom := by
  have hopening := h.begun _ (.inr hc)
  obtain ⟨content, haction, hdata⟩ := h.uploading _ hc
  have hsaid := h.said (by rw [hc]; nofun)
  rw [hc, List.append_assoc] at hsaid
  have hrest : S.down ++ x.script.toSay S.answer = x.script.closing.text :=
    List.append_cancel_left hsaid
  have hlength := congrArg List.length hrest
  rw [List.length_append] at hlength
  have hsay : (x.script.toSay S.answer).length ≠ 0 := by
    rcases ha with ha | ha <;> rw [ha] <;> simp [Script.toSay]
  have hle : x.script.closing.text.length ≤ x.downRoom := by
    have hfits' := hfits hopening
    rw [haction] at hfits'
    cases hm : x.script.middle with
    | sends bytes =>
      rw [hm] at hfits'
      rcases hfits' rfl with hle | hcontent
      · exact hle
      · rcases hdata bytes hm with hle | hall
        · exact hle
        · -- the file is in the data connection or still to be written, and more than fits
          have hlen := congrArg List.length hall
          rw [List.length_append, List.length_cons] at hlen
          omega
    | receives =>
      have ho := h.holds
      rw [hc] at ho
      have hearly := h.early hm ho
      rcases ha with ha | ha
      · have hlonger := hlength
        rw [ha] at hlonger
        have hsum : (x.script.toSay (.opening (c :: rest))).length =
            rest.length + 1 + x.script.closing.text.length := List.length_append
        omega
      · rw [ha] at hearly
        exact hearly.elim
  omega

/-- When all is said, the one that answers has only to end. -/
theorem Flow.enabled_of_over (h : Flow x S) (hfits : x.Fits)
    (hc : S.client = .download ∨ S.client = .done) (hwaiting : S.answer ≠ .waiting)
    (hdone : S.answer ≠ .done) : x.Enabled S := by
  have hsay := (h.settled hc).1
  refine h.enabled_of_answer hfits hwaiting hdone (fun b left ha => ?_) fun ha => ?_
  · rcases ha with ha | ha
    · rw [ha] at hsay
      cases hsay
    · rw [ha] at hsay
      cases hsay
  · rw [ha] at hsay
    exact absurd hsay x.fair.closing_ne_nil

/-- **No deadlock.** An exchange that fits is over, or someone can go on. -/
theorem Flow.progress (h : Flow x S) (hfits : x.Fits) : S.Finished ∨ x.Enabled S := by
  have hclient : (x.clientStep S 1).isSome = true → S.Finished ∨ x.Enabled S := fun hs =>
    .inr (enabled_of_move (.client 1) hs)
  have hhears : ∀ taken, S.client.Hears taken → S.down ≠ [] → S.Finished ∨ x.Enabled S :=
    fun _ hc hdown => .inr (enabled_of_hears hc hdown)
  cases hp : S.parent with
  | forked => exact .inr (enabled_of_forked hp)
  | reading taken =>
    by_cases hready : S.client.left = [] ∨ S.up ≠ []
    · exact .inr (h.enabled_of_reading hp hready)
    · rw [not_or, not_not] at hready
      cases hc : S.client with
      | request left =>
        cases left with
        | nil =>
          rw [hc] at hready
          exact absurd rfl hready.1
        | cons b left =>
          refine hclient ?_
          unfold Exchange.clientStep
          rw [hc, hready.2]
          dsimp only
          split
          next => rfl
          next hroom => exact absurd x.up_pos hroom
      | _ =>
        rw [hc] at hready
        exact absurd rfl hready.1
  | done =>
    have hwaiting : S.answer ≠ .waiting := by
      intro ha
      obtain ⟨taken, hp'⟩ := h.waiting.mp ha
      rw [hp] at hp'
      cases hp'
    cases hc : S.client with
    | request left =>
      -- the parent has the whole request
      have hasked := h.asked
      rw [hp, hc, List.append_assoc] at hasked
      have hnil : S.up ++ left = [] :=
        List.append_cancel_left (hasked.trans (List.append_nil x.request).symm)
      obtain rfl := (List.append_eq_nil_iff.mp hnil).2
      refine hclient ?_
      unfold Exchange.clientStep
      rw [hc]
      rfl
    | opening taken =>
      by_cases hdown : S.down = []
      · obtain ⟨hsay, hclosing⟩ := h.toSay_of_hears (.inl hc) hdown
        refine .inr (h.enabled_of_answer hfits hwaiting (fun ha => hsay (by rw [ha]; rfl))
          (fun _ _ _ => by rw [hdown]; exact x.down_pos) fun ha => ?_)
        have hopening := (x.put_of_receives (h.receiving ha)).1
        exact absurd (by rw [ha]; rfl) (hclosing hc hopening)
      · exact hhears taken (.inl hc) hdown
    | closing taken =>
      by_cases hdown : S.down = []
      · obtain ⟨hsay, -⟩ := h.toSay_of_hears (.inr hc) hdown
        refine .inr (h.enabled_of_answer hfits hwaiting (fun ha => hsay (by rw [ha]; rfl))
          (fun _ _ _ => by rw [hdown]; exact x.down_pos) fun ha => .inr ?_)
        have hm := h.receiving ha
        obtain ⟨hopening, opens, content, haction⟩ := x.put_of_receives hm
        have hfits' := hfits hopening
        rw [haction, hm] at hfits'
        rw [h.holds, hc, haction]
        exact congrArg not hfits'
      · exact hhears taken (.inr hc) hdown
    | upload left =>
      cases left with
      | nil =>
        refine hclient ?_
        unfold Exchange.clientStep
        rw [hc]
        rfl
      | cons b left =>
        by_cases hroom : S.Exited ∨ S.data.length < x.dataRoom
        · refine hclient ?_
          unfold Exchange.clientStep
          rw [hc]
          dsimp only
          split
          next => rfl
          next he =>
            rw [if_pos (hroom.resolve_left he)]
            rfl
        · rw [not_or, Nat.not_lt] at hroom
          refine .inr (h.enabled_of_answer hfits hwaiting (fun ha => hroom.1 ⟨hp, ha⟩)
            (fun _ _ ha => h.down_room_of_upload hfits hc hroom.2 ha) fun _ => .inl ?_)
          have hpos := x.data_pos
          exact List.ne_nil_of_length_pos (by omega)
    | download =>
      by_cases hdone : S.answer = .done
      · refine hclient ?_
        unfold Exchange.clientStep
        rw [hc]
        dsimp only
        by_cases hdata : S.data = []
        · rw [if_neg (by rw [hdata]; exact not_arrived_nil 1), if_pos ⟨⟨hp, hdone⟩, hdata⟩]
          rfl
        · rw [if_pos (arrived_one hdata)]
          rfl
      · exact .inr (h.enabled_of_over hfits (.inl hc) hwaiting hdone)
    | done =>
      by_cases hdone : S.answer = .done
      · exact .inl ⟨hc, hp, hdone⟩
      · exact .inr (h.enabled_of_over hfits (.inr hc) hwaiting hdone)

/-! ## No one goes on for ever -/

/-- The file a client uploads. -/
def Action.content : Action → List Byte
  | .get _ => []
  | .ls _ => []
  | .put _ content => content

/-- How many moves the client has before it, reads apart. -/
def Action.cost (action : Action) : ClientPhase → Nat
  | .request left => 2 * left.length + 2 * action.content.length + 6
  | .opening _ => 2 * action.content.length + 5
  | .upload left => 2 * left.length + 4
  | .closing _ => 3
  | .download => 2
  | .done => 0

/-- The same for the parent, which has the answer before it, too. -/
def Script.parentCost (script : Script) : ParentPhase → Nat
  | .reading _ => 2 * script.said.length + 2 * script.middle.bytes.length + 5
  | .forked => 1
  | .done => 0

/-- The same for the one that answers. -/
def Script.cost (script : Script) : AnswerPhase → Nat
  | .waiting => 0
  | .opening left =>
    2 * left.length + 2 * script.middle.bytes.length + 2 * script.closing.text.length + 3
  | .sending left => 2 * left.length + 2 * script.closing.text.length + 2
  | .receiving => 2 * script.closing.text.length + 2
  | .closing left => 2 * left.length + 1
  | .done => 0

/-- What is still to be done. A byte that is to be written will be read, too. -/
def Exchange.cost (x : Exchange) (S : Net) : Nat :=
  x.action.cost S.client + x.script.parentCost S.parent + x.script.cost S.answer + S.up.length +
    S.down.length + S.data.length

theorem length_drop_lt {n : Nat} {l : List Byte} (h : Arrived n l) :
    (l.drop n).length < l.length := by
  have hpos := h.1
  have hle := h.2
  rw [List.length_drop]
  omega

/-- Reading a reply. -/
theorem hear_cost {n : Nat} {taken : List Byte} {more next : List Byte → ClientPhase}
    (h : Arrived n S.down) (hmore : ∀ l, x.action.cost (more l) ≤ x.action.cost S.client)
    (hnext : ∀ l, x.action.cost (next l) ≤ x.action.cost S.client) :
    x.cost (S.hear n taken more next) < x.cost S := by
  have hdrop := length_drop_lt h
  have hclient : ∀ client, x.action.cost client ≤ x.action.cost S.client →
      x.cost ({ S with down := S.down.drop n }.goto client) < x.cost S := by
    intro client hle
    show x.action.cost client + x.script.parentCost S.parent + x.script.cost S.answer +
      S.up.length + (S.down.drop n).length + S.data.length < _
    unfold Exchange.cost
    omega
  unfold Net.hear
  dsimp only
  split
  next => exact hclient _ (hnext _)
  next => exact hclient _ (hmore _)

theorem Action.cost_afterOpening (action : Action) (line taken : List Byte) :
    action.cost (action.afterOpening line) ≤ action.cost (.opening taken) := by
  have hclosing : action.cost (.closing []) ≤ action.cost (.opening taken) := by
    simp only [Action.cost]
    omega
  unfold Action.afterOpening
  split
  next =>
    cases action with
    | get _ => exact hclosing
    | ls _ => exact hclosing
    | put opens content =>
      cases opens with
      | false => exact hclosing
      | true => exact Nat.le_succ _
  next => exact Nat.zero_le _

theorem Action.cost_afterClosing (action : Action) (line taken : List Byte) :
    action.cost (action.afterClosing line) ≤ action.cost (.closing taken) := by
  have hdownload : ∀ opens : Bool,
      action.cost (if opens then .download else .done) ≤ action.cost (.closing taken) := by
    intro opens
    split
    next => exact Nat.le_succ _
    next => exact Nat.zero_le _
  unfold Action.afterClosing
  split
  next =>
    cases action with
    | get opens => exact hdownload opens
    | ls opens => exact hdownload opens
    | put _ _ => exact Nat.zero_le _
  next => exact Nat.zero_le _

theorem clientStep_cost {n : Nat} {S' : Net} (hs : x.clientStep S n = some S') :
    x.cost S' < x.cost S := by
  unfold Exchange.clientStep at hs
  split at hs
  next hc =>
    cases hs
    simp only [Exchange.cost, Net.goto, hc, Action.cost, List.length_nil]
    omega
  next b left hc =>
    split at hs
    next =>
      cases hs
      simp only [Exchange.cost, hc, Action.cost, List.length_append, List.length_cons,
        List.length_nil]
      omega
    next => cases hs
  next taken hc =>
    split at hs
    next harrived =>
      cases hs
      refine hear_cost harrived (fun _ => ?_) fun l => ?_
      · rw [hc]
        exact Nat.le_refl _
      · rw [hc]
        exact x.action.cost_afterOpening l taken
    next => cases hs
  next hc =>
    cases hs
    simp only [Exchange.cost, hc, Action.cost, List.length_nil]
    omega
  next b left hc =>
    split at hs
    next =>
      cases hs
      split
      next =>
        simp only [Exchange.cost, Net.goto, hc, Action.cost, List.length_cons]
        omega
      next =>
        simp only [Exchange.cost, Net.goto, hc, Action.cost, List.length_cons]
        omega
    next =>
      split at hs
      next =>
        cases hs
        simp only [Exchange.cost, hc, Action.cost, List.length_append, List.length_cons,
          List.length_nil]
        omega
      next => cases hs
  next taken hc =>
    split at hs
    next harrived =>
      cases hs
      refine hear_cost harrived (fun _ => ?_) fun l => ?_
      · rw [hc]
        exact Nat.le_refl _
      · rw [hc]
        exact x.action.cost_afterClosing l taken
    next => cases hs
  next hc =>
    split at hs
    next harrived =>
      cases hs
      have hdrop := length_drop_lt harrived
      simp only [Exchange.cost]
      omega
    next =>
      split at hs
      next =>
        cases hs
        simp only [Exchange.cost, Net.goto, hc, Action.cost]
        omega
      next => cases hs
  next => cases hs

/-- A parent that still reads has more before it than its answer. -/
theorem Script.cost_start (script : Script) (taken : List Byte) :
    script.cost script.start + 1 < script.parentCost (.reading taken) := by
  unfold Script.start
  cases ho : script.opening with
  | none =>
    simp only [Script.cost, Script.parentCost, Script.said, List.length_append]
    omega
  | some r =>
    simp only [Script.cost, Script.parentCost, Script.said, Script.openingText_of_some ho,
      List.length_append]
    omega

theorem parentStep_cost {n : Nat} {S' : Net} (hs : x.parentStep S n = some S') :
    x.cost S' < x.cost S := by
  unfold Exchange.parentStep at hs
  split at hs
  next taken hp =>
    split at hs
    next harrived =>
      have hdrop := length_drop_lt harrived
      dsimp only at hs
      split at hs
      next =>
        cases hs
        have hstart := x.script.cost_start taken
        have hparent : x.script.parentCost (if x.answer.forks then .forked else .done) ≤ 1 := by
          split
          next => exact Nat.le_refl _
          next => exact Nat.zero_le _
        simp only [Exchange.cost, hp]
        omega
      next =>
        cases hs
        simp only [Exchange.cost, hp, Script.parentCost]
        omega
    next => cases hs
  next hp =>
    cases hs
    simp only [Exchange.cost, hp, Script.parentCost]
    omega
  next => cases hs

theorem answerStep_cost {n : Nat} {S' : Net} (hs : x.answerStep S n = some S') :
    x.cost S' < x.cost S := by
  unfold Exchange.answerStep at hs
  -- every byte that is written is charged twice before it is, and once afterwards
  split at hs
  next => cases hs
  next ha =>
    cases hs
    have htransfer : x.script.cost x.script.transfer < x.script.cost (.opening []) := by
      unfold Script.transfer
      cases hm : x.script.middle with
      | sends bytes =>
        simp only [Script.cost, hm, Middle.bytes, List.length_nil]
        omega
      | receives =>
        simp only [Script.cost, hm, Middle.bytes, List.length_nil]
        omega
    simp only [Exchange.cost, ha]
    omega
  next b left ha =>
    split at hs
    next =>
      cases hs
      simp only [Exchange.cost, ha, Script.cost, List.length_append, List.length_cons,
        List.length_nil]
      omega
    next => cases hs
  next ha =>
    cases hs
    simp only [Exchange.cost, ha, Script.cost, List.length_nil]
    omega
  next b left ha =>
    split at hs
    next =>
      cases hs
      simp only [Exchange.cost, ha, Script.cost, List.length_cons]
      omega
    next =>
      split at hs
      next =>
        cases hs
        simp only [Exchange.cost, ha, Script.cost, List.length_append, List.length_cons,
          List.length_nil]
        omega
      next => cases hs
  next ha =>
    split at hs
    next harrived =>
      cases hs
      have hdrop := length_drop_lt harrived
      simp only [Exchange.cost]
      omega
    next =>
      split at hs
      next =>
        cases hs
        simp only [Exchange.cost, ha, Script.cost]
        omega
      next => cases hs
  next ha =>
    cases hs
    simp only [Exchange.cost, ha, Script.cost, List.length_nil]
    omega
  next b left ha =>
    split at hs
    next =>
      cases hs
      simp only [Exchange.cost, ha, Script.cost, List.length_append, List.length_cons,
        List.length_nil]
      omega
    next => cases hs
  next => cases hs

/-- Every move is progress. -/
theorem step_cost {m : Move} {S' : Net} (hs : x.net.step S m = .ok S') : x.cost S' < x.cost S := by
  have hmove := net_step_eq_ok.mp hs
  cases m with
  | client n => exact clientStep_cost hmove
  | parent n => exact parentStep_cost hmove
  | answer n => exact answerStep_cost hmove

/-- No run is longer than what there is to do at its start. -/
theorem length_add_cost_le {moves : List Move} (hrun : x.net.run moves = .ok S) :
    moves.length + x.cost S ≤ x.cost x.start := by
  refine Machine.run_invariant (I := fun moves S => moves.length + x.cost S ≤ x.cost x.start)
    ?_ (fun moves S m S' h hs => ?_) moves S hrun
  · exact Nat.le_of_eq (Nat.zero_add _)
  · have hcost := step_cost hs
    rw [List.length_append, List.length_singleton]
    omega

/-! ## Exactly when -/

theorem Arrived.one {n : Nat} {l : List Byte} (h : Arrived n l) : Arrived 1 l :=
  ⟨Nat.one_pos, Nat.le_trans h.1 h.2⟩

/-- A client that can read at all can read one byte. -/
theorem clientStep_one {n : Nat} (h : (x.clientStep S n).isSome = true) :
    (x.clientStep S 1).isSome = true := by
  have hif : ∀ {l : List Byte} {a b c d : Option Net},
      (if Arrived n l then a else b).isSome = true →
      (b.isSome = true → d.isSome = true) → c.isSome = true →
        (if Arrived 1 l then c else d).isSome = true := by
    intro l a b c d hs hd hc
    split
    next => exact hc
    next hone =>
      rw [if_neg fun hn => hone hn.one] at hs
      exact hd hs
  unfold Exchange.clientStep at h ⊢
  cases hc : S.client with
  | request left =>
    rw [hc] at h
    cases left with
    | nil => rfl
    | cons b left => exact h
  | opening taken =>
    rw [hc] at h
    exact hif h nofun rfl
  | upload left =>
    rw [hc] at h
    cases left with
    | nil => rfl
    | cons b left =>
      dsimp only at h ⊢
      split
      next => rfl
      next he =>
        rw [if_neg he] at h
        exact h
  | closing taken =>
    rw [hc] at h
    exact hif h nofun rfl
  | download =>
    rw [hc] at h
    exact hif h id rfl
  | done =>
    rw [hc] at h
    exact h

theorem parentStep_one {n : Nat} (h : (x.parentStep S n).isSome = true) :
    (x.parentStep S 1).isSome = true := by
  unfold Exchange.parentStep at h ⊢
  cases hp : S.parent with
  | reading taken =>
    rw [hp] at h
    dsimp only at h ⊢
    by_cases hn : Arrived n S.up
    · rw [if_pos hn.one]
      split <;> rfl
    · rw [if_neg hn] at h
      cases h
  | forked => rfl
  | done =>
    rw [hp] at h
    exact h

theorem answerStep_one {n : Nat} (h : (x.answerStep S n).isSome = true) :
    (x.answerStep S 1).isSome = true := by
  by_cases ha : S.answer = .receiving
  · unfold Exchange.answerStep at h ⊢
    rw [ha] at h ⊢
    dsimp only at h ⊢
    split
    next => rfl
    next hone =>
      rw [if_neg fun hn => hone hn.one] at h
      exact h
  · have hany : x.answerStep S 1 = x.answerStep S n := by
      unfold Exchange.answerStep
      split <;> first | rfl | contradiction
    rw [hany]
    exact h

/-- To see whether someone can go on it is enough to try reads of one byte, and these never
go beyond a line. -/
theorem enabled_iff : x.Enabled S ↔ (x.clientStep S 1).isSome = true ∨
    (x.parentStep S 1).isSome = true ∨ (x.answerStep S 1).isSome = true := by
  constructor
  · rintro ⟨m, S', hs⟩
    have hsome : (x.move S m).isSome = true := by
      rw [net_step_eq_ok.mp hs]
      rfl
    cases m with
    | client n => exact .inl (clientStep_one hsome)
    | parent n => exact .inr (.inl (parentStep_one hsome))
    | answer n => exact .inr (.inr (answerStep_one hsome))
  · rintro (hs | hs | hs)
    · exact enabled_of_move (.client 1) hs
    · exact enabled_of_move (.parent 1) hs
    · exact enabled_of_move (.answer 1) hs

instance : Decidable (x.Enabled S) := decidable_of_iff _ enabled_iff.symm

theorem readsLines_one (S : Net) : ReadsLines S (.client 1) := by
  have hone : ∀ l : List Byte, newline ∉ (l.take 1).dropLast := by
    intro l
    cases l with
    | nil => exact List.not_mem_nil
    | cons b l => exact List.not_mem_nil
  exact fun _ => hone _

/-- Someone can go on without reading beyond a line. -/
theorem Exchange.Enabled.reads (h : x.Enabled S) :
    ∃ m S', ReadsLines S m ∧ x.net.step S m = .ok S' := by
  rcases enabled_iff.mp h with hs | hs | hs
  · exact ⟨.client 1, _, readsLines_one S, net_step_eq_ok.mpr (Option.some_get hs).symm⟩
  · exact ⟨.parent 1, _, trivial, net_step_eq_ok.mpr (Option.some_get hs).symm⟩
  · exact ⟨.answer 1, _, trivial, net_step_eq_ok.mpr (Option.some_get hs).symm⟩

/-- Where someone can always go on, an exchange that has come to `S` comes to its end. -/
theorem finishes_from (hnever : ∀ moves S, x.net.Meets ReadsLines moves →
      x.net.run moves = .ok S → S.Finished ∨ x.Enabled S) :
    ∀ (k : Nat) (moves : List Move) (S : Net), x.cost S ≤ k → x.net.Meets ReadsLines moves →
      x.net.run moves = .ok S → ∃ moves' S', x.net.Meets ReadsLines moves' ∧
        x.net.run moves' = .ok S' ∧ S'.Finished := by
  intro k
  induction k with
  | zero =>
    intro moves S hk hread hrun
    refine (hnever moves S hread hrun).elim (fun hf => ⟨moves, S, hread, hrun, hf⟩) fun he => ?_
    obtain ⟨m, S', hs⟩ := he
    have hcost := step_cost hs
    omega
  | succ k ih =>
    intro moves S hk hread hrun
    refine (hnever moves S hread hrun).elim (fun hf => ⟨moves, S, hread, hrun, hf⟩) fun he => ?_
    obtain ⟨m, S', hm, hs⟩ := he.reads
    have hcost := step_cost hs
    exact ih (moves ++ [m]) S' (by omega) ((Machine.meets_concat hrun).mpr ⟨hread, hm⟩)
      (Machine.run_append_step hrun hs)

/-- **Deadlocks.** In every run in which the client does not read beyond a line there is
always someone who can go on, or the exchange is over, if and only if it fits. -/
theorem never_stuck_iff (x : Exchange) :
    (∀ moves S, x.net.Meets ReadsLines moves → x.net.run moves = .ok S →
      S.Finished ∨ x.Enabled S) ↔ x.Fits := by
  constructor
  · intro hnever
    obtain ⟨moves, S, hread, hrun, hfinished⟩ :=
      finishes_from hnever (x.cost x.start) [] x.start (Nat.le_refl _) trivial rfl
    exact ((flow_of_run hread hrun).settled (.inr hfinished.1)).2
  · intro hfits moves S hread hrun
    exact (flow_of_run hread hrun).progress hfits

/-- A `get` of a file of two bytes, where the data connection holds one. -/
def twoBytes : Exchange where
  action := .get true
  name := lit "pub"
  answer := .forked (fun _ _ => []) (.fine []) ⟨lit "RETR", [lit "pub"]⟩ (sending (lit "ab"))
    [srv, ftp] (lit "pub")
  upRoom := 64
  downRoom := 64
  dataRoom := 1
  typed := by decide
  up_pos := by decide
  down_pos := by decide
  data_pos := by decide

/-- The request goes out, the child prints its first line and one byte, and now it waits for
room, while the client waits for the second line. -/
theorem download_stuck : ∃ moves S, twoBytes.net.Meets ReadsLines moves ∧
    twoBytes.net.run moves = .ok S ∧ S.client = .closing [] ∧ S.answer = .sending (lit "b") ∧
      ¬ S.Finished ∧ ¬ twoBytes.Enabled S := by
  let moves : List Move := List.replicate 11 (.client 0) ++ [.parent 10] ++
    List.replicate 43 (.answer 0) ++ [.client 42, .parent 0, .answer 0]
  have hread : twoBytes.net.Meets ReadsLines moves := by decide +kernel
  obtain ⟨S, hrun, hS⟩ : ∃ S, twoBytes.net.run moves = .ok S ∧ (S.client = .closing [] ∧
      S.answer = .sending (lit "b") ∧ ¬ S.Finished ∧ ¬ twoBytes.Enabled S) :=
    Machine.exists_of_run (by decide +kernel)
  exact ⟨moves, S, hread, hrun, hS⟩

end MyFtp.Wire
