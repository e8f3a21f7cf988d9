import MyFtp.Wire.Deadlock
import MyFtp.Wire.Upload
import MyFtp.Server.Retrieval

/-!
# What a transfer delivers

The moves of `Exchange.net` carry the bytes of a file from one end to the other, through a
channel with room for a few of them. Here they are followed on their way.

> `delivers_of_run`: where no read of the control connection goes behind a newline, an exchange
> that fits comes to its end after a bounded number of moves, whatever their order; then the
> client has read what the child sent, or the child has read what the client sent, each byte
> once and in order.

> `get_exact_iff`: what `get` then leaves in its file is the file of the server if and only if
> that holds no NUL byte.
-/

namespace MyFtp.Wire

open MyFtp.Posix
open MyFtp.Server
open MyFtp.Client (hasCode)

/-! ## What is read off the data connection -/

/-- What a `read` of the client returns. -/
def fetchedBy (S : Net) : Move → Option (List Byte)
  | .client n => if S.client = .download ∧ Arrived n S.data then some (S.data.take n) else none
  | _ => none

/-- What a `read` of the child returns. -/
def receivedBy (S : Net) : Move → Option (List Byte)
  | .answer n => if S.answer = .receiving ∧ Arrived n S.data then some (S.data.take n) else none
  | _ => none

/-- The reads of the client, in order. -/
def Exchange.fetched (x : Exchange) (moves : List Move) : List (List Byte) :=
  x.net.seen (fun S m _ => fetchedBy S m) moves

/-- The reads of the child. -/
def Exchange.received (x : Exchange) (moves : List Move) : List (List Byte) :=
  x.net.seen (fun S m _ => receivedBy S m) moves

/-- The client gets as far as to read the data. -/
def Exchange.Downloads (x : Exchange) : Prop :=
  (x.action = .get true ∨ x.action = .ls true) ∧ x.script.opening ≠ none ∧
    hasCode (cstr x.script.closing.text) "226" = true

/-- What the client has not written of its file. -/
def Action.unsent (action : Action) : ClientPhase → List Byte
  | .request _ => action.content
  | .opening _ => action.content
  | .upload left => left
  | _ => []

/-- Every byte is accounted for. -/
structure Delivers (x : Exchange) (moves : List Move) (S : Net) : Prop where
  fetched : x.Downloads →
    (x.fetched moves).flatten ++ (S.data ++ x.script.toSend S.answer) = x.script.middle.bytes
  emptied : x.Downloads → S.client = .done → S.data = []
  refused : ¬ x.Downloads → x.fetched moves = []
  entered : S.client = .download → x.Downloads
  received : x.script.middle = .receives →
    (x.received moves).flatten ++ (S.data ++ x.action.unsent S.client) = x.action.content
  drained : x.script.middle = .receives → ¬ S.answer.Early → S.data = []

section

variable {x : Exchange} {S S' : Net} {moves : List Move} {m : Move} {n : Nat}

theorem delivers_start (x : Exchange) : Delivers x [] x.start where
  fetched := fun _ => rfl
  emptied := fun _ h => by cases h
  refused := fun _ => rfl
  entered := fun h => by cases h
  received := fun _ => rfl
  drained := fun _ _ => rfl

theorem fetched_append (hrun : x.net.run moves = .ok S) (hs : x.net.step S m = .ok S') :
    x.fetched (moves ++ [m]) = x.fetched moves ++ (fetchedBy S m).toList :=
  Machine.seen_append_step (f := fun S m _ => fetchedBy S m) hrun hs

theorem received_append (hrun : x.net.run moves = .ok S) (hs : x.net.step S m = .ok S') :
    x.received (moves ++ [m]) = x.received moves ++ (receivedBy S m).toList :=
  Machine.seen_append_step (f := fun S m _ => receivedBy S m) hrun hs

/-- Only `get` and `ls` download. -/
theorem Exchange.Downloads.fetches (h : x.Downloads) : x.action.fetches = true := by
  rcases h.1 with h | h <;> rw [h] <;> rfl

/-- Where a file is received there is nothing to download. -/
theorem Exchange.Downloads.not_receives (h : x.Downloads) : x.script.middle ≠ .receives :=
  x.fair.fetch_sends h.fetches

/-! ## What the client hears -/

/-- What comes of a read while the client waits for the first line. -/
theorem Flow.heard_opening {taken : List Byte} (h : Flow x S) (hc : S.client = .opening taken)
    (hread : newline ∉ (S.down.take n).dropLast) :
    ∃ client, S.hear n taken .opening x.action.afterOpening =
        { S with down := S.down.drop n }.goto client ∧
      ((∃ taken', client = .opening taken') ∨ (x.script.opening = none ∧ client = .done) ∨
        (x.script.opening ≠ none ∧ client = x.action.afterOpening x.script.openingText)) := by
  rcases hear_cases (h.hears taken (.inl hc)) hread with ⟨-, heq⟩ | ⟨hline, heq⟩
  · exact ⟨_, heq, .inl ⟨_, rfl⟩⟩
  have hsaid : taken ++ S.down.take n ++ (S.down.drop n ++ x.script.toSay S.answer) =
      x.script.said := by
    have hall := h.said (by rw [hc]; simp)
    rw [hc] at hall
    rw [← hall, ← List.append_assoc, List.append_assoc taken, List.take_append_drop]
    rfl
  cases hopening : x.script.opening with
  | none =>
    have hsaid' : taken ++ S.down.take n ++ (S.down.drop n ++ x.script.toSay S.answer) =
        x.script.closing.text ++ [] := by
      rw [hsaid, Script.said, Script.openingText, hopening, List.append_nil]
      rfl
    obtain ⟨hgot, -⟩ := hline.append_inj x.fair.closing_line hsaid'
    refine ⟨_, heq, .inr (.inl ⟨rfl, ?_⟩)⟩
    rw [hgot]
    unfold Action.afterOpening
    rw [x.fair.refusal_code hopening, if_neg (by simp)]
  | some r =>
    have hsome : x.script.opening ≠ none := by
      rw [hopening]
      simp
    obtain ⟨hgot, -⟩ := hline.append_inj (x.fair.openingText_line hsome).1 hsaid
    exact ⟨_, heq, .inr (.inr ⟨by simp, by rw [hgot]⟩)⟩

/-- What comes of it while the client waits for the second one. -/
theorem Flow.heard_closing {taken : List Byte} (h : Flow x S) (hc : S.client = .closing taken)
    (hread : newline ∉ (S.down.take n).dropLast) :
    ∃ client, S.hear n taken .closing x.action.afterClosing =
        { S with down := S.down.drop n }.goto client ∧
      ((∃ taken', client = .closing taken') ∨
        client = x.action.afterClosing x.script.closing.text) := by
  rcases hear_cases (h.hears taken (.inr hc)) hread with ⟨-, heq⟩ | ⟨hline, heq⟩
  · exact ⟨_, heq, .inl ⟨_, rfl⟩⟩
  have hsaid : taken ++ S.down.take n ++ (S.down.drop n ++ x.script.toSay S.answer) =
      x.script.closing.text ++ [] := by
    have hall := h.said (by rw [hc]; simp)
    rw [hc] at hall
    rw [List.append_nil]
    refine (List.append_right_inj x.script.openingText).mp ?_
    refine Eq.trans ?_ hall
    rw [List.append_assoc taken, ← List.append_assoc (S.down.take n), List.take_append_drop]
    simp only [Script.heard, List.append_assoc]
  obtain ⟨hgot, -⟩ := hline.append_inj x.fair.closing_line hsaid
  exact ⟨_, heq, .inr (by rw [hgot])⟩

/-- After the first line of a transfer, which only `put` does not follow by the second. -/
theorem afterOpening_of_transfer (hopening : x.script.opening ≠ none) :
    (x.action.afterOpening x.script.openingText = .closing [] ∧
      ∀ content, x.action ≠ .put true content) ∨
    ∃ content, x.action = .put true content ∧
      x.action.afterOpening x.script.openingText = .upload content := by
  have hcode := (x.fair.openingText_line hopening).2
  unfold Action.afterOpening
  rw [hcode]
  cases x.action with
  | get _ => exact .inl ⟨rfl, nofun⟩
  | ls _ => exact .inl ⟨rfl, nofun⟩
  | put opens content =>
    cases opens with
    | false => exact .inl ⟨rfl, nofun⟩
    | true => exact .inr ⟨content, rfl, rfl⟩

/-! ## One move -/

/-- A move that takes nothing off the data connection and puts nothing on it. -/
theorem Delivers.quiet (h : Delivers x moves S) (hrun : x.net.run moves = .ok S)
    (hs : x.net.step S m = .ok S') (hfetched : fetchedBy S m = none)
    (hreceived : receivedBy S m = none) (hdata : S'.data = S.data)
    (hsend : x.script.toSend S'.answer = x.script.toSend S.answer)
    (hunsent : x.script.middle = .receives → x.action.unsent S'.client = x.action.unsent S.client)
    (hdone : x.Downloads → S'.client = .done → S.client = .done ∨ S.data = [])
    (henter : S'.client = .download → S.client = .download ∨ x.Downloads)
    (hearly : x.script.middle = .receives → ¬ S'.answer.Early → ¬ S.answer.Early ∨ S.data = []) :
    Delivers x (moves ++ [m]) S' := by
  have hsame : x.fetched (moves ++ [m]) = x.fetched moves := by
    rw [fetched_append hrun hs, hfetched]
    exact List.append_nil _
  have hsame' : x.received (moves ++ [m]) = x.received moves := by
    rw [received_append hrun hs, hreceived]
    exact List.append_nil _
  refine ⟨fun hd => ?_, fun hd hc => ?_, fun hd => ?_, fun hc => ?_, fun hm => ?_, fun hm ha => ?_⟩
  · rw [hsame, hdata, hsend]
    exact h.fetched hd
  · rw [hdata]
    exact (hdone hd hc).elim (h.emptied hd) id
  · rw [hsame]
    exact h.refused hd
  · exact (henter hc).elim h.entered id
  · rw [hsame', hdata, hunsent hm]
    exact h.received hm
  · rw [hdata]
    exact (hearly hm ha).elim (h.drained hm) id

/-- Where the child reads, the client has a stream to write on. -/
theorem Exchange.Fits.put (hfits : x.Fits) (hm : x.script.middle = .receives) :
    ∃ content, x.action = .put true content := by
  obtain ⟨hopening, opens, content, haction⟩ := x.put_of_receives hm
  have hopens := hfits hopening
  rw [haction, hm] at hopens
  obtain rfl : opens = true := hopens
  exact ⟨content, haction⟩

/-- The child does not stop reading while the client uploads. -/
theorem Flow.early_of_upload {left : List Byte} (h : Flow x S) (hc : S.client = .upload left)
    (hm : x.script.middle = .receives) : S.answer.Early := by
  refine h.early hm ?_
  rw [h.holds, hc]
  rfl

/-- While the child sends, the client waits for its last line. -/
theorem Flow.not_done_of_sending {left : List Byte} (h : Flow x S)
    (ha : S.answer = .sending left) : S.client ≠ .done := by
  intro hc
  have hsay := (h.settled (.inr hc)).1
  rw [ha] at hsay
  exact x.fair.closing_ne_nil hsay

/-- Nothing is sent where the child reads. -/
theorem Flow.not_receives_of_sending {b : Byte} {left : List Byte} (h : Flow x S)
    (ha : S.answer = .sending (b :: left)) : x.script.middle ≠ .receives := by
  intro hm
  have hsuffix := h.sending _ ha
  rw [hm] at hsuffix
  cases List.suffix_nil.mp hsuffix

theorem fetchedBy_of_ne (hc : S.client ≠ .download) : fetchedBy S (.client n) = none := by
  unfold fetchedBy
  dsimp only
  rw [if_neg fun h => hc h.1]

/-- The client writes its request, or has written it. -/
theorem Delivers.client_request {left : List Byte} (h : Delivers x moves S)
    (hrun : x.net.run moves = .ok S) (hc : S.client = .request left)
    (hs : x.clientStep S n = some S') : Delivers x (moves ++ [.client n]) S' := by
  have hstep : x.net.step S (.client n) = .ok S' := net_step_eq_ok.mpr hs
  have hfetched : fetchedBy S (.client n) = none := fetchedBy_of_ne (by rw [hc]; simp)
  unfold Exchange.clientStep at hs
  rw [hc] at hs
  cases left with
  | nil =>
    cases hs
    exact h.quiet hrun hstep hfetched rfl rfl rfl (fun _ => by rw [hc]; rfl)
      (fun _ hd => by cases hd) (fun hd => by cases hd) fun _ ha => .inl ha
  | cons b left =>
    dsimp only at hs
    split at hs
    next =>
      cases hs
      exact h.quiet hrun hstep hfetched rfl rfl rfl (fun _ => by rw [hc]; rfl)
        (fun _ hd => by cases hd) (fun hd => by cases hd) fun _ ha => .inl ha
    next => cases hs

/-- It waits for the first line. -/
theorem Delivers.client_opening {taken : List Byte} (h : Delivers x moves S) (hflow : Flow x S)
    (hfits : x.Fits) (hrun : x.net.run moves = .ok S) (hread : ReadsLines S (.client n))
    (hc : S.client = .opening taken) (hs : x.clientStep S n = some S') :
    Delivers x (moves ++ [.client n]) S' := by
  have hstep : x.net.step S (.client n) = .ok S' := net_step_eq_ok.mpr hs
  have hfetched : fetchedBy S (.client n) = none := fetchedBy_of_ne (by rw [hc]; simp)
  unfold Exchange.clientStep at hs
  rw [hc] at hs
  dsimp only at hs
  split at hs
  next =>
    cases hs
    obtain ⟨client, heq, hclient⟩ := hflow.heard_opening hc (hread (by rw [hc]; rfl))
    rw [heq] at hstep ⊢
    rcases hclient with ⟨taken', rfl⟩ | ⟨hnone, rfl⟩ | ⟨hsome, rfl⟩
    · exact h.quiet hrun hstep hfetched rfl rfl rfl (fun _ => by rw [hc]; rfl)
        (fun _ hd => by cases hd) (fun hd => by cases hd) fun _ ha => .inl ha
    · -- the request was refused
      exact h.quiet hrun hstep hfetched rfl rfl rfl
        (fun hm => absurd hnone (x.put_of_receives hm).1) (fun hd _ => absurd hnone hd.2.1)
        (fun hd => by cases hd) fun _ ha => .inl ha
    · have hnext := afterOpening_of_transfer hsome
      refine h.quiet hrun hstep hfetched rfl rfl rfl (fun hm => ?_) (fun _ hd => ?_)
        (fun hd => ?_) fun _ ha => .inl ha
      · obtain ⟨content, haction⟩ := hfits.put hm
        show x.action.unsent (x.action.afterOpening x.script.openingText) = _
        rcases hnext with ⟨-, hnot⟩ | ⟨content', haction', hnext⟩
        · exact absurd haction (hnot content)
        · rw [hnext, hc, haction']
          rfl
      · have hd' : x.action.afterOpening x.script.openingText = .done := hd
        rcases hnext with ⟨hnext, -⟩ | ⟨_, -, hnext⟩ <;> cases hnext.symm.trans hd'
      · have hd' : x.action.afterOpening x.script.openingText = .download := hd
        rcases hnext with ⟨hnext, -⟩ | ⟨_, -, hnext⟩ <;> cases hnext.symm.trans hd'
  next => cases hs

/-- It writes its file, to a server that may be gone. -/
theorem Delivers.client_upload {b : Byte} {left : List Byte} (h : Delivers x moves S)
    (hflow : Flow x S) (hrun : x.net.run moves = .ok S) (hc : S.client = .upload (b :: left))
    (hs : x.clientStep S n = some S') : Delivers x (moves ++ [.client n]) S' := by
  have hstep : x.net.step S (.client n) = .ok S' := net_step_eq_ok.mpr hs
  have hfetched : fetchedBy S (.client n) = none := fetchedBy_of_ne (by rw [hc]; simp)
  obtain ⟨content, haction, -⟩ := hflow.uploading _ hc
  have hnot : ¬ x.Downloads := fun hd => by
    have hfetches := hd.fetches
    rw [haction] at hfetches
    cases hfetches
  unfold Exchange.clientStep at hs
  rw [hc] at hs
  dsimp only at hs
  split at hs
  next he =>
    -- the server is gone, which it is not where it reads
    cases hs
    have hno : x.script.middle ≠ .receives := fun hm => by
      have hearly := hflow.early_of_upload hc hm
      rw [he.2] at hearly
      exact hearly
    refine h.quiet hrun hstep hfetched rfl rfl rfl (fun hm => absurd hm hno)
      (fun hd => absurd hd hnot) (fun hd => ?_) fun hm => absurd hm hno
    have hd' : (if n = 0 then ClientPhase.done else .upload left) = .download := hd
    split at hd' <;> cases hd'
  next =>
    split at hs
    next hroom =>
      cases hs
      have hsame : x.fetched (moves ++ [.client n]) = x.fetched moves := by
        rw [fetched_append hrun hstep, hfetched]
        exact List.append_nil _
      have hsame' : x.received (moves ++ [.client n]) = x.received moves := by
        rw [received_append hrun hstep]
        exact List.append_nil _
      refine ⟨fun hd => absurd hd hnot, fun hd => absurd hd hnot, fun hd => ?_,
        fun hd => (by cases hd), fun hm => ?_, fun hm ha => ?_⟩
      · rw [hsame]
        exact h.refused hd
      · have hbytes := h.received hm
        rw [hc] at hbytes
        rw [hsame', ← hbytes]
        show _ ++ (S.data ++ [b] ++ left) = _
        rw [List.append_assoc, List.singleton_append]
        rfl
      · exact absurd (hflow.early_of_upload hc hm) ha
    next => cases hs

/-- After the second line only a `get` or an `ls` goes on, and only if the line is a 226. -/
theorem afterClosing_download (hclosing : x.action.afterClosing x.script.closing.text = .download) :
    (x.action = .get true ∨ x.action = .ls true) ∧
      hasCode (cstr x.script.closing.text) "226" = true := by
  unfold Action.afterClosing at hclosing
  split at hclosing
  next hcode =>
    refine ⟨?_, hcode⟩
    split at hclosing
    next opens haction =>
      cases opens with
      | true => exact .inl haction
      | false => cases hclosing
    next opens haction =>
      cases opens with
      | true => exact .inr haction
      | false => cases hclosing
    next => cases hclosing
  next => cases hclosing

/-- It waits for the second line. -/
theorem Delivers.client_closing {taken : List Byte} (h : Delivers x moves S) (hflow : Flow x S)
    (hfits : x.Fits) (hrun : x.net.run moves = .ok S) (hread : ReadsLines S (.client n))
    (hc : S.client = .closing taken) (hs : x.clientStep S n = some S') :
    Delivers x (moves ++ [.client n]) S' := by
  have hstep : x.net.step S (.client n) = .ok S' := net_step_eq_ok.mpr hs
  have hfetched : fetchedBy S (.client n) = none := fetchedBy_of_ne (by rw [hc]; simp)
  unfold Exchange.clientStep at hs
  rw [hc] at hs
  dsimp only at hs
  split at hs
  next =>
    cases hs
    obtain ⟨client, heq, hclient⟩ := hflow.heard_closing hc (hread (by rw [hc]; rfl))
    rw [heq] at hstep ⊢
    rcases hclient with ⟨taken', rfl⟩ | rfl
    · exact h.quiet hrun hstep hfetched rfl rfl rfl (fun _ => by rw [hc]; rfl)
        (fun _ hd => by cases hd) (fun hd => by cases hd) fun _ ha => .inl ha
    · refine h.quiet hrun hstep hfetched rfl rfl rfl (fun hm => ?_) (fun hd hd' => ?_)
        (fun hd => .inr ?_) fun _ ha => .inl ha
      · obtain ⟨content, haction⟩ := hfits.put hm
        show x.action.unsent (x.action.afterClosing x.script.closing.text) = _
        unfold Action.afterClosing
        rw [haction, hc]
        split <;> rfl
      · -- who downloads goes on to the data
        have hd'' : x.action.afterClosing x.script.closing.text = .done := hd'
        unfold Action.afterClosing at hd''
        rw [hd.2.2, if_pos rfl] at hd''
        rcases hd.1 with haction | haction <;> rw [haction] at hd'' <;> cases hd''
      · obtain ⟨haction, hcode⟩ := afterClosing_download hd
        exact ⟨haction, hflow.begun taken (.inl hc), hcode⟩
  next => cases hs

/-- It reads the data, up to its end. -/
theorem Delivers.client_download (h : Delivers x moves S) (hrun : x.net.run moves = .ok S)
    (hc : S.client = .download) (hs : x.clientStep S n = some S') :
    Delivers x (moves ++ [.client n]) S' := by
  have hstep : x.net.step S (.client n) = .ok S' := net_step_eq_ok.mpr hs
  have hdownloads := h.entered hc
  unfold Exchange.clientStep at hs
  rw [hc] at hs
  dsimp only at hs
  split at hs
  next harrived =>
    cases hs
    have hmore : x.fetched (moves ++ [.client n]) = x.fetched moves ++ [S.data.take n] := by
      rw [fetched_append hrun hstep]
      unfold fetchedBy
      dsimp only
      rw [if_pos ⟨hc, harrived⟩]
      rfl
    refine ⟨fun hd => ?_, fun hd hc' => (by cases hc'), fun hd => absurd hdownloads hd,
      fun _ => hdownloads, fun hm => absurd hm hdownloads.not_receives,
      fun hm => absurd hm hdownloads.not_receives⟩
    rw [hmore, List.flatten_append, List.flatten_singleton, ← h.fetched hd, List.append_assoc]
    show _ ++ (S.data.take n ++ (S.data.drop n ++ _)) = _
    rw [← List.append_assoc (S.data.take n), List.take_append_drop]
  next harrived =>
    split at hs
    next hend =>
      cases hs
      refine h.quiet hrun hstep ?_ rfl rfl rfl (fun hm => absurd hm hdownloads.not_receives)
        (fun _ _ => .inr hend.2) (fun _ => .inr hdownloads) fun _ ha => .inl ha
      unfold fetchedBy
      dsimp only
      rw [if_neg fun h => harrived h.2]
    next => cases hs

/-- A move of the client. -/
theorem Delivers.client (h : Delivers x moves S) (hflow : Flow x S) (hfits : x.Fits)
    (hrun : x.net.run moves = .ok S) (hread : ReadsLines S (.client n))
    (hs : x.clientStep S n = some S') : Delivers x (moves ++ [.client n]) S' := by
  cases hc : S.client with
  | request left => exact h.client_request hrun hc hs
  | opening taken => exact h.client_opening hflow hfits hrun hread hc hs
  | upload left =>
    cases left with
    | nil =>
      have hstep : x.net.step S (.client n) = .ok S' := net_step_eq_ok.mpr hs
      unfold Exchange.clientStep at hs
      rw [hc] at hs
      cases hs
      exact h.quiet hrun hstep (fetchedBy_of_ne (by rw [hc]; simp)) rfl rfl rfl
        (fun _ => by rw [hc]; rfl) (fun _ hd => by cases hd) (fun hd => by cases hd)
        fun _ ha => .inl ha
    | cons b left => exact h.client_upload hflow hrun hc hs
  | closing taken => exact h.client_closing hflow hfits hrun hread hc hs
  | download => exact h.client_download hrun hc hs
  | done =>
    unfold Exchange.clientStep at hs
    rw [hc] at hs
    cases hs

/-- A move of the parent. -/
theorem Delivers.parent (h : Delivers x moves S) (hflow : Flow x S)
    (hrun : x.net.run moves = .ok S) (hs : x.parentStep S n = some S') :
    Delivers x (moves ++ [.parent n]) S' := by
  have hstep : x.net.step S (.parent n) = .ok S' := net_step_eq_ok.mpr hs
  unfold Exchange.parentStep at hs
  split at hs
  next taken hp =>
    have hwaiting := hflow.waiting.mpr ⟨taken, hp⟩
    split at hs
    next =>
      dsimp only at hs
      split at hs
      next =>
        cases hs
        refine h.quiet hrun hstep rfl rfl rfl ?_ (fun _ => rfl) (fun _ hd => .inl hd)
          (fun hd => .inl hd) fun hm ha => absurd ?_ ha
        · rw [hwaiting]
          exact x.fair.toSend_start
        · show x.script.start.Early
          unfold Script.start
          obtain ⟨r, hr⟩ := Option.ne_none_iff_exists'.mp (x.put_of_receives hm).1
          rw [hr]
          trivial
      next =>
        cases hs
        exact h.quiet hrun hstep rfl rfl rfl rfl (fun _ => rfl) (fun _ hd => .inl hd)
          (fun hd => .inl hd) fun _ ha => .inl ha
    next => cases hs
  next =>
    cases hs
    exact h.quiet hrun hstep rfl rfl rfl rfl (fun _ => rfl) (fun _ hd => .inl hd)
      (fun hd => .inl hd) fun _ ha => .inl ha
  next => cases hs

theorem receivedBy_of_ne (ha : S.answer ≠ .receiving) : receivedBy S (.answer n) = none := by
  unfold receivedBy
  dsimp only
  rw [if_neg fun h => ha h.1]

/-- The child sends a byte of the file. -/
theorem Delivers.answer_sending {b : Byte} {left : List Byte} (h : Delivers x moves S)
    (hflow : Flow x S) (hrun : x.net.run moves = .ok S) (ha : S.answer = .sending (b :: left))
    (hs : x.answerStep S n = some S') : Delivers x (moves ++ [.answer n]) S' := by
  have hstep : x.net.step S (.answer n) = .ok S' := net_step_eq_ok.mpr hs
  have hopen := hflow.open_of_sending ha
  have hno := hflow.not_receives_of_sending ha
  unfold Exchange.answerStep at hs
  rw [ha] at hs
  dsimp only at hs
  rw [if_neg (by rw [hopen]; simp)] at hs
  split at hs
  next =>
    cases hs
    have hsame : x.fetched (moves ++ [.answer n]) = x.fetched moves := by
      rw [fetched_append hrun hstep]
      exact List.append_nil _
    refine ⟨fun hd => ?_, fun _ hc => absurd hc (hflow.not_done_of_sending ha), fun hd => ?_,
      h.entered, fun hm => absurd hm hno, fun hm => absurd hm hno⟩
    · have hbytes := h.fetched hd
      rw [ha] at hbytes
      rw [hsame, ← hbytes]
      show _ ++ (S.data ++ [b] ++ left) = _
      rw [List.append_assoc, List.singleton_append]
      rfl
    · rw [hsame]
      exact h.refused hd
  next => cases hs

/-- It reads the file the client sends, up to its end. -/
theorem Delivers.answer_receiving (h : Delivers x moves S) (hflow : Flow x S)
    (hrun : x.net.run moves = .ok S) (ha : S.answer = .receiving)
    (hs : x.answerStep S n = some S') : Delivers x (moves ++ [.answer n]) S' := by
  have hstep : x.net.step S (.answer n) = .ok S' := net_step_eq_ok.mpr hs
  have hm := hflow.receiving ha
  have hnot : ¬ x.Downloads := fun hd => hd.not_receives hm
  unfold Exchange.answerStep at hs
  rw [ha] at hs
  dsimp only at hs
  split at hs
  next harrived =>
    cases hs
    have hmore : x.received (moves ++ [.answer n]) = x.received moves ++ [S.data.take n] := by
      rw [received_append hrun hstep]
      unfold receivedBy
      dsimp only
      rw [if_pos ⟨ha, harrived⟩]
      rfl
    have hsame : x.fetched (moves ++ [.answer n]) = x.fetched moves := by
      rw [fetched_append hrun hstep]
      exact List.append_nil _
    refine ⟨fun hd => absurd hd hnot, fun hd => absurd hd hnot, fun hd => ?_, h.entered,
      fun _ => ?_, fun _ hearly => absurd ?_ hearly⟩
    · rw [hsame]
      exact h.refused hd
    · rw [hmore, List.flatten_append, List.flatten_singleton, ← h.received hm, List.append_assoc]
      show _ ++ (S.data.take n ++ (S.data.drop n ++ _)) = _
      rw [← List.append_assoc (S.data.take n), List.take_append_drop]
    · trivial
  next harrived =>
    split at hs
    next hend =>
      cases hs
      refine h.quiet hrun hstep rfl ?_ rfl (by rw [ha]; rfl) (fun _ => rfl) (fun _ hd => .inl hd)
        (fun hd => .inl hd) fun _ _ => .inr hend.2
      unfold receivedBy
      dsimp only
      rw [if_neg fun h => harrived h.2]
    next => cases hs

/-- A move of the one that answers. -/
theorem Delivers.answer (h : Delivers x moves S) (hflow : Flow x S)
    (hrun : x.net.run moves = .ok S) (hs : x.answerStep S n = some S') :
    Delivers x (moves ++ [.answer n]) S' := by
  have hstep : x.net.step S (.answer n) = .ok S' := net_step_eq_ok.mpr hs
  have hall := hs
  unfold Exchange.answerStep at hs
  split at hs
  next => cases hs
  next ha =>
    cases hs
    refine h.quiet hrun hstep rfl (receivedBy_of_ne (by rw [ha]; simp)) rfl ?_ (fun _ => rfl)
      (fun _ hd => .inl hd) (fun hd => .inl hd) fun hm hearly => absurd ?_ hearly
    · rw [ha]
      show x.script.toSend x.script.transfer = x.script.middle.bytes
      unfold Script.transfer
      cases x.script.middle with
      | sends bytes => rfl
      | receives => rfl
    · show x.script.transfer.Early
      rw [Script.transfer, hm]
      trivial
  next b left ha =>
    split at hs
    next =>
      cases hs
      exact h.quiet hrun hstep rfl (receivedBy_of_ne (by rw [ha]; simp)) rfl (by rw [ha]; rfl)
        (fun _ => rfl) (fun _ hd => .inl hd) (fun hd => .inl hd)
        fun _ hearly => absurd trivial hearly
    next => cases hs
  next ha =>
    cases hs
    exact h.quiet hrun hstep rfl (receivedBy_of_ne (by rw [ha]; simp)) rfl (by rw [ha]; rfl)
      (fun _ => rfl) (fun _ hd => .inl hd) (fun hd => .inl hd)
      fun _ _ => .inl (by rw [ha]; exact id)
  next b left ha => exact h.answer_sending hflow hrun ha hall
  next ha => exact h.answer_receiving hflow hrun ha hall
  next ha =>
    cases hs
    exact h.quiet hrun hstep rfl (receivedBy_of_ne (by rw [ha]; simp)) rfl (by rw [ha]; rfl)
      (fun _ => rfl) (fun _ hd => .inl hd) (fun hd => .inl hd)
      fun _ _ => .inl (by rw [ha]; exact id)
  next b left ha =>
    split at hs
    next =>
      cases hs
      exact h.quiet hrun hstep rfl (receivedBy_of_ne (by rw [ha]; simp)) rfl (by rw [ha]; rfl)
        (fun _ => rfl) (fun _ hd => .inl hd) (fun hd => .inl hd)
        fun _ _ => .inl (by rw [ha]; exact id)
    next => cases hs
  next => cases hs

/-- Every byte is accounted for throughout a run. -/
theorem delivers_along (hfits : x.Fits) (hread : x.net.Meets ReadsLines moves)
    (hrun : x.net.run moves = .ok S) : Delivers x moves S := by
  have hboth : (x.net.Meets ReadsLines moves ∧ x.net.run moves = .ok S) ∧ Delivers x moves S := by
    refine Machine.run_invariant_of_meets (C := ReadsLines)
      (I := fun moves S => (x.net.Meets ReadsLines moves ∧ x.net.run moves = .ok S) ∧
        Delivers x moves S) ⟨⟨trivial, rfl⟩, delivers_start x⟩ ?_ moves S hread hrun
    rintro moves S m S' ⟨⟨hread, hrun⟩, h⟩ hm hs
    refine ⟨⟨(Machine.meets_concat hrun).mpr ⟨hread, hm⟩, Machine.run_append_step hrun hs⟩, ?_⟩
    have hflow := flow_of_run hread hrun
    have hmove := net_step_eq_ok.mp hs
    cases m with
    | client n => exact h.client hflow hfits hrun hm hmove
    | parent n => exact h.parent hflow hrun hmove
    | answer n => exact h.answer hflow hrun hmove
  exact hboth.2

/-- Where nobody can go on everything has been delivered. -/
theorem delivered (hfits : x.Fits) (hread : x.net.Meets ReadsLines moves)
    (hrun : x.net.run moves = .ok S) (hstuck : ¬ x.Enabled S) : S.Finished ∧
      (x.Downloads → (x.fetched moves).flatten = x.script.middle.bytes) ∧
      (¬ x.Downloads → x.fetched moves = []) ∧
      (x.script.middle = .receives → (x.received moves).flatten = x.action.content) := by
  have hflow := flow_of_run hread hrun
  have hfinished := (hflow.progress hfits).resolve_right hstuck
  have h := delivers_along hfits hread hrun
  refine ⟨hfinished, fun hd => ?_, h.refused, fun hm => ?_⟩
  · have hbytes := h.fetched hd
    rw [h.emptied hd hfinished.1, hfinished.2.2] at hbytes
    simpa [Script.toSend] using hbytes
  · have hbytes := h.received hm
    rw [h.drained hm (by rw [hfinished.2.2]; exact id), hfinished.1] at hbytes
    simpa [Action.unsent] using hbytes

end

/-- **A transfer delivers.** Where no read of the control connection goes behind a newline, an
exchange that fits comes to its end, whatever the order of the moves and however the reads of the
data connection divide the bytes: no run is longer than its `cost`, and where nobody can go on
everyone is done. Then what the client has read off the data connection is what the child sent,
if the exchange got as far as that, and else nothing; and what a child that reads has read is the
file of the client. -/
theorem delivers_of_run (x : Exchange) (hfits : x.Fits) (moves : List Move) (S : Net)
    (hread : x.net.Meets ReadsLines moves) (hrun : x.net.run moves = .ok S) :
    moves.length ≤ x.cost x.start ∧ (¬ x.Enabled S → S.Finished ∧
      (x.Downloads → (x.fetched moves).flatten = x.script.middle.bytes) ∧
      (¬ x.Downloads → x.fetched moves = []) ∧
      (x.script.middle = .receives → (x.received moves).flatten = x.action.content)) :=
  ⟨by have := length_add_cost_le hrun; omega, delivered hfits hread hrun⟩

/-- A `get` of a file that holds `content`, with a name that `RETR` is given. -/
def fetching (content : List Byte) : Exchange :=
  { twoBytes with
    answer := .forked (fun _ _ => []) (.fine []) ⟨lit "RETR", [lit "pub"]⟩ (sending content)
      [srv, ftp] (lit "pub")
    dataRoom := 2
    data_pos := Nat.two_pos }

/-- A run of it: the request, both replies with the data between them, and the data. -/
def fetchingMoves (size : Nat) (reads : List Nat) : List Move :=
  List.replicate 11 (.client 0) ++ [.parent 10] ++ List.replicate (44 + size) (.answer 0) ++
    [.client 42, .parent 0] ++ List.replicate 25 (.answer 0) ++ [.client 24] ++
    reads.map .client ++ [.client 0]

/-- Two bytes are read one by one. -/
theorem delivers_of_run_two : ∃ S,
    (fetching (lit "ab")).net.run (fetchingMoves 2 [1, 1]) = .ok S ∧ S.Finished ∧
      ((fetching (lit "ab")).fetched (fetchingMoves 2 [1, 1])).flatten = lit "ab" := by
  have hfits : (fetching (lit "ab")).Fits := fun _ =>
    (by decide +kernel : (fetching (lit "ab")).script.middle.bytes.length ≤ 2)
  have hread : (fetching (lit "ab")).net.Meets ReadsLines (fetchingMoves 2 [1, 1]) := by
    decide +kernel
  obtain ⟨S, hrun, hstuck⟩ : ∃ S, (fetching (lit "ab")).net.run (fetchingMoves 2 [1, 1]) = .ok S ∧
      ¬ (fetching (lit "ab")).Enabled S := Machine.exists_of_run (by decide +kernel)
  obtain ⟨hfinished, hfetched, -, -⟩ :=
    (delivers_of_run (fetching (lit "ab")) hfits _ S hread hrun).2 hstuck
  have hdownloads : (fetching (lit "ab")).Downloads := ⟨.inl rfl, by decide, by decide⟩
  exact ⟨S, hrun, hfinished, (hfetched hdownloads).trans (by decide +kernel)⟩

/-! ## What is kept of it -/

/-- The outcomes of the calls in `get_result`. `flushed` is how much has been written when the
file cannot be closed. -/
structure GetAnswers where
  fdopen : Bool
  fopen : Bool
  fwrite : Nat → Nat → Nat
  flushed : Nat
  fclose : Bool

/-- `get_result` on a data connection that brings these reads: what the local file then holds,
or nothing where it could not be opened. -/
def getResult (fuel : Nat) (gans : GetAnswers) (reads : List (List Byte)) :
    Option (Option (List Byte)) :=
  if gans.fopen = false then some none
  -- `fopen` has emptied the file
  else if gans.fdopen = false then some (some [])
  else
    (copyLoop gans.fwrite fuel 0 (Stream.fresh reads)).map fun written =>
      some (if gans.fclose then written else written.take gans.flushed)

/-- `getline` and `printf` until `getline` has nothing more to take. -/
def printLoop : Nat → Stream → Option (List Byte)
  | 0, _ => none
  | fuel + 1, s =>
    let line := s.getline.1
    if line = [] then some [] else (printLoop fuel s.getline.2).map (cstr line ++ ·)

/-- `list_result`: what it prints. -/
def listResult (fuel : Nat) (fdopen : Bool) (reads : List (List Byte)) : Option (List Byte) :=
  if fdopen = false then some [] else printLoop fuel (Stream.fresh reads)

/-- Nothing fails in `get_result`. -/
structure GetAnswers.Fine (gans : GetAnswers) : Prop where
  fdopen : gans.fdopen = true
  fopen : gans.fopen = true
  fwrite : ∀ i n, gans.fwrite i n = n
  fclose : gans.fclose = true

/-- `get_result` keeps what it reads. -/
theorem getResult_eq {gans : GetAnswers} (h : gans.Fine) {fuel : Nat} {reads : List (List Byte)}
    (hfuel : reads.flatten.length < fuel) : getResult fuel gans reads =
      some (some reads.flatten) := by
  have hcopy := copyLoop_complete h.fwrite 0 (Stream.fresh reads)
    (by rw [Stream.remaining_fresh]; exact hfuel)
  rw [Stream.remaining_fresh] at hcopy
  rw [getResult, h.fopen, h.fdopen, if_neg (by simp), if_neg (by simp), hcopy, h.fclose]
  rfl

/-- The loop ends, and what it prints does not depend on the reads. -/
theorem printLoop_eq {n : Nat} (hn : 0 < n) (fuel : Nat) : ∀ s : Stream,
    s.remaining.length < fuel → s.remaining.length ≤ n →
      printLoop fuel s = some ((chunks n s.remaining).map cstr).flatten := by
  induction fuel with
  | zero => exact fun s h => absurd h (Nat.not_lt_zero _)
  | succ fuel ih =>
    intro s hfuel hroom
    obtain ⟨hline, hrest⟩ := s.getline_eq hroom
    rw [printLoop, hline]
    by_cases hnil : s.remaining = []
    · rw [if_pos ((takeLine_fst_eq_nil hn).mpr hnil), hnil]
      rfl
    · have hlt := takeLine_length_lt hn hnil
      rw [if_neg (mt (takeLine_fst_eq_nil hn).mp hnil), ih s.getline.2 (by rw [hrest]; omega)
        (by rw [hrest]; omega), hrest, chunks_of_ne_nil hn hnil]
      rfl

/-- `list_result` prints what it reads if and only if there is no NUL in it. -/
theorem listResult_iff {fuel : Nat} {reads : List (List Byte)}
    (hfuel : reads.flatten.length < fuel) : ∃ shown, listResult fuel true reads = some shown ∧
      (shown = reads.flatten ↔ NulFree reads.flatten) := by
  have hpos : 0 < reads.flatten.length + 1 := Nat.succ_pos _
  have hwhole := flatten_chunks hpos reads.flatten
  refine ⟨_, printLoop_eq hpos fuel (Stream.fresh reads) ?_ ?_, ?_⟩
  · rw [Stream.remaining_fresh]
    exact hfuel
  · rw [Stream.remaining_fresh]
    exact Nat.le_succ _
  · rw [Stream.remaining_fresh]
    have hiff : ((chunks (reads.flatten.length + 1) reads.flatten).map cstr).flatten =
        (chunks (reads.flatten.length + 1) reads.flatten).flatten ↔
          NulFree (chunks (reads.flatten.length + 1) reads.flatten).flatten :=
      flatten_cstr_eq_iff
    rwa [hwhole] at hiff

/-- No more is sent for a file than it holds. -/
theorem length_sentBytes_printed_le (p : Path) (content : List Byte) :
    (sentBytes (printed (some (.regular p content)))).length ≤ content.length := by
  have hwhole : (chunks 1023 content).flatten = content := flatten_chunks (by omega) content
  have hle := length_flatten_cstr_le (chunks 1023 content)
  rw [printed, sentBytes, List.flatMap_map, List.flatMap_def]
  rwa [hwhole] at hle

/-- The client of a child that opened the file gets as far as the data. -/
theorem downloads_of_openRead {x : Exchange} {ls : Path → FileTree → List Byte}
    {cans : ChildAnswers} {command : Command} {s : Ctx} {W p : Path} {path : CStr}
    {content : List Byte} (haction : x.action = .get true)
    (hanswer : x.answer = .forked ls cans command s W path)
    (hopen : s.os.tree.openRead (s.wdFrom W) path = some (.regular p content)) :
    x.Downloads ∧ x.script.middle.bytes = sentBytes (printed (some (.regular p content))) := by
  have hscript : x.script =
      ⟨some .openingBinary, .sends (sentBytes (printed (some (.regular p content)))),
        .transferComplete⟩ := by
    rw [Exchange.script, hanswer]
    dsimp only
    rw [haction]
    show retrScript s W path = _
    rw [retrScript, hopen]
  refine ⟨⟨.inl haction, by rw [hscript]; nofun, ?_⟩, by rw [hscript]; rfl⟩
  rw [hscript]
  exact (by decide : hasCode (cstr Reply.transferComplete.text) "226" = true)

/-- **Downloads.** The child of the `RETR` opens a file, the exchange fits, no read of the control
connection goes behind a newline and nothing fails in `get_result`. When the exchange is over,
which it is wherever nobody can go on, the loop of `get_result` ends with what the client has
read, and the local file is the server's if and only if that holds no NUL. -/
theorem get_exact_iff (x : Exchange) (ls : Path → FileTree → List Byte) (cans : ChildAnswers)
    (command : Command) (s : Ctx) (W p : Path) (path : CStr) (content : List Byte)
    (haction : x.action = .get true) (hanswer : x.answer = .forked ls cans command s W path)
    (hopen : s.os.tree.openRead (s.wdFrom W) path = some (.regular p content)) (hfits : x.Fits)
    (moves : List Move) (S : Net) (hread : x.net.Meets ReadsLines moves)
    (hrun : x.net.run moves = .ok S) (hstuck : ¬ x.Enabled S) (gans : GetAnswers)
    (hfine : gans.Fine) (fuel : Nat) (hfuel : content.length < fuel) :
    S.Finished ∧ ∃ got, getResult fuel gans (x.fetched moves) = some (some got) ∧
      (got = content ↔ NulFree content) := by
  obtain ⟨hfinished, hfetched, -, -⟩ := delivered hfits hread hrun hstuck
  obtain ⟨hdownloads, hbytes⟩ := downloads_of_openRead haction hanswer hopen
  have hall := (hfetched hdownloads).trans hbytes
  have hlength : (x.fetched moves).flatten.length ≤ content.length := by
    rw [hall]
    exact length_sentBytes_printed_le p content
  refine ⟨hfinished, _, getResult_eq hfine (by omega), ?_⟩
  rw [hall]
  exact sentBytes_printed_iff p content

/-- The file holds a line and the beginning of another one, and arrives as one read. -/
theorem get_exact_iff_lines : ∃ S,
    (fetching (lit "a\n")).net.run (fetchingMoves 2 [2]) = .ok S ∧ S.Finished ∧
      ∃ got, getResult 5 ⟨true, true, fun _ n => n, 0, true⟩
          ((fetching (lit "a\n")).fetched (fetchingMoves 2 [2])) = some (some got) ∧
        got = lit "a\n" := by
  have hfits : (fetching (lit "a\n")).Fits := fun _ =>
    (by decide +kernel : (fetching (lit "a\n")).script.middle.bytes.length ≤ 2)
  have hread : (fetching (lit "a\n")).net.Meets ReadsLines (fetchingMoves 2 [2]) := by
    decide +kernel
  obtain ⟨S, hrun, hstuck⟩ : ∃ S, (fetching (lit "a\n")).net.run (fetchingMoves 2 [2]) = .ok S ∧
      ¬ (fetching (lit "a\n")).Enabled S := Machine.exists_of_run (by decide +kernel)
  obtain ⟨hfinished, got, hgot, hiff⟩ := get_exact_iff (fetching (lit "a\n")) _ _ _ _ _
    [srv, ftp, pub] _ (lit "a\n") rfl rfl (by decide +kernel) hfits _ S hread hrun hstuck
    ⟨true, true, fun _ n => n, 0, true⟩ ⟨rfl, rfl, fun _ _ => rfl, rfl⟩ 5 (by decide)
  exact ⟨S, hrun, hfinished, got, hgot, hiff.mpr (by decide)⟩

end MyFtp.Wire
