import Mathlib.Algebra.Order.BigOperators.Group.Finset
import MyFtp.Server.Stalls

/-!
# A server that does not wait

The clients can see to it that the server never waits for them: by sending whole lines, and
by connecting to a passive data socket before they ask for the transfer. `Prompt` says so of
each call of `poll`, of the clients it reports. In the pass that follows nobody takes this
from them: not the clients served before them, not the children, and not those that hang up.

> `never_stalls_of_run`: where every call of `poll` is like that, the server never waits
> outside of it. Each line is there before it is read and each data connection before it is
> accepted, and a pass comes to its end after a bounded number of steps.
-/

namespace MyFtp.Server

open MyFtp.Posix
open Prog

/-! ## What a turn needs -/

/-- A turn of the client does not wait: it has sent a whole line, or it is gone. -/
def Loop.HasTurn (w : Loop) (c : Client) : Prop :=
  newline ∈ c.buffer ++ w.received c.id ∨ w.world.os.hungup c.id = true

instance (w : Loop) (c : Client) : Decidable (w.HasTurn c) :=
  inferInstanceAs (Decidable (_ ∨ _))

/-- How many connections wait at the descriptor. -/
def pendingAt (desc : DescTable) (l : Fd) : Nat :=
  match desc l with
  | some (.listener n) => n
  | _ => 0

/-- The client has connected to its data socket, if that is for the client to do. -/
def Loop.DataWaits (w : Loop) (c : Client) : Prop :=
  ∀ d ∈ c.connection.dataSocket, d.dataSocketMode = .passive → ∀ l ∈ d.dataSockfd,
    0 < pendingAt w.world.os.desc l

instance (w : Loop) (c : Client) : Decidable (w.DataWaits c) :=
  inferInstanceAs (Decidable (∀ d ∈ c.connection.dataSocket, d.dataSocketMode = .passive →
    ∀ l ∈ d.dataSockfd, 0 < pendingAt w.world.os.desc l))

/-- The line is a `LIST`, a `RETR` or a `STOR`. -/
def AsksTransfer (line : CStr) : Prop := ∃ command ∈ commandOf line, bodyOf command.word ≠ none

instance (line : CStr) : Decidable (AsksTransfer line) :=
  inferInstanceAs (Decidable (∃ command ∈ commandOf line, bodyOf command.word ≠ none))

/-- The first line of the text asks for a transfer, or would if the text broke off in it. -/
def BeginsTransfer (text : List Byte) : Prop :=
  ∃ bytes ∈ text.inits, newline ∉ bytes.dropLast ∧ ∃ line ∈ readSocket bytes, AsksTransfer line

instance (text : List Byte) : Decidable (BeginsTransfer text) :=
  inferInstanceAs (Decidable (∃ bytes ∈ text.inits,
    newline ∉ bytes.dropLast ∧ ∃ line ∈ readSocket bytes, AsksTransfer line))

/-- What the turn of a client needs that has taken so much of its line already. -/
def Loop.CanServe (w : Loop) (c : Client) (taken : List Byte) : Prop :=
  w.HasTurn c ∧ (BeginsTransfer (taken ++ (c.buffer ++ w.received c.id)) → w.DataWaits c)

instance (w : Loop) (c : Client) (taken : List Byte) : Decidable (w.CanServe c taken) :=
  inferInstanceAs (Decidable (_ ∧ (_ → _)))

/-- `poll` reports only clients whose turn needs nothing more. -/
def Prompt (w : Loop) : LoopEvent → Prop
  | .server calls => w.phase = .polling → w.stopServer = false → ∀ ready ∈ calls.poll,
      ∀ i, ∀ c ∈ w.connections i, ready i = true → w.CanServe c []
  | _ => True

instance (w : Loop) : ∀ e, Decidable (Prompt w e)
  -- over the outcome of `poll`, not over everything it might have been
  | .server _ => @forall_prop_decidable _ _ inferInstance fun _ =>
      @forall_prop_decidable _ _ inferInstance fun _ => Option.decidableForallMem _
  | .arrive .. | .hangup .. | .dataConnect _ | .child .. | .signal => .isTrue trivial

/-- The slot whose client is being served. -/
def Phase.slot : Phase → Option SlotIndex
  | .reading i _ | .executing i _ => some i
  | _ => none

/-- A client's slot whose turn in this pass is still to come, from `k` on. -/
def Loop.Due (w : Loop) (k : Nat) (i : SlotIndex) : Prop :=
  i ≠ 0 ∧ k ≤ i.val ∧ (w.fds i).fd ≠ none ∧ (w.fds i).revents = true

instance (w : Loop) (k : Nat) (i : SlotIndex) : Decidable (w.Due k i) :=
  inferInstanceAs (Decidable (_ ∧ _ ∧ _ ∧ _))

/-- How many reads the next line of the slot takes at most: one for each byte of it that is
there, and one more if the buffer is empty. -/
def Loop.reads (w : Loop) (i : SlotIndex) : Nat :=
  match w.connections i with
  | none => 0
  | some c => (c.buffer ++ w.received c.id).idxOf newline + if c.buffer = [] then 1 else 0

/-- The steps that the turns from `k` on take at most. -/
def Loop.turnsLeft (w : Loop) (k : Nat) : Nat := ∑ i with w.Due k i, (w.reads i + 3)

/-- The steps that are left of a pass at most. -/
def Loop.passLeft (w : Loop) : Nat :=
  match w.phase with
  | .accepting => w.turnsLeft 1 + 1
  | .serving k => w.turnsLeft k
  | .reading i _ => w.turnsLeft (i.val + 1) + (w.reads i + 2)
  | .executing i _ => w.turnsLeft (i.val + 1) + 1
  | _ => 0

/-- The server goes on. -/
def LoopEvent.isServer : LoopEvent → Bool
  | .server _ => true
  | _ => false

theorem isServer_of_ne {e : LoopEvent} (h : ∀ calls, e ≠ .server calls) : e.isServer = false := by
  cases e with
  | server calls => exact absurd rfl (h calls)
  | _ => rfl

/-- Nobody holds the server up who is to have a turn in this pass, who has it, or whose line is
handled. -/
structure Supplied (w : Loop) : Prop where
  due : ∀ i c, w.connections i = some c → w.Due w.phase.from i → w.CanServe c []
  reading : ∀ i taken c, w.phase = .reading i taken → w.connections i = some c →
    newline ∉ taken ∧ w.CanServe c taken
  executing : ∀ i line c, w.phase = .executing i (some line) → w.connections i = some c →
    AsksTransfer line → w.DataWaits c

/-! ## The beginning of a text -/

section

variable {text more : List Byte}

/-- What a beginning of the text asks for, the text asks for. -/
theorem BeginsTransfer.mono (h : BeginsTransfer text) (hle : text <+: more) :
    BeginsTransfer more := by
  obtain ⟨bytes, hbytes, hrest⟩ := h
  exact ⟨bytes, (List.mem_inits _ _).mpr (((List.mem_inits _ _).mp hbytes).trans hle), hrest⟩

/-- What comes behind the first line makes no difference. -/
theorem BeginsTransfer.of_append (h : BeginsTransfer (text ++ more)) (hline : newline ∈ text) :
    BeginsTransfer text := by
  obtain ⟨bytes, hbytes, hfirst, hrest⟩ := h
  refine ⟨bytes, (List.mem_inits _ _).mpr ?_, hfirst, hrest⟩
  have hprefix : bytes <+: text ++ more := (List.mem_inits _ _).mp hbytes
  by_cases hshort : bytes.length ≤ text.length
  · exact List.prefix_of_prefix_length_le hprefix (List.prefix_append _ _) hshort
  · -- a longer one has the newline before its last byte
    have hwithin : text <+: bytes.dropLast :=
      List.prefix_of_prefix_length_le (List.prefix_append _ _)
        ((List.dropLast_prefix _).trans hprefix) (by rw [List.length_dropLast]; omega)
    exact absurd (hwithin.subset hline) hfirst

end

section

variable {u : Settings} {w w' : Loop} {events : List LoopEvent} {e : LoopEvent} {calls : Calls}
  {i : SlotIndex} {c : Client} {k k' : Nat} {taken : List Byte}

/-- The line that a turn of `getline` completes is a beginning of the text. -/
theorem begins_of_line {bytes rest buffer waiting : List Byte} {ended : Bool} {line : CStr}
    (hturn : getlineTurn u.bufsiz taken buffer waiting ended = .line bytes rest)
    (htaken : newline ∉ taken) (hread : readSocket bytes = some line) (hasks : AsksTransfer line) :
    BeginsTransfer (taken ++ (buffer ++ waiting)) := by
  obtain ⟨text, htext, rfl, rfl⟩ := getlineTurn_eq_line hturn
  refine ⟨_, (List.mem_inits _ _).mpr ?_, ?_, line, hread, hasks⟩
  · exact ⟨rest ++ waiting, by simp⟩
  · rw [List.dropLast_concat, List.mem_append, not_or]
    exact ⟨htaken, htext⟩

/-- So is what is left of it at the end of the stream. -/
theorem begins_of_ended {bytes buffer waiting : List Byte} {ended : Bool} {line : CStr}
    (hturn : getlineTurn u.bufsiz taken buffer waiting ended = .ended bytes)
    (htaken : newline ∉ taken) (hread : readSocket bytes = some line) (hasks : AsksTransfer line) :
    BeginsTransfer (taken ++ (buffer ++ waiting)) := by
  obtain ⟨-, hbuffer, rfl⟩ := getlineTurn_eq_ended hturn
  refine ⟨_, (List.mem_inits _ _).mpr ?_, fun hmem => ?_, line, hread, hasks⟩
  · exact ⟨waiting, by simp⟩
  · rcases List.mem_append.mp (List.mem_of_mem_dropLast hmem) with hmem | hmem
    · exact htaken hmem
    · exact hbuffer hmem

/-! ## What waits at a data socket -/

/-- No step takes a connection away that waits at a client's data socket, but a line of that
client. -/
theorem pending_kept {S S' : Sessions} {e : SessionEvent} {id : ConnId} {c : Connection} {l : Fd}
    (hS : Sound u.toSetup S) (hc : S.conns id = some c) (hl : l ∈ c.dataFds)
    (hother : ∀ line ans, e ≠ .line id line ans) (h : S.step u.server e = .ok S') :
    pendingAt S.world.os.desc l ≤ pendingAt S'.world.os.desc l := by
  have hopen : S.world.os.desc l ≠ none := (hS.owns id c hc).isOpen (.inr hl)
  have hsame : ∀ {desc : DescTable}, desc l = S.world.os.desc l →
      pendingAt S.world.os.desc l ≤ pendingAt desc l := fun hdesc => by
    unfold pendingAt
    rw [hdesc]
  cases e with
  | accept fd addr served =>
    obtain ⟨⟨connection, world⟩, hworld, rfl⟩ := map_eq_ok h
    obtain ⟨hfree, -, rfl⟩ := World.accept_eq_ok hworld
    -- the new descriptor was free, so it is not the data socket
    refine hsame (Function.update_of_ne ?_ ..)
    rintro rfl
    exact hopen hfree
  | line id' line ans =>
    have hne : id ≠ id' := by
      rintro rfl
      exact hother line ans rfl
    exact hsame ((others_of_handleLine hS hne hc h).2.2.2 l (.inr hl))
  | child n cans =>
    obtain ⟨world, hworld, rfl⟩ := map_eq_ok h
    obtain ⟨-, -, -, -, -, rfl⟩ := World.runChild_eq_ok hworld
    exact hsame rfl
  | hangup id' =>
    cases h
    exact hsame rfl
  | dataConnect fd =>
    obtain ⟨world, hworld, rfl⟩ := map_eq_ok h
    obtain ⟨pending, hfd, rfl⟩ := World.dataConnect_eq_ok hworld
    by_cases hlfd : l = fd
    · unfold pendingAt
      dsimp only
      rw [hlfd, hfd, Function.update_self]
      exact Nat.le_succ _
    · exact hsame (Function.update_of_ne hlfd ..)

/-- A line that is handled is that of the client whose turn it is. -/
theorem sessionEvent_line {id : ConnId} {line : CStr} {ans : Answers}
    (hpass : w.phase.inPass = true) (h : sessionEvent w e = some (.line id line ans)) :
    ∃ calls i c, e = .server calls ∧ w.phase = .executing i (some line) ∧
      w.connections i = some c ∧ c.id = id := by
  cases e with
  | server calls =>
    unfold sessionEvent at h
    dsimp only at h
    split at h
    next =>
      split at h
      next =>
        obtain ⟨_, -, hline⟩ := Option.map_eq_some_iff.mp h
        cases hline
      next => cases h
    next i line' hphase =>
      obtain ⟨c, hc, hline⟩ := Option.map_eq_some_iff.mp h
      cases hline
      exact ⟨calls, i, c, rfl, hphase, hc, rfl⟩
    next k hphase =>
      rw [hphase] at hpass
      cases hpass
    next => cases h
  | arrive id' bytes => cases h
  | signal => cases h
  | _ =>
    unfold sessionEvent at h
    dsimp only at h
    split at h <;> cases h

/-- In a pass the loop does not stop. -/
theorem not_stopped_of_inPass (hpass : w.phase.inPass = true) (hstep : w.step u e = .ok w') :
    w'.phase ≠ .stopped := by
  by_cases hpass' : w'.phase.inPass = true
  · intro hphase
    rw [hphase] at hpass'
    cases hpass'
  · obtain ⟨_, _, _, _, _, hphase⟩ := pass_ends hpass hstep (by simpa using hpass')
    rw [hphase]
    simp

/-- In a pass a client keeps the connections that wait for it until its own line is handled. -/
theorem Loop.DataWaits.step (h : w.DataWaits c) (hrun : (loop u).run events = .ok w)
    (hopens : (loop u).Meets StreamOpens events) (hopen : StreamOpens w e)
    (hpass : w.phase.inPass = true) (hstep : w.step u e = .ok w') (hc : w.connections i = some c)
    (hother : ∀ calls line, e = .server calls → w.phase ≠ .executing i (some line)) :
    w'.DataWaits c := by
  obtain ⟨S, hS, hT⟩ := tracks_of_run hrun hopens
  have hworld : S.world = w.world := hT.world fun hphase => by
    rw [hphase] at hpass
    cases hpass
  have hfollowed := hT.step ⟨_, hS⟩ hopen hstep
  intro d hd hmode l hl
  have hbefore : 0 < pendingAt S.world.os.desc l := by
    rw [hworld]
    exact h d hd hmode l hl
  cases hevent : sessionEvent w e with
  | none =>
    rw [hevent] at hfollowed
    have hT' : Tracks u w' S := hfollowed
    rwa [hT'.world (not_stopped_of_inPass hpass hstep)] at hbefore
  | some e' =>
    rw [hevent] at hfollowed
    obtain ⟨S', hstep', hT'⟩ := hfollowed
    rw [← hT'.world (not_stopped_of_inPass hpass hstep)]
    refine Nat.lt_of_lt_of_le hbefore (pending_kept (sound_of_run hS) (hT.record i c hc)
      (mem_dataFds.mpr ⟨d, hd, .inl hl⟩) ?_ hstep')
    rintro line ans rfl
    obtain ⟨calls, j, c', hserver, hphase, hc', hid⟩ := sessionEvent_line hpass hevent
    obtain rfl := hT.apart j i c' c hc' hc hid
    exact hother calls line hserver hphase

/-! ### Somebody else does something -/

/-- Nothing more arrives from a client that is gone. -/
theorem received_gone {id : ConnId} (hserver : ∀ calls, e ≠ .server calls)
    (h : w.step u e = .ok w') (hgone : w'.world.os.hungup id = true) :
    w'.received id = w.received id ∨ w'.received id = [] := by
  cases e with
  | server calls => exact absurd rfl (hserver calls)
  | arrive id' bytes =>
    unfold Loop.step at h
    dsimp only at h
    split at h
    next => cases h
    next hup =>
      cases h
      have hid : id ≠ id' := by
        rintro rfl
        exact hup hgone
      exact .inl (Function.update_of_ne hid ..)
  | hangup id' reset =>
    cases h
    dsimp only
    split
    next =>
      by_cases hid : id = id'
      · rw [hid, Function.update_self]
        exact .inr rfl
      · exact .inl (Function.update_of_ne hid ..)
    next => exact .inl rfl
  | dataConnect fd =>
    obtain ⟨world, -, rfl⟩ := map_eq_ok h
    exact .inl rfl
  | child k cans =>
    obtain ⟨world, -, rfl⟩ := map_eq_ok h
    exact .inl rfl
  | signal =>
    cases h
    exact .inl rfl

/-- A client keeps its turn, which does not get longer. -/
theorem Loop.HasTurn.elsewhere (h : w.HasTurn c) (hserver : ∀ calls, e ≠ .server calls)
    (hstep : w.step u e = .ok w') :
    w'.HasTurn c ∧ (c.buffer ++ w'.received c.id).idxOf newline ≤
      (c.buffer ++ w.received c.id).idxOf newline := by
  by_cases hgone : w'.world.os.hungup c.id = true
  · refine ⟨.inr hgone, ?_⟩
    rcases received_gone hserver hstep hgone with hsame | hnone
    · rw [hsame]
    · rw [hnone, List.append_nil]
      by_cases hmem : newline ∈ c.buffer
      · rw [List.idxOf_append_of_mem hmem]
      · rw [List.idxOf_append_of_notMem hmem]
        exact Nat.le_trans List.idxOf_le_length (Nat.le_add_right _ _)
  · -- what has arrived since comes behind the line
    obtain ⟨hup, hmore⟩ := received_elsewhere hserver hstep (by simpa using hgone)
    have hline : newline ∈ c.buffer ++ w.received c.id := by
      rcases h with hline | hgone₀
      · exact hline
      · rw [hup] at hgone₀
        cases hgone₀
    rw [hmore, ← List.append_assoc]
    refine ⟨.inl ?_, ?_⟩
    · rw [hmore, ← List.append_assoc]
      exact List.mem_append_left _ hline
    · rw [List.idxOf_append_of_mem hline]

/-! ### The steps that are left -/

/-- Fewer turns, that take no longer. -/
theorem turnsLeft_le (hdue : ∀ i, w'.Due k' i → w.Due k i)
    (hreads : ∀ i, w'.Due k' i → w'.reads i ≤ w.reads i) : w'.turnsLeft k' ≤ w.turnsLeft k := by
  unfold Loop.turnsLeft
  calc ∑ i with w'.Due k' i, (w'.reads i + 3)
      ≤ ∑ i with w'.Due k' i, (w.reads i + 3) := Finset.sum_le_sum fun i hi =>
        Nat.add_le_add_right (hreads i (Finset.mem_filter.mp hi).2) 3
    _ ≤ ∑ i with w.Due k i, (w.reads i + 3) :=
        Finset.sum_le_sum_of_subset (Finset.monotone_filter_right _ fun i _ => hdue i)

/-- A turn that begins is one of those that were left. -/
theorem turnsLeft_enter (hnext : nextReady w.fds k = some i) :
    w.turnsLeft (i.val + 1) + (w.reads i + 3) ≤ w.turnsLeft k := by
  obtain ⟨hi, hk, hready⟩ := findSlot_eq_some hnext
  rw [Bool.and_eq_true, Option.isSome_iff_ne_none] at hready
  unfold Loop.turnsLeft
  have hnot : i ∉ Finset.univ.filter fun j => w.Due (i.val + 1) j := fun hmem =>
    absurd (Finset.mem_filter.mp hmem).2.2.1 (Nat.not_succ_le_self _)
  rw [Nat.add_comm, ← Finset.sum_insert (f := fun j => w.reads j + 3) hnot]
  refine Finset.sum_le_sum_of_subset fun j hj => ?_
  rcases Finset.mem_insert.mp hj with rfl | hj
  · exact Finset.mem_filter.mpr ⟨Finset.mem_univ _, hi, hk, hready⟩
  · obtain ⟨hj₀, hlt, hopen⟩ := (Finset.mem_filter.mp hj).2
    exact Finset.mem_filter.mpr ⟨Finset.mem_univ _, hj₀, by omega, hopen⟩

/-- A text that nobody adds to, or that has a line, asks for no more than before. -/
theorem Loop.CanServe.elsewhere (h : w.CanServe c taken) (hserver : ∀ calls, e ≠ .server calls)
    (hstep : w.step u e = .ok w') (hdata : w.DataWaits c → w'.DataWaits c) :
    w'.CanServe c taken := by
  refine ⟨(h.1.elsewhere hserver hstep).1, fun hbegins => hdata (h.2 ?_)⟩
  by_cases hgone : w'.world.os.hungup c.id = true
  · rcases received_gone hserver hstep hgone with hsame | hnone
    · rwa [hsame] at hbegins
    · refine hbegins.mono ?_
      rw [hnone, List.append_nil, ← List.append_assoc]
      exact List.prefix_append _ _
  · obtain ⟨hup, hmore⟩ := received_elsewhere hserver hstep (by simpa using hgone)
    rw [hmore, ← List.append_assoc c.buffer, ← List.append_assoc taken] at hbegins
    refine hbegins.of_append (List.mem_append_right _ ?_)
    rcases h.1 with hline | hgone₀
    · exact hline
    · rw [hup] at hgone₀
      cases hgone₀

/-! ### One step -/

/-- A step of the server, for a client whose entry and descriptor stay. -/
theorem Loop.CanServe.same (h : w.CanServe c taken) (hstep : w.server u calls = .ok w')
    (hreceived : w'.received c.id = w.received c.id) (hdata : w.DataWaits c → w'.DataWaits c) :
    w'.CanServe c taken := by
  unfold Loop.CanServe Loop.HasTurn
  rw [hreceived, hungup_server hstep]
  exact h.imp_right fun hbegins htext => hdata (hbegins htext)

/-- The descriptors stay as they are. -/
theorem due_congr (hfds : w'.fds = w.fds) (hk : k ≤ k') (h : w'.Due k' i) : w.Due k i := by
  obtain ⟨hi, hle, hopen, hready⟩ := h
  rw [hfds] at hopen hready
  exact ⟨hi, Nat.le_trans hk hle, hopen, hready⟩

/-- A client that is accepted has no turn in this pass. -/
theorem due_accepted {fd : Fd} (hrun : (loop u).run events = .ok w) (hphase : w.phase = .accepting)
    (hfree : (w.fds i).fd = none) {j : SlotIndex}
    (hfds : w'.fds = Function.update w.fds i { w.fds i with fd := some fd }) (h : w'.Due k j) :
    j ≠ i ∧ w.Due k j := by
  obtain ⟨hj, hle, hopen, hready⟩ := h
  rw [hfds] at hopen hready
  by_cases hij : j = i
  · obtain ⟨w₁, ready, -, hsince⟩ := sincePoll_of_run hrun (by rw [hphase]; rfl)
    rw [hij, Function.update_self, hsince.reported, ← hsince.unserved hphase i, hfree] at hready
    cases hready
  · rw [Function.update_of_ne hij] at hopen hready
    exact ⟨hij, hj, hle, hopen, hready⟩

/-- A client that quits leaves its slot behind. -/
theorem due_executed {stays : Bool} {j : SlotIndex}
    (hfds : w'.fds = if stays then w.fds else
      Function.update w.fds i { w.fds i with fd := none }) (h : w'.Due (i.val + 1) j) :
    j ≠ i ∧ w.Due (i.val + 1) j := by
  obtain ⟨hj, hle, hopen, hready⟩ := h
  have hij : j ≠ i := by
    rintro rfl
    exact absurd hle (Nat.not_succ_le_self _)
  rw [hfds] at hopen hready
  cases stays with
  | true => exact ⟨hij, hj, hle, hopen, hready⟩
  | false =>
    rw [if_neg (by simp), Function.update_of_ne hij] at hopen hready
    exact ⟨hij, hj, hle, hopen, hready⟩

/-- A turn that goes on needs what it needed, of what is left to read. -/
theorem Loop.CanServe.more {taken' buffer waiting : List Byte} {ended : Bool}
    (h : w.CanServe c taken) (hstep : w.server u calls = .ok w')
    (hturn : getlineTurn u.bufsiz taken c.buffer (w.received c.id) ended =
      .more taken' buffer waiting)
    (hreceived : w'.received c.id = waiting) (hdata : w.DataWaits c → w'.DataWaits c) :
    w'.CanServe { c with buffer } taken' := by
  obtain ⟨hline, htransfer⟩ := h
  obtain ⟨hbuffer, rfl, rfl, rfl⟩ := getlineTurn_eq_more hturn
  -- what the buffer did not have was still to be read
  have htext : (w.received c.id).take u.bufsiz ++ w'.received c.id = w.received c.id := by
    rw [hreceived, List.take_append_drop]
  refine ⟨?_, fun hbegins => hdata (htransfer ?_)⟩
  · rcases hline with hline | hgone
    · refine .inl ?_
      dsimp only
      rw [htext]
      exact (List.mem_append.mp hline).resolve_left hbuffer
    · refine .inr ?_
      rw [hungup_server hstep]
      exact hgone
  · dsimp only at hbegins
    rwa [htext, List.append_assoc] at hbegins

/-- Those behind the slot whose turn it is are supplied as before. -/
theorem Supplied.behind {j : SlotIndex} {entry : Option Client} (hS : Supplied w)
    (hphase : w.phase.slot = some j) (hstep : w.server u calls = .ok w')
    (hentry : w'.connections = Function.update w.connections j entry)
    (hdue : w'.Due (j.val + 1) i → w.Due (j.val + 1) i)
    (hreceived : ∀ d, i ≠ j → w.connections i = some d → w'.received d.id = w.received d.id)
    (hdata : ∀ d, i ≠ j → w.connections i = some d → w.DataWaits d → w'.DataWaits d)
    (hc : w'.connections i = some c) (h : w'.Due (j.val + 1) i) : w'.CanServe c [] := by
  have hij : i ≠ j := by
    rintro rfl
    exact absurd h.2.1 (Nat.not_succ_le_self _)
  rw [hentry, Function.update_of_ne hij] at hc
  have hfrom : w.phase.from = j.val + 1 := by
    cases hp : w.phase <;> rw [hp] at hphase <;> cases hphase <;> rfl
  exact (hS.due i c hc (by rw [hfrom]; exact hdue h)).same hstep (hreceived c hij hc)
    (hdata c hij hc)

/-- The server goes on in a pass. -/
theorem Supplied.server (hrun : (loop u).run events = .ok w)
    (hopens : (loop u).Meets StreamOpens events) (hopen : StreamOpens w (.server calls))
    (hS : w.phase.inPass = true → Supplied w) (hprompt : Prompt w (.server calls))
    (hstep : w.server u calls = .ok w') (hpass' : w'.phase.inPass = true) : Supplied w' := by
  have hkeep : ∀ {i : SlotIndex} {c : Client}, w.phase.inPass = true → w.connections i = some c →
      (∀ line, w.phase ≠ .executing i (some line)) → w.DataWaits c → w'.DataWaits c :=
    fun hpass hc hother h => h.step hrun hopens hopen hpass hstep hc fun _ line _ => hother line
  cases server_step hstep with
  | leave => cases hpass'
  | poll ready hphase hstop hpoll =>
    refine ⟨fun i c hc hdue => ?_, fun i taken c h => (by cases h), fun i line c h => (by cases h)⟩
    -- a slot is due if `poll` has just reported it
    obtain ⟨hi, -, hopened, hready⟩ := hdue
    have hready' : ((w.fds i).fd.isSome && ready i) = true := hready
    rw [Bool.and_eq_true] at hready'
    exact hprompt hphase hstop ready hpoll i c hc hready'.2
  | nobody hphase | full fd addr connection world hphase =>
    refine ⟨fun i c hc hdue => ?_, fun i taken c h => (by cases h), fun i line c h => (by cases h)⟩
    have hpass : w.phase.inPass = true := by rw [hphase]; rfl
    exact ((hS hpass).due i c hc (by rw [hphase]; exact hdue)).same hstep rfl
      (hkeep hpass hc (by rw [hphase]; simp))
  | accepted fd addr connection world j hphase hready haccept hworld hfree =>
    refine ⟨fun i c hc hdue => ?_, fun i taken c h => (by cases h), fun i line c h => (by cases h)⟩
    have hpass : w.phase.inPass = true := by rw [hphase]; rfl
    have hnone := Option.isNone_iff_eq_none.mp (findSlot_eq_some hfree).2.2
    obtain ⟨hij, hdue'⟩ := due_accepted hrun hphase hnone rfl hdue
    rcases update_entry hc with ⟨rfl, -⟩ | ⟨-, hold⟩
    · exact absurd rfl hij
    · exact ((hS hpass).due i c hold (by rw [hphase]; exact hdue')).same hstep rfl
        (hkeep hpass hold (by rw [hphase]; simp))
  | served => cases hpass'
  | enter k j hphase hnext =>
    have hpass : w.phase.inPass = true := by rw [hphase]; rfl
    obtain ⟨hj, hk, hready⟩ := findSlot_eq_some hnext
    rw [Bool.and_eq_true, Option.isSome_iff_ne_none] at hready
    refine ⟨fun i c hc hdue => ?_, fun i taken c h hc => ?_, fun i line c h => (by cases h)⟩
    · refine ((hS hpass).due i c hc ?_).same hstep rfl (hkeep hpass hc (by rw [hphase]; simp))
      rw [hphase]
      exact due_congr rfl (Nat.le_trans hk (Nat.le_succ _)) hdue
    · cases h
      refine ⟨List.not_mem_nil, ((hS hpass).due _ c hc ?_).same hstep rfl
        (hkeep hpass hc (by rw [hphase]; simp))⟩
      rw [hphase]
      exact ⟨hj, hk, hready⟩
  | line j taken bytes rest c₀ hphase hc₀ hturn =>
    have hpass : w.phase.inPass = true := by rw [hphase]; rfl
    refine ⟨fun i c hc hdue => ?_, fun i taken c h => (by cases h), fun i line c h hc hasks => ?_⟩
    · exact (hS hpass).behind (by rw [hphase]; rfl) hstep rfl id (fun _ _ _ => rfl)
        (fun d _ hd => hkeep hpass hd (by rw [hphase]; simp)) hc hdue
    · obtain ⟨rfl, hread⟩ := Phase.executing.inj h
      obtain rfl := entry_of_update hc
      obtain ⟨htaken, -, htransfer⟩ := (hS hpass).reading _ _ _ hphase hc₀
      have hwaits := hkeep hpass hc₀ (by rw [hphase]; simp)
        (htransfer (begins_of_line hturn htaken hread hasks))
      exact hwaits
  | more j taken taken' buffer waiting c₀ hphase hc₀ hturn =>
    have hpass : w.phase.inPass = true := by rw [hphase]; rfl
    refine ⟨fun i c hc hdue => ?_, fun i taken c h hc => ?_, fun i line c h => (by cases h)⟩
    · refine (hS hpass).behind (by rw [hphase]; rfl) hstep rfl id (fun d hij hd => ?_)
        (fun d _ hd => hkeep hpass hd (by rw [hphase]; simp)) hc hdue
      exact Function.update_of_ne (fun hid => hij (apart_of_run hrun i j d c₀ hd hc₀ hid)) ..
    · cases h
      obtain rfl := entry_of_update hc
      obtain ⟨htaken, hserve⟩ := (hS hpass).reading _ _ _ hphase hc₀
      refine ⟨?_, hserve.more hstep hturn (Function.update_self ..)
        (hkeep hpass hc₀ (by rw [hphase]; simp))⟩
      obtain ⟨hbuffer, rfl, -, -⟩ := getlineTurn_eq_more hturn
      simp [htaken, hbuffer]
  | ended j taken bytes c₀ hphase hc₀ hturn =>
    have hpass : w.phase.inPass = true := by rw [hphase]; rfl
    refine ⟨fun i c hc hdue => ?_, fun i taken c h => (by cases h), fun i line c h hc hasks => ?_⟩
    · exact (hS hpass).behind (by rw [hphase]; rfl) hstep rfl id (fun _ _ _ => rfl)
        (fun d _ hd => hkeep hpass hd (by rw [hphase]; simp)) hc hdue
    · obtain ⟨rfl, hread⟩ := Phase.executing.inj h
      obtain rfl := entry_of_update hc
      obtain ⟨htaken, -, htransfer⟩ := (hS hpass).reading _ _ _ hphase hc₀
      -- a line that the end of the stream broke off is handled all the same
      have hwaits := hkeep hpass hc₀ (by rw [hphase]; simp)
        (htransfer (begins_of_ended hturn htaken hread hasks))
      exact hwaits
  | execute j buffer c₀ fd stays connection world hphase =>
    have hpass : w.phase.inPass = true := by rw [hphase]; rfl
    refine ⟨fun i c hc hdue => ?_, fun i taken c h => (by cases h), fun i line c h => (by cases h)⟩
    refine (hS hpass).behind (by rw [hphase]; rfl) hstep rfl (fun h => (due_executed rfl h).2)
      (fun _ _ _ => rfl) (fun d hij hd => hkeep hpass hd fun line hline => ?_) hc hdue
    -- only its own line takes a client's connection away
    rw [hphase] at hline
    cases hline
    exact hij rfl
  | destroy => cases hpass'
  | stop => cases hpass'

/-- **One step** keeps everybody supplied. -/
theorem Supplied.step (hrun : (loop u).run events = .ok w)
    (hopens : (loop u).Meets StreamOpens events) (hS : w.phase.inPass = true → Supplied w)
    (hprompt : StreamOpens w e ∧ Prompt w e) (hstep : w.step u e = .ok w')
    (hpass' : w'.phase.inPass = true) : Supplied w' := by
  by_cases hserver : ∃ calls, e = .server calls
  · obtain ⟨calls, rfl⟩ := hserver
    exact .server hrun hopens hprompt.1 hS hprompt.2 hstep hpass'
  have hother : ∀ calls, e ≠ .server calls := fun calls he => hserver ⟨calls, he⟩
  obtain ⟨hfds, hconns, hphase⟩ := arrays_elsewhere hother hstep
  have hpass : w.phase.inPass = true := hphase ▸ hpass'
  have hkeep : ∀ i c, w.connections i = some c → w.DataWaits c → w'.DataWaits c :=
    fun i c hc hwaits => hwaits.step hrun hopens hprompt.1 hpass hstep hc fun calls _ he =>
      absurd he (hother calls)
  refine ⟨fun i c hc hdue => ?_, fun i taken c h hc => ?_, fun i line c h hc hasks => ?_⟩
  · rw [hconns] at hc
    rw [hphase] at hdue
    exact ((hS hpass).due i c hc (due_congr hfds (Nat.le_refl _) hdue)).elsewhere hother hstep
      (hkeep i c hc)
  · rw [hconns] at hc
    rw [hphase] at h
    obtain ⟨htaken, hserve⟩ := (hS hpass).reading i taken c h hc
    exact ⟨htaken, hserve.elsewhere hother hstep (hkeep i c hc)⟩
  · rw [hconns] at hc
    rw [hphase] at h
    exact hkeep i c hc ((hS hpass).executing i line c h hc hasks)

/-- In a run that is prompt everybody is supplied. -/
theorem supplied_of_run (hrun : (loop u).run events = .ok w)
    (hmeets : (loop u).Meets (fun w e => StreamOpens w e ∧ Prompt w e) events)
    (hpass : w.phase.inPass = true) : Supplied w := by
  have hboth : (loop u).Meets StreamOpens events ∧ (loop u).run events = .ok w ∧
      (w.phase.inPass = true → Supplied w) := by
    refine Machine.run_invariant_of_meets (m := loop u)
      (C := fun w e => StreamOpens w e ∧ Prompt w e)
      (I := fun events w => (loop u).Meets StreamOpens events ∧ (loop u).run events = .ok w ∧
        (w.phase.inPass = true → Supplied w))
      ⟨trivial, rfl, fun hpass => (by cases hpass)⟩ ?_ events w hmeets hrun
    rintro events w e w' ⟨hopens, hrun, hS⟩ hprompt hstep
    exact ⟨(Machine.meets_concat hrun).mpr ⟨hopens, hprompt.1⟩, Machine.run_append_step hrun hstep,
      .step hrun hopens hS hprompt hstep⟩
  exact hboth.2.2 hpass

/-! ### A pass comes to its end -/

theorem reads_congr (hentry : w'.connections i = w.connections i)
    (hreceived : ∀ c, w.connections i = some c → w'.received c.id = w.received c.id) :
    w'.reads i = w.reads i := by
  unfold Loop.reads
  rw [hentry]
  cases hc : w.connections i with
  | none => rfl
  | some c =>
    dsimp only
    rw [hreceived c hc]

/-- A read takes a byte out of the way, if only to fill the buffer with the others. -/
theorem reads_more {taken taken' buffer waiting : List Byte} {ended : Bool}
    (hc : w.connections i = some c)
    (hturn : getlineTurn u.bufsiz taken c.buffer (w.received c.id) ended =
      .more taken' buffer waiting)
    (hentry : w'.connections i = some { c with buffer })
    (hreceived : w'.received c.id = waiting) : w'.reads i + 1 ≤ w.reads i := by
  have hwaits : w.received c.id ≠ [] := by
    intro hnone
    unfold getlineTurn at hturn
    split at hturn
    next => cases hturn
    next =>
      rw [hnone, if_neg (by simp)] at hturn
      split at hturn <;> cases hturn
  obtain ⟨hbuffer, -, rfl, rfl⟩ := getlineTurn_eq_more hturn
  have hfilled : (w.received c.id).take u.bufsiz ≠ [] := by
    rw [Ne, List.take_eq_nil_iff, not_or]
    exact ⟨Nat.pos_iff_ne_zero.mp u.bufsiz_pos, hwaits⟩
  unfold Loop.reads
  rw [hentry, hc]
  dsimp only
  rw [hreceived, List.take_append_drop, if_neg hfilled, List.idxOf_append_of_notMem hbuffer]
  cases hempty : c.buffer with
  | nil =>
    rw [if_pos rfl]
    simp
  | cons b rest =>
    rw [List.length_cons]
    omega

/-- What happens to a slot whose turn has come is no matter to those behind it. -/
theorem turnsLeft_past {entry : Option Client} (hfds : w'.fds = w.fds)
    (hentry : w'.connections = Function.update w.connections i entry)
    (hreceived : ∀ l c, l ≠ i → w.connections l = some c → w'.received c.id = w.received c.id) :
    w'.turnsLeft (i.val + 1) ≤ w.turnsLeft (i.val + 1) := by
  refine turnsLeft_le (fun _ h => due_congr hfds (Nat.le_refl _) h) fun l hl => Nat.le_of_eq ?_
  have hli : l ≠ i := by
    rintro rfl
    exact absurd hl.2.1 (Nat.not_succ_le_self _)
  refine reads_congr ?_ fun c hc => hreceived l c hli hc
  rw [hentry, Function.update_of_ne hli]

/-- Somebody else does not make a turn longer. -/
theorem reads_elsewhere (hserver : ∀ calls, e ≠ .server calls) (hstep : w.step u e = .ok w')
    (hturn : ∀ c, w.connections i = some c → w.HasTurn c) : w'.reads i ≤ w.reads i := by
  unfold Loop.reads
  rw [(arrays_elsewhere hserver hstep).2.1]
  cases hc : w.connections i with
  | none => exact Nat.le_refl _
  | some c => exact Nat.add_le_add_right ((hturn c hc).elsewhere hserver hstep).2 _

/-- The server goes on in a pass. -/
theorem passLeft_server (hrun : (loop u).run events = .ok w) (hpass : w.phase.inPass = true)
    (hstep : w.server u calls = .ok w') : w'.phase = .polling ∨ w'.passLeft + 1 ≤ w.passLeft := by
  unfold Loop.passLeft
  cases server_step hstep with
  | leave hphase =>
    rw [hphase] at hpass
    cases hpass
  | poll ready hphase =>
    rw [hphase] at hpass
    cases hpass
  | nobody hphase | full fd addr connection world hphase =>
    rw [hphase]
    exact .inr (Nat.add_le_add_right (turnsLeft_le (fun _ h => h) fun _ _ => Nat.le_refl _) 1)
  | accepted fd addr connection world j hphase hready haccept hworld hfree =>
    have hnone := Option.isNone_iff_eq_none.mp (findSlot_eq_some hfree).2.2
    rw [hphase]
    refine .inr (Nat.add_le_add_right (turnsLeft_le
      (fun _ h => (due_accepted hrun hphase hnone rfl h).2) fun l hl => ?_) 1)
    have hlj := (due_accepted hrun hphase hnone rfl hl).1
    exact Nat.le_of_eq (reads_congr (Function.update_of_ne hlj ..) fun _ _ => rfl)
  | served => exact .inl rfl
  | enter k j hphase hnext =>
    rw [hphase]
    refine .inr ?_
    have henter := turnsLeft_enter hnext
    have hsame : Loop.turnsLeft { w with phase := .reading j [] } (j.val + 1) ≤
        w.turnsLeft (j.val + 1) := turnsLeft_le (fun _ h => h) fun _ _ => Nat.le_refl _
    have hreads : Loop.reads { w with phase := .reading j [] } j = w.reads j := rfl
    dsimp only
    omega
  | line j taken bytes rest c₀ hphase hc₀ =>
    rw [hphase]
    refine .inr ?_
    have hpast : Loop.turnsLeft { w with
        connections := Function.update w.connections j (some { c₀ with buffer := rest })
        phase := .executing j (readSocket bytes) } (j.val + 1) ≤ w.turnsLeft (j.val + 1) :=
      turnsLeft_past rfl rfl fun _ _ _ _ => rfl
    dsimp only
    omega
  | more j taken taken' buffer waiting c₀ hphase hc₀ hturn =>
    rw [hphase]
    refine .inr ?_
    have hown : Loop.reads { w with
        connections := Function.update w.connections j (some { c₀ with buffer })
        received := Function.update w.received c₀.id waiting
        phase := .reading j taken' } j + 1 ≤ w.reads j :=
      reads_more hc₀ hturn (Function.update_self ..) (Function.update_self ..)
    have hothers : Loop.turnsLeft { w with
        connections := Function.update w.connections j (some { c₀ with buffer })
        received := Function.update w.received c₀.id waiting
        phase := .reading j taken' } (j.val + 1) ≤ w.turnsLeft (j.val + 1) := by
      refine turnsLeft_past rfl rfl fun l c hlj hc => Function.update_of_ne ?_ ..
      exact fun hid => hlj (apart_of_run hrun l j c c₀ hc hc₀ hid)
    dsimp only
    omega
  | ended j taken bytes c₀ hphase hc₀ =>
    rw [hphase]
    refine .inr ?_
    have hpast : Loop.turnsLeft { w with
        connections := Function.update w.connections j (some { c₀ with buffer := [] })
        phase := .executing j (readSocket bytes) } (j.val + 1) ≤ w.turnsLeft (j.val + 1) :=
      turnsLeft_past rfl rfl fun _ _ _ _ => rfl
    dsimp only
    omega
  | execute j buffer c₀ fd stays connection world hphase =>
    rw [hphase]
    refine .inr (Nat.add_le_add_right (turnsLeft_le
      (fun _ h => (due_executed rfl h).2) fun l hl => Nat.le_of_eq ?_) 1)
    exact reads_congr (Function.update_of_ne (due_executed rfl hl).1 ..) fun _ _ => rfl
  | destroy k j c₀ fd connection world hphase =>
    rw [hphase] at hpass
    cases hpass
  | stop k hphase =>
    rw [hphase] at hpass
    cases hpass

/-- Somebody else does not make the pass longer. -/
theorem passLeft_elsewhere (hS : Supplied w) (hserver : ∀ calls, e ≠ .server calls)
    (hstep : w.step u e = .ok w') : w'.passLeft ≤ w.passLeft := by
  obtain ⟨hfds, -, hphase⟩ := arrays_elsewhere hserver hstep
  have hturns : ∀ k, w.phase.from ≤ k → w'.turnsLeft k ≤ w.turnsLeft k := fun k hk =>
    turnsLeft_le (fun _ h => due_congr hfds (Nat.le_refl _) h) fun i hi =>
      reads_elsewhere hserver hstep fun c hc => (hS.due i c hc (due_congr hfds hk hi)).1
  unfold Loop.passLeft
  rw [hphase]
  cases hphase₀ : w.phase with
  | accepting => exact Nat.add_le_add_right (hturns 1 (by rw [hphase₀]; exact Nat.le_refl _)) 1
  | serving k => exact hturns k (by rw [hphase₀]; exact Nat.le_refl _)
  | reading i taken =>
    refine Nat.add_le_add (hturns _ (by rw [hphase₀]; exact Nat.le_refl _)) ?_
    exact Nat.add_le_add_right (reads_elsewhere hserver hstep fun c hc =>
      (hS.reading i taken c hphase₀ hc).2.1) 2
  | executing i buffer =>
    exact Nat.add_le_add_right (hturns _ (by rw [hphase₀]; exact Nat.le_refl _)) 1
  | _ => exact Nat.le_refl _

/-- What somebody else cannot do is no event. -/
theorem elsewhere_error (hother : ∀ calls, e ≠ .server calls) {halt : Halt}
    (h : w.step u e = .error halt) : halt = .disabled := by
  cases e with
  | server calls => exact absurd rfl (hother calls)
  | arrive id bytes =>
    unfold Loop.step at h
    dsimp only at h
    split at h
    next =>
      cases h
      rfl
    next => cases h
  | hangup id reset => cases h
  | dataConnect fd =>
    have hworld : w.world.dataConnect fd = .error halt := map_eq_error h
    unfold World.dataConnect at hworld
    split at hworld
    next => cases hworld
    next =>
      cases hworld
      rfl
  | child k cans =>
    have hworld : w.world.runChild u.server k cans = .error halt := map_eq_error h
    unfold World.runChild at hworld
    split at hworld
    next =>
      cases hworld
      rfl
    next => cases hworld
  | signal => cases h

/-- A line that would wait for its data connection asks for a transfer. -/
theorem LineAwaits.asks {server : ServerT} {ans : Answers} {line : CStr}
    (h : LineAwaits server ans line (Ctx.start w.world.os c.connection)) :
    AsksTransfer line ∧ ¬ w.DataWaits c := by
  obtain ⟨command, hcommand, hbegins, -, -, d, hd, hmode, l, hl, hnone⟩ := h
  refine ⟨⟨command, hcommand, fun hword => hbegins (transferOf_of_word hword)⟩, fun hwaits => ?_⟩
  have hpending := hwaits d hd hmode l hl
  have hnone : w.world.os.desc l = some (.listener 0) := hnone
  unfold pendingAt at hpending
  rw [hnone] at hpending
  exact Nat.lt_irrefl _ hpending

/-- In a pass that is prompt no step waits. -/
theorem prompt_unblocked (hrun : (loop u).run events = .ok w)
    (hmeets : (loop u).Meets (fun w e => StreamOpens w e ∧ Prompt w e) events) :
    w.step u e ≠ .error .blocked := by
  intro hblocked
  cases e with
  | server calls =>
    have hstalls := (blocked_iff hrun (Machine.meetsFrom_and.mp hmeets).1).mp hblocked
    unfold Loop.Stalls at hstalls
    split at hstalls
    next i taken hphase =>
      obtain ⟨c, hc, hbuffer, hreceived, hhere⟩ := hstalls
      have hS := supplied_of_run hrun hmeets (by rw [hphase]; rfl)
      rw [Bool.or_eq_false_iff] at hhere
      rcases (hS.reading i taken c hphase hc).2.1 with hline | hgone
      · rw [hreceived, List.append_nil] at hline
        exact hbuffer hline
      · rw [hgone] at hhere
        cases hhere.1
    next i line hphase =>
      obtain ⟨c, hc, hawaits⟩ := hstalls
      have hS := supplied_of_run hrun hmeets (by rw [hphase]; rfl)
      exact hawaits.asks.2 (hS.executing i line c hphase hc hawaits.asks.1)
    next => exact hstalls
  | _ => cases elsewhere_error (fun calls h => (by cases h)) hblocked

end

/-- **No client holds the server up** where `poll` reports only clients that have sent a whole
line or are gone, and that have connected to their passive data socket if the line begins as
that of a transfer. In every run like that, with anything else happening in between,

* the server never waits outside `poll`,
* whenever `handle_connection` reads a client, its line is there, or its end,
* whenever it handles the line of a transfer, the data connection is there to be accepted,
* and from each state between two calls of `poll` the server is back at `poll` before it has
  taken more than `passLeft` steps. -/
theorem never_stalls_of_run (u : Settings) (events : List LoopEvent)
    (hmeets : (loop u).Meets (fun w e => StreamOpens w e ∧ Prompt w e) events) :
    (loop u).run events ≠ .error .blocked ∧
      ∀ before later w, events = before ++ later → (loop u).run before = .ok w →
        (∀ i taken c, w.phase = .reading i taken → w.connections i = some c → w.HasTurn c) ∧
        (∀ i line c, w.phase = .executing i (some line) → w.connections i = some c →
          AsksTransfer line → w.DataWaits c) ∧
        ∀ w', w.phase.inPass = true → (loop u).run events = .ok w' →
          w.passLeft < later.countP LoopEvent.isServer →
            ∃ l₁ l₂ w₁, later = l₁ ++ l₂ ∧ (loop u).run (before ++ l₁) = .ok w₁ ∧
              w₁.phase = .polling := by
  refine ⟨fun hblocked => ?_, ?_⟩
  · exact Machine.run_error_of_meets (E := (· ≠ .blocked)) (fun events w e halt hmeets hrun _ hstep
      hhalt => prompt_unblocked hrun hmeets (by rw [← hhalt]; exact hstep)) events _ hmeets
        hblocked rfl
  rintro before later w rfl hrun
  have hbefore := (Machine.meetsFrom_append.mp hmeets).1
  refine ⟨fun i taken c hphase hc => ?_, fun i line c hphase hc => ?_,
    fun w' hpass hrun' hleft => ?_⟩
  · exact ((supplied_of_run hrun hbefore (by rw [hphase]; rfl)).reading i taken c hphase hc).2.1
  · exact (supplied_of_run hrun hbefore (by rw [hphase]; rfl)).executing i line c hphase hc
  -- in a pass a step of the server uses up some of `passLeft`, and nobody else adds to it
  have hstep : ∀ events w e w', (loop u).Meets (fun w e => StreamOpens w e ∧ Prompt w e) events →
      (loop u).run events = .ok w → (StreamOpens w e ∧ Prompt w e) → (loop u).step w e = .ok w' →
        w.phase.inPass = true → w'.phase = .polling ∨
          w'.phase.inPass = true ∧ w'.passLeft + (if e.isServer then 1 else 0) ≤ w.passLeft := by
    intro events w e w' hmeets hrun _ hstep hpass
    by_cases hout : w'.phase.inPass = false
    · obtain ⟨_, _, _, _, _, hphase⟩ := pass_ends hpass hstep hout
      exact .inl hphase
    by_cases hserver : ∃ calls, e = .server calls
    · obtain ⟨calls, rfl⟩ := hserver
      exact (passLeft_server hrun hpass hstep).imp_right fun hless => ⟨by simpa using hout, hless⟩
    · have hother : ∀ calls, e ≠ .server calls := fun calls he => hserver ⟨calls, he⟩
      rw [isServer_of_ne hother, if_neg (by simp)]
      refine .inr ⟨by simpa using hout, ?_⟩
      exact passLeft_elsewhere (supplied_of_run hrun hmeets hpass) hother hstep
  exact Machine.reaches_of_rank hstep later before w w' hmeets hrun hpass hrun' hleft

/-- The first client sends lines one after the other, and each is handled before the next. -/
def served (lines : List String) : List LoopEvent :=
  lines.flatMap fun line => .arrive 0 (lit (line ++ "\r\n")) :: turnOf 1 4

/-- A client asks for a passive data socket, connects to it and sends `LIST`, when `poll` reports
it. -/
def listing : List LoopEvent :=
  acceptOn 4 ++ served ["USER anonymous", "PASS", "PASV"] ++
    [.dataConnect 7, .arrive 0 (lit "LIST\r\n"), .server (.fine [1] 0)]

/-- The pass in which it gets its listing comes to an end. -/
theorem never_stalls_listing :
    ∃ l₁ l₂ w₁, List.replicate 12 (.server (.fine [] 0)) = l₁ ++ l₂ ∧
      (loop smallSettings).run (listing ++ l₁) = .ok w₁ ∧ w₁.phase = .polling := by
  have hmeets : (loop smallSettings).Meets (fun w e => StreamOpens w e ∧ Prompt w e)
      (listing ++ List.replicate 12 (.server (.fine [] 0))) := by
    decide +kernel
  obtain ⟨w, hrun, hpass, hleft⟩ : ∃ w, (loop smallSettings).run listing = .ok w ∧
      (w.phase.inPass = true ∧ w.passLeft < 12) := Machine.exists_of_run (by decide +kernel)
  obtain ⟨w', hrun', -⟩ : ∃ w, (loop smallSettings).run
      (listing ++ List.replicate 12 (.server (.fine [] 0))) = .ok w ∧ True :=
    Machine.exists_of_run (by decide +kernel)
  exact ((never_stalls_of_run smallSettings _ hmeets).2 _ _ w rfl hrun).2.2 w' hpass hrun' hleft

/-- Half a word without a newline, and a `LIST` before the client has connected to its data
socket: the server reads, or handles, what it has to wait for. -/
theorem stalled_by_clients :
    (∃ w, (loop smallSettings).run (acceptOn 4 ++ [.arrive 0 (lit "NO")] ++
        List.replicate 3 (.server (.fine [1] 0))) = .ok w ∧
          w.phase = .reading 1 [] ∧ ∃ c ∈ w.connections 1, ¬ w.HasTurn c) ∧
      (loop smallSettings).run (acceptOn 4 ++ [.arrive 0 (lit "NO")] ++
        List.replicate 5 (.server (.fine [1] 0))) = .error .blocked ∧
      (∃ w, (loop smallSettings).run (acceptOn 4 ++ served ["USER anonymous", "PASS", "PASV"] ++
        [.arrive 0 (lit "LIST\r\n")] ++ List.replicate 5 (.server (.fine [1] 0))) = .ok w ∧
          w.phase = .executing 1 (some (lit "LIST\r")) ∧ ∃ c ∈ w.connections 1, ¬ w.DataWaits c) ∧
      (loop smallSettings).run (acceptOn 4 ++
        served ["USER anonymous", "PASS", "PASV", "LIST"]) = .error .blocked :=
  ⟨Machine.exists_of_run (by decide +kernel), Machine.error_of_run (by decide +kernel),
    Machine.exists_of_run (by decide +kernel), Machine.error_of_run (by decide +kernel)⟩

end MyFtp.Server
