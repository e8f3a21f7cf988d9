import MyFtp.Client.Rounds
import MyFtp.Prog.Queues
import MyFtp.Server.Answers
import MyFtp.Server.Dispatch
import MyFtp.Server.LostClient
import MyFtp.Server.ReplyOrder
import MyFtp.Wire.Requests

/-!
# A session of the client with the server

The client program on one side, the server with its children and all its other clients on the
other. The client sends its next line once it has read what it waits for; the server handles the
line at any time after that, and every process of the server writes its replies when it gets to
it.

> `abreast_of_run`: in every run, whenever the server handles a line of the client, nothing that
> the client asked for before is still going on. Every reply was read by the client in the round
> of the line it is a reply to, and both sides agree on whether the client is logged in.

The invariant follows the one line that is being answered: its replies are all from the server
process, or all from one child, so there is one queue they are in (`OnlyIn`), and the client does
not go on before it has read the last of them.
-/

namespace MyFtp.Wire

open MyFtp.Posix
open MyFtp.Client
open MyFtp.Server (ConnId Reply Command SessionEvent Sessions Setup Halt sessions Wires WireEvent
  Written wires trim parseBuffer commandOf readSocket firstWord touppercase blank parsed_eq
  trim_readSocket commandOfText commandOf_of_parse
  requestNames transferNames Cut Connection)
open Prog

/-! ## What the client reads and sends -/

/-- What the client `id` was told. -/
def toldTo (w : Wires) (id : ConnId) : List Written := w.wire.filter (·.client == id)

/-- The lines of what was printed on the connection are what the client reads, one at a time: no
call of `read_response` takes the beginning of the next line with it. -/
structure Reads (replies : List (Option (List Byte))) (w : Wires) (id : ConnId) : Prop where
  /-- Each reply is one line. Only the name of a directory can make it more. -/
  lines : ∀ x ∈ toldTo w id, IsLine x.reply.text
  order : (completeLines ((toldTo w id).flatMap fun x => x.reply.text)).map some <+: replies

/-- The replies on a log, each with the number of lines that were sent before it. -/
def heardWith : Nat → List Said → List (Nat × Awaits × Option CStr)
  | _, [] => []
  | n, .sent _ :: log => heardWith (n + 1) log
  | n, .heard awaits response :: log => (n, awaits, response) :: heardWith n log

/-- What the client has heard when it sends the line after the first `n`. -/
def heardBy (log : List Said) (n : Nat) : List (Nat × Option CStr) :=
  ((heardWith 0 log).filter (·.1 ≤ n)).map fun x => (x.1, x.2.2)

/-- The reply lets the client in. -/
def Admits (reply : Awaits × Option CStr) : Prop :=
  ∃ text, reply = (.pass, some text) ∧ hasCode text "230" = true

/-- The client has heard that it is let in when it sends the line after the first `n`. -/
def LetInBy (log : List Said) (n : Nat) : Prop := ∃ x ∈ heardWith 0 log, x.1 ≤ n ∧ Admits x.2

/-- The line is the next one the client sends, and the client has sent it: what it reads before
that was written. -/
def SendsLine (replies : List (Option (List Byte))) (log : List Said) (id : ConnId) (w : Wires)
    (line : CStr) : Prop :=
  Reads replies w id ∧
    (∃ text ∈ (log.filterMap Said.line)[w.lines id]?,
      IsLine text ∧ NulFree text ∧ readSocket text = some line) ∧
      (heardBy log (w.lines id)).length ≤ (toldTo w id).length

/-- The lines of the client `id` are those the client sends, and it stays connected. Everything
else may happen at any time. -/
def Sends (replies : List (Option (List Byte))) (log : List Said) (id : ConnId) (w : Wires) :
    WireEvent → Prop
  | .session (.line id' line _) => id' = id → SendsLine replies log id w line
  | .session (.hangup id') => id' ≠ id
  | _ => True

instance (replies : List (Option (List Byte))) (w : Wires) (id : ConnId) :
    Decidable (Reads replies w id) :=
  decidable_of_iff ((∀ x ∈ toldTo w id, IsLine x.reply.text) ∧
      (completeLines ((toldTo w id).flatMap fun x => x.reply.text)).map some <+: replies)
    ⟨fun h => ⟨h.1, h.2⟩, fun h => ⟨h.lines, h.order⟩⟩

instance (replies : List (Option (List Byte))) (log : List Said) (id : ConnId) (w : Wires)
    (line : CStr) : Decidable (SendsLine replies log id w line) :=
  inferInstanceAs (Decidable (_ ∧ _ ∧ _))

instance (replies : List (Option (List Byte))) (log : List Said) (id : ConnId) (w : Wires) :
  ∀ e, Decidable (Sends replies log id w e)
  | .session (.line id' line _) =>
    inferInstanceAs (Decidable (id' = id → SendsLine replies log id w line))
  | .session (.hangup id') => inferInstanceAs (Decidable (id' ≠ id))
  | .session (.accept ..) | .session (.child ..) | .session (.dataConnect _) | .write
  | .childWrites _ => .isTrue trivial

/-- A reply as the client hears it, with the number of the line it is a reply to. -/
def heardAs (x : Written) : Nat × Option CStr := (x.line, some (cstr x.reply.text))

/-- What is still in the queue `j`: the server process has the first one. -/
def source (w : Wires) : Nat → List Written
  | 0 => w.parent
  | j + 1 => w.children[j]?.getD []

/-- Client and server are abreast: the server has nothing left to do or to write for the client,
the client has heard every reply in the round it belongs to, and the server takes the client for
logged in if the client was let in. -/
structure Abreast (log : List Said) (id : ConnId) (w : Wires) : Prop where
  idle : ∀ x ∈ w.sessions.world.children, x.1 ≠ id
  silent : ∀ j, ∀ x ∈ source w j, x.client ≠ id
  heard : (toldTo w id).map heardAs = heardBy log (w.lines id)
  login : ∀ c, w.sessions.conns id = some c → (c.loggedIn = true ↔ LetInBy log (w.lines id))

/-- At the lines of the client `id`. -/
def InStep (log : List Said) (id : ConnId) (w : Wires) : WireEvent → Prop
  | .session (.line id' _ _) => id' = id → Abreast log id w
  | _ => True

/-! ## Words and codes -/

/-- The word of a line that is sent. -/
def requestWord (text : CStr) : CStr := firstWord (trim text)

/-- The words of the requests are in capital letters, with no white space. -/
theorem words_plain (awaits : Awaits) : ∀ word ∈ awaits.words,
    word ≠ [] ∧ (∀ c ∈ word, isspace c = false) ∧ touppercase word = word := by
  cases awaits with
  | pasv socket =>
    show ∀ word ∈ [lit "PASV"], _
    decide +kernel
  | _ => decide +kernel

/-- White space behind a word is cut off, and nothing else. -/
theorem trim_word {word rest : CStr} (hne : word ≠ []) (hword : ∀ c ∈ word, isspace c = false) :
    trim (word ++ rest) = word ++ rest.rdropWhile isspace := by
  have hfront : (word ++ rest).dropWhile isspace = word ++ rest := by
    cases word with
    | nil => exact absurd rfl hne
    | cons c word =>
      exact List.dropWhile_cons_of_neg (by simp [hword c List.mem_cons_self])
  have hback : word.reverse.dropWhile isspace = word.reverse := by
    cases hrev : word.reverse with
    | nil => rfl
    | cons c l =>
      have hc : c ∈ word := List.mem_reverse.mp (by rw [hrev]; exact List.mem_cons_self)
      exact List.dropWhile_cons_of_neg (by simp [hword c hc])
  rw [trim, hfront, List.rdropWhile, List.rdropWhile, List.reverse_append, List.dropWhile_append,
    hback]
  split
  next h => rw [List.isEmpty_iff.mp h, List.reverse_reverse, List.reverse_nil, List.append_nil]
  next => rw [List.reverse_append, List.reverse_reverse]

/-- What a line asks for is in its word. -/
theorem word_of_isFor {text : CStr} {awaits : Awaits} (h : IsFor text awaits) :
    trim text ≠ [] ∧ requestWord text ∈ awaits.words := by
  obtain ⟨word, hmem, hcases⟩ := h
  obtain ⟨hne, hspace, -⟩ := words_plain awaits word hmem
  have hblank : ∀ c ∈ word, (! blank c) = true := by
    intro c hc
    rw [isspace_of_blank (hspace c hc)]
    rfl
  have hrest : ∀ rest : CStr, (rest.rdropWhile isspace).takeWhile (! blank ·) = [] →
      trim (word ++ rest) ≠ [] ∧ requestWord (word ++ rest) ∈ awaits.words := by
    intro rest hrest
    unfold requestWord
    rw [trim_word hne hspace]
    refine ⟨by simp [hne], ?_⟩
    rw [firstWord, List.takeWhile_append_of_pos hblank, hrest, List.append_nil]
    exact hmem
  rcases hcases with rfl | ⟨rest, rfl⟩
  · exact hrest _ (by decide)
  · rw [List.append_assoc]
    refine hrest _ ?_
    have hprefix : (lit " " ++ rest).rdropWhile isspace <+: lit " " ++ rest :=
      List.rdropWhile_prefix ..
    -- what is left is nothing, or begins with the blank
    cases hl : (lit " " ++ rest).rdropWhile isspace with
    | nil => rfl
    | cons c l =>
      rw [hl] at hprefix
      obtain ⟨l', hl'⟩ := hprefix
      obtain rfl : c = 32 := (List.cons.inj hl').1
      rfl

/-- The server gets the word. -/
theorem word_of_line {text line : CStr} {awaits : Awaits} {parsed : Option Command}
    (hfor : IsFor text awaits) (hnul : NulFree text) (hread : readSocket text = some line)
    (hparse : parseBuffer line = .ok parsed) :
    ∃ command, commandOf line = some command ∧ command.word = requestWord text := by
  obtain ⟨hne, hword⟩ := word_of_isFor hfor
  have hparsed := parsed_eq hparse
  rw [trim_readSocket hnul hread, commandOfText, if_neg hne] at hparsed
  refine ⟨_, (commandOf_of_parse hparse).trans hparsed, ?_⟩
  show touppercase (requestWord text) = requestWord text
  exact (words_plain awaits _ hword).2.2

/-- The client's words are among those the server was asked about. -/
theorem words_subset (awaits : Awaits) : awaits.words ⊆ requestNames := by
  cases awaits with
  | pasv socket =>
    show [lit "PASV"] ⊆ requestNames
    decide
  | _ => decide

/-- A line asks for one thing. -/
theorem awaits_of_word {awaits awaits' : Awaits} {word : CStr} (h : word ∈ awaits.words)
    (h' : word ∈ awaits'.words) :
    (awaits = .opening ↔ awaits' = .opening) ∧ (awaits = .pass ↔ awaits' = .pass) := by
  have hopening : ∀ awaits : Awaits, ∀ word ∈ awaits.words,
      (word ∈ Awaits.opening.words ↔ awaits = .opening) ∧
        (word ∈ Awaits.pass.words ↔ awaits = .pass) := by
    intro awaits
    cases awaits <;> simp [Awaits.words] <;> decide
  obtain ⟨ho, hp⟩ := hopening awaits word h
  obtain ⟨ho', hp'⟩ := hopening awaits' word h'
  exact ⟨ho.symm.trans ho', hp.symm.trans hp'⟩

/-- The client knows the two codes that it goes by. -/
theorem hasCode_reply (r : Reply) :
    (hasCode (cstr r.text) "150" = true ↔ r.code = some 150) ∧
      (hasCode (cstr r.text) "230" = true ↔ r.code = some 230) := by
  cases r with
  | enteringPassive addr p1 p2 =>
    exact ⟨⟨fun h => (by cases h), fun h => by cases h⟩, fun h => (by cases h), fun h => by cases h⟩
  | pathname path =>
    exact ⟨⟨fun h => (by cases h), fun h => by cases h⟩, fun h => (by cases h), fun h => by cases h⟩
  | _ => decide +kernel

/-- The only preliminary replies are the two that announce a transfer. -/
theorem code_of_isPreliminary {r : Reply} (h : r.isPreliminary = true) : r.code = some 150 := by
  revert h
  cases r with
  | enteringPassive addr p1 p2 => exact fun h => by cases h
  | pathname path => exact fun h => by cases h
  | _ => decide +kernel

/-! ## What is heard -/

section

variable {replies : List (Option (List Byte))} {log : List Said} {rounds : List Round}
  {last : List CStr} {w : Wires} {id : ConnId} {n : Nat} {r : Round}

theorem heardWith_append (n : Nat) (l l' : List Said) :
    heardWith n (l ++ l') = heardWith n l ++ heardWith (n + (l.filterMap Said.line).length) l' := by
  induction l generalizing n with
  | nil => rfl
  | cons x l ih =>
    cases x with
    | sent line =>
      have hlength : ((Said.sent line :: l).filterMap Said.line).length =
          (l.filterMap Said.line).length + 1 := rfl
      rw [List.cons_append, heardWith, heardWith, ih, hlength, Nat.add_right_comm, Nat.add_assoc]
    | heard awaits response =>
      rw [List.cons_append, heardWith, heardWith, ih]
      rfl

theorem snd_heardWith (n : Nat) (l : List Said) :
    (heardWith n l).map Prod.snd = l.filterMap Said.reply := by
  induction l generalizing n with
  | nil => rfl
  | cons x l ih =>
    cases x with
    | sent line => exact ih (n + 1)
    | heard awaits response => exact congrArg ((awaits, response) :: ·) (ih n)

/-- The count goes up from where it starts, by one for each line. -/
theorem heardWith_bounds (n : Nat) (l : List Said) :
    ∀ x ∈ heardWith n l, n ≤ x.1 ∧ x.1 ≤ n + (l.filterMap Said.line).length := by
  induction l generalizing n with
  | nil => exact fun x hx => by cases hx
  | cons y l ih =>
    intro x hx
    cases y with
    | sent line =>
      have hx := ih (n + 1) x hx
      have hlength : ((Said.sent line :: l).filterMap Said.line).length =
          (l.filterMap Said.line).length + 1 := rfl
      omega
    | heard awaits response =>
      rw [heardWith, List.mem_cons] at hx
      rcases hx with rfl | hx
      · exact ⟨Nat.le_refl n, Nat.le_add_right ..⟩
      · exact ih n x hx

/-- Before the line after the first `n` stand the greeting and `n` rounds. -/
theorem heardWith_filter (hspeaks : SpeaksInRounds replies log rounds last)
    (hn : n ≤ rounds.length) :
    (heardWith 0 log).filter (·.1 ≤ n) =
      (0, .greeting, (replies.headD none).map cstr) ::
        heardWith 0 ((rounds.take n).flatMap Round.log) := by
  have hsplit : log = .heard .greeting ((replies.headD none).map cstr) ::
      ((rounds.take n).flatMap Round.log ++
        ((rounds.drop n).flatMap Round.log ++ last.map .sent)) := by
    rw [← List.append_assoc, ← List.flatMap_append, List.take_append_drop]
    exact hspeaks.order
  have hlength : (((rounds.take n).flatMap Round.log).filterMap Said.line).length = n := by
    rw [lines_of_rounds, List.length_map, List.length_take, Nat.min_eq_left hn]
  -- whatever comes after that begins with a line
  have hlater : ∀ x ∈ heardWith n ((rounds.drop n).flatMap Round.log ++ last.map .sent),
      n < x.1 := by
    intro x hx
    cases hdrop : rounds.drop n with
    | nil =>
      rw [hdrop, List.flatMap_nil, List.nil_append] at hx
      cases last with
      | nil => cases hx
      | cons line last => exact (heardWith_bounds (n + 1) _ x hx).1
    | cons r' rest =>
      rw [hdrop] at hx
      exact (heardWith_bounds (n + 1) _ x hx).1
  have hsofar : (heardWith 0 ((rounds.take n).flatMap Round.log)).filter (·.1 ≤ n) =
      heardWith 0 ((rounds.take n).flatMap Round.log) := by
    refine List.filter_eq_self.mpr fun x hx => decide_eq_true ?_
    have hbounds := (heardWith_bounds 0 _ x hx).2
    omega
  have hnone : (heardWith n ((rounds.drop n).flatMap Round.log ++ last.map .sent)).filter
      (·.1 ≤ n) = [] := by
    refine List.filter_eq_nil_iff.mpr fun x hx => ?_
    have hlater := hlater x hx
    rw [decide_eq_true_iff]
    omega
  rw [hsplit, heardWith, heardWith_append, Nat.zero_add, hlength,
    List.filter_cons_of_pos (by simp), List.filter_append, hsofar, hnone, List.append_nil]

theorem heardBy_zero (hspeaks : SpeaksInRounds replies log rounds last) :
    heardBy log 0 = [(0, (replies.headD none).map cstr)] := by
  unfold heardBy
  rw [heardWith_filter hspeaks (Nat.zero_le _)]
  rfl

/-- One round more. -/
theorem heardBy_succ (hspeaks : SpeaksInRounds replies log rounds last)
    (hr : rounds[n]? = some r) :
    heardBy log (n + 1) = heardBy log n ++ r.heard.map (fun x => (n + 1, x.2)) := by
  obtain ⟨hlt, -⟩ := List.getElem?_eq_some_iff.mp hr
  have hlength : (((rounds.take n).flatMap Round.log).filterMap Said.line).length = n := by
    rw [lines_of_rounds, List.length_map, List.length_take, Nat.min_eq_left (Nat.le_of_lt hlt)]
  have hround : ∀ l : List (Awaits × Option CStr),
      (heardWith (n + 1) (l.map fun x => .heard x.1 x.2)).map (fun x => (x.1, x.2.2)) =
        l.map fun x => (n + 1, x.2) := by
    intro l
    induction l with
    | nil => rfl
    | cons x l ih => exact congrArg ((n + 1, x.2) :: ·) ih
  unfold heardBy
  rw [heardWith_filter hspeaks hlt, heardWith_filter hspeaks (Nat.le_of_lt hlt), List.take_add_one,
    hr, Option.toList_some, List.flatMap_append, List.flatMap_singleton, heardWith_append,
    Nat.zero_add, hlength, ← List.cons_append, List.map_append]
  exact congrArg (_ ++ ·) (hround r.heard)

/-- The replies of the rounds. -/
theorem snd_heardBy (hspeaks : SpeaksInRounds replies log rounds last) (hn : n ≤ rounds.length) :
    (heardBy log n).map Prod.snd = (replies.headD none).map cstr ::
      ((rounds.take n).flatMap Round.heard).map Prod.snd := by
  unfold heardBy
  rw [heardWith_filter hspeaks hn, List.map_map, List.map_cons, ← replies_of_rounds,
    ← snd_heardWith 0, List.map_map]
  rfl

/-- A round grants the login if a reply of it does. -/
theorem grants_iff_admits (hr : r.Whole) : r.Grants ↔ ∃ x ∈ r.heard, Admits x := by
  constructor
  · rintro ⟨text, hheard, hcode⟩
    rw [hheard]
    exact ⟨_, List.mem_singleton_self _, text, rfl, hcode⟩
  · rintro ⟨x, hx, text, rfl, hcode⟩
    cases hr with
    | single hfor hopens =>
      obtain ⟨rfl, rfl⟩ := Prod.mk.inj (List.mem_singleton.mp hx)
      exact ⟨text, rfl, hcode⟩
    | transfer hfor hopens => simp at hx

theorem letInBy_iff (hspeaks : SpeaksInRounds replies log rounds last) (hn : n ≤ rounds.length) :
    LetInBy log n ↔ ∃ r ∈ rounds.take n, r.Grants := by
  have hfilter : LetInBy log n ↔
      ∃ x ∈ ((heardWith 0 log).filter (·.1 ≤ n)).map Prod.snd, Admits x := by
    unfold LetInBy
    constructor
    · rintro ⟨x, hx, hle, hadmits⟩
      exact ⟨_, List.mem_map_of_mem (List.mem_filter.mpr ⟨hx, decide_eq_true hle⟩), hadmits⟩
    · rintro ⟨_, hmem, hadmits⟩
      obtain ⟨x, hx, rfl⟩ := List.mem_map.mp hmem
      obtain ⟨hx, hle⟩ := List.mem_filter.mp hx
      exact ⟨x, hx, of_decide_eq_true hle, hadmits⟩
  rw [hfilter, heardWith_filter hspeaks hn, List.map_cons, snd_heardWith, replies_of_rounds]
  constructor
  · rintro ⟨x, hx, hadmits⟩
    rcases List.mem_cons.mp hx with rfl | hx
    · obtain ⟨text, htext, -⟩ := hadmits
      cases htext
    · obtain ⟨r, hr, hx⟩ := List.mem_flatMap.mp hx
      exact ⟨r, hr, (grants_iff_admits (hspeaks.whole r (List.mem_of_mem_take hr))).mpr
        ⟨x, hx, hadmits⟩⟩
  · rintro ⟨r, hr, hgrants⟩
    obtain ⟨x, hx, hadmits⟩ :=
      (grants_iff_admits (hspeaks.whole r (List.mem_of_mem_take hr))).mp hgrants
    exact ⟨x, List.mem_cons_of_mem _ (List.mem_flatMap.mpr ⟨r, hr, hx⟩), hadmits⟩

/-- The replies that were told come first among those the client reads. -/
theorem Reads.firstReplies (h : Reads replies w id) {k : Nat} (hk : k ≤ (toldTo w id).length) :
    firstReplies k replies = ((toldTo w id).take k).map fun x => some (cstr x.reply.text) := by
  have hmap : ∀ l ∈ (toldTo w id).map (fun x => x.reply.text), IsLine l := by
    simpa using h.lines
  have hlines := completeLines_append hmap []
  rw [List.append_nil, show completeLines [] = [] from rfl, List.append_nil,
    ← List.flatMap_def] at hlines
  obtain ⟨later, hlater⟩ := h.order
  rw [hlines, List.map_map] at hlater
  refine List.ext_getElem ?_ fun i hi hi' => ?_
  · rw [length_firstReplies, List.length_map, List.length_take, Nat.min_eq_left hk]
  · rw [length_firstReplies] at hi
    have hlt : i < (toldTo w id).length := Nat.lt_of_lt_of_le hi hk
    have hreply : replies[i]? = some (some (toldTo w id)[i].reply.text) := by
      rw [← hlater, List.getElem?_append_left (by rw [List.length_map]; omega), List.getElem?_map,
        List.getElem?_eq_getElem hlt]
      rfl
    simp only [Client.firstReplies, List.getElem_map, List.getElem_range, List.getElem_take, hreply,
      Option.join_some, Option.map_some]

/-- What the client has heard is what it was told. -/
theorem heardBy_told (hspeaks : SpeaksInRounds replies log rounds last)
    (hreads : Reads replies w id) (hrounds : n ≤ rounds.length)
    (hn : (heardBy log n).length ≤ (toldTo w id).length) :
    (heardBy log n).map Prod.snd = ((toldTo w id).take (heardBy log n).length).map
      fun x => some (cstr x.reply.text) := by
  rw [← hreads.firstReplies hn]
  -- all that is ever read begins with what was heard so far
  have hall : (log.filterMap Said.reply).map Prod.snd = (heardBy log n).map Prod.snd ++
      ((rounds.drop n).flatMap Round.heard).map Prod.snd := by
    rw [snd_heardBy hspeaks hrounds, replies_of_log hspeaks.order, List.map_cons, List.cons_append,
      ← List.map_append, ← List.flatMap_append, List.take_append_drop]
  have hlength : (log.filterMap Said.reply).length = (heardBy log n).length +
      ((rounds.drop n).flatMap Round.heard).length := by
    have := congrArg List.length hall
    simpa using this
  have hread := hspeaks.read
  rw [hall, hlength, firstReplies_add] at hread
  exact (List.append_inj hread (by rw [length_firstReplies, List.length_map])).1

end

/-! ## The answer to one line -/

/-- How far the answer to the line `n` with that word is: the children of the client that are
still to run, and the replies written or waiting in a queue. -/
inductive Answering (id : ConnId) (n : Nat) (word : CStr) :
    List (ConnId × Nat) → List Reply → Prop
  | said {r : Reply} (h : r.isFinal = true) : Answering id n word [] [r]
  | waits (h : word ∈ transferNames) : Answering id n word [(id, n)] []
  | ran {l : List Reply} (h : word ∈ transferNames) (hl : Cut l) : Answering id n word [] l

section

variable {id : ConnId} {n : Nat} {word : CStr} {tasks : List (ConnId × Nat)}
  {late due : List Written} {r : Round}

/-- The reply announces a transfer as the client sees it. -/
theorem opens_iff (x : Written) :
    Opens (some (cstr x.reply.text)) ↔ x.reply.code = some 150 := by
  constructor
  · rintro ⟨text, htext, hcode⟩
    rw [← Option.some.inj htext] at hcode
    exact (hasCode_reply x.reply).1.mp hcode
  · intro hcode
    exact ⟨_, rfl, (hasCode_reply x.reply).1.mpr hcode⟩

/-- **The round is over only when the answer is.** Once a whole round was heard of the answer,
there is no more of it to come. -/
theorem Answering.complete (h : Answering id n word tasks ((late ++ due).map Written.reply))
    (hr : r.Whole) (hword : word = requestWord r.line)
    (hheard : r.heard.map Prod.snd =
      (late.take r.heard.length).map fun x => some (cstr x.reply.text))
    (hle : r.heard.length ≤ late.length) :
    tasks = [] ∧ due = [] ∧ late.length = r.heard.length := by
  -- the first reply that was heard
  obtain ⟨awaits, response, rest, hrheard, hfor⟩ := hr.isFor
  obtain ⟨x, late, rfl⟩ : ∃ x late', late = x :: late' := by
    cases late with
    | nil => rw [hrheard, List.length_cons] at hle; cases hle
    | cons x late => exact ⟨x, late, rfl⟩
  have hfirst : response = some (cstr x.reply.text) := by
    rw [hrheard, List.length_cons, List.take_succ_cons] at hheard
    exact (List.cons.inj hheard).1
  have hopening : word ∈ transferNames → awaits = .opening := by
    intro hmem
    have hown : requestWord r.line ∈ Awaits.opening.words := hword ▸ hmem
    exact (awaits_of_word (word_of_isFor hfor).2 hown).1.mpr rfl
  -- a reply that announces a transfer does not end its round
  have htwo : word ∈ transferNames → x.reply.isPreliminary = true → r.heard.length = 2 := by
    intro hmem hpre
    have hopens : Opens response := by
      rw [hfirst]
      exact (opens_iff x).mpr (code_of_isPreliminary hpre)
    cases hr with
    | single hfor' hopens' =>
      obtain ⟨hx, -⟩ := List.cons.inj hrheard
      obtain ⟨rfl, rfl⟩ := Prod.mk.inj hx
      exact absurd hopens (hopens' (hopening hmem))
    | transfer hfor' hopens' => rfl
  have hone : 1 ≤ r.heard.length := by
    rw [hrheard, List.length_cons]
    omega
  rw [List.cons_append, List.map_cons, List.map_append] at h
  rw [List.length_cons] at hle ⊢
  generalize hl : x.reply :: (late.map Written.reply ++ due.map Written.reply) = l at h
  cases h with
  | said hfinal =>
    obtain ⟨-, hnil⟩ := List.cons.inj hl
    obtain ⟨hlate, hdue⟩ := List.append_eq_nil_iff.mp hnil
    obtain rfl := List.map_eq_nil_iff.mp hlate
    rw [List.length_nil] at hle ⊢
    exact ⟨rfl, List.map_eq_nil_iff.mp hdue, by omega⟩
  | waits hmem => cases hl
  | ran hmem hcut =>
    cases hcut with
    | silent => cases hl
    | opened hpre =>
      obtain ⟨hx, hnil⟩ := List.cons.inj hl
      obtain ⟨hlate, -⟩ := List.append_eq_nil_iff.mp hnil
      obtain rfl := List.map_eq_nil_iff.mp hlate
      have := htwo hmem (by rw [hx]; exact hpre)
      rw [List.length_nil] at hle
      omega
    | answered hfinal =>
      obtain ⟨-, hnil⟩ := List.cons.inj hl
      obtain ⟨hlate, hdue⟩ := List.append_eq_nil_iff.mp hnil
      obtain rfl := List.map_eq_nil_iff.mp hlate
      rw [List.length_nil] at hle ⊢
      exact ⟨rfl, List.map_eq_nil_iff.mp hdue, by omega⟩
    | whole hpre hfinal =>
      obtain ⟨hx, hrest⟩ := List.cons.inj hl
      have htwo := htwo hmem (by rw [hx]; exact hpre)
      have hlengths := congrArg List.length hrest
      rw [List.length_append, List.length_map, List.length_map, List.length_singleton] at hlengths
      exact ⟨rfl, List.eq_nil_of_length_eq_zero (by omega), by omega⟩

/-- The client is let in exactly if the reply to its `PASS` is a 230. -/
theorem grants_iff (hr : r.Whole) (hword : word = requestWord r.line)
    (hheard : r.heard.map Prod.snd = late.map fun x => some (cstr x.reply.text)) :
    r.Grants ↔ word = lit "PASS" ∧ ∃ x ∈ late, x.reply.code = some 230 := by
  have hpass : ∀ awaits, IsFor r.line awaits → (word = lit "PASS" ↔ awaits = .pass) := by
    intro awaits hfor
    have hmem := (word_of_isFor hfor).2
    rw [← hword] at hmem
    constructor
    · intro hw
      have hown : word ∈ Awaits.pass.words := by
        rw [hw]
        decide
      exact (awaits_of_word hmem hown).2.mpr rfl
    · rintro rfl
      exact List.mem_singleton.mp hmem
  constructor
  · rintro ⟨text, hgrants, hcode⟩
    obtain ⟨awaits, response, rest, hrheard, hfor⟩ := hr.isFor
    rw [hgrants] at hrheard
    obtain ⟨hx, -⟩ := List.cons.inj hrheard
    obtain ⟨rfl, -⟩ := Prod.mk.inj hx
    rw [hgrants] at hheard
    cases late with
    | nil => cases hheard
    | cons x late =>
      obtain ⟨htext, -⟩ := List.cons.inj hheard
      rw [Option.some.inj htext] at hcode
      exact ⟨(hpass _ hfor).mpr rfl, x, List.mem_cons_self, (hasCode_reply x.reply).2.mp hcode⟩
  · rintro ⟨hw, x, hx, hcode⟩
    cases hr with
    | single hfor hopens =>
      obtain rfl := (hpass _ hfor).mp hw
      cases late with
      | nil => cases hx
      | cons y late =>
        obtain ⟨hy, hnil⟩ := List.cons.inj hheard
        obtain rfl := List.map_eq_nil_iff.mp hnil.symm
        obtain rfl := List.mem_singleton.mp hx
        exact ⟨_, congrArg (fun response => [(Awaits.pass, response)]) hy,
          (hasCode_reply x.reply).2.mpr hcode⟩
    | transfer hfor hopens => exact absurd ((hpass _ hfor).mp hw) (by simp)

end

/-! ## The invariant -/

/-- The lines the children that are still to run belong to, with their clients. -/
def tasks (w : Wires) : List (ConnId × Nat) :=
  (w.sessions.world.children.map Prod.fst).zip w.forked

/-- Where the client is after `n` lines, given what it was told before the last of them and the
answer to it. -/
inductive Stage (log : List Said) (id next : ConnId) (children : List (ConnId × Nat))
    (record : Option Connection) (early answer : List Written) : Nat → Prop
  | absent (hid : next ≤ id) (hearly : early = []) (hanswer : answer = [])
      (hchildren : children = []) : Stage log id next children record early answer 0
  | greeted (hid : id < next) (hearly : early = []) (hanswer : answer.length ≤ 1)
      (hchildren : children = []) (hlogin : ∀ c, record = some c → c.loggedIn = false) :
      Stage log id next children record early answer 0
  | asked {n : Nat} {text : CStr} (hid : id < next)
    (htext : (log.filterMap Said.line)[n]? = some text)
      (hearly : early.map heardAs = heardBy log n)
      (hanswer : Answering id (n + 1) (requestWord text) children (answer.map Written.reply))
      (hlogin : ∀ c, record = some c → (c.loggedIn = true ↔
        LetInBy log n ∨
          (requestWord text = lit "PASS" ∧ ∃ x ∈ answer, x.reply.code = some 230))) :
      Stage log id next children record early answer (n + 1)

/-- What holds of every state. -/
structure Orderly (u : Setup) (w : Wires) : Prop where
  reachable : (sessions u).Reachable w.sessions
  length : w.forked.length = w.sessions.world.children.length
  own : ∀ j, ∀ x ∈ source w j, ∀ y ∈ source w j, x.client = y.client

/-- What holds of the client `id` while it keeps to its side. -/
structure Tracked (u : Setup) (log : List Said) (id : ConnId) (w : Wires) : Prop
    extends Orderly u w where
  up : w.sessions.world.os.hungup id = false
  course : ∃ early late due, toldTo w id = early ++ late ∧
    OnlyIn (·.client == id) (source w) due ∧ (∀ x ∈ late ++ due, x.line = w.lines id) ∧
    Stage log id w.sessions.world.nextId ((tasks w).filter (·.1 == id))
      (w.sessions.conns id) early (late ++ due) (w.lines id)

section

variable {u : Setup} {replies : List (Option (List Byte))} {log : List Said} {rounds : List Round}
  {last : List CStr} {w w' : Wires} {id : ConnId} {n : Nat} {line : CStr}

theorem Orderly.idle (h : Orderly u w) (hnone : (tasks w).filter (·.1 == id) = []) :
    ∀ x ∈ w.sessions.world.children, x.1 ≠ id := by
  intro x hx hid
  have hmem : x.1 ∈ (tasks w).map Prod.fst := by
    unfold tasks
    rw [List.map_fst_zip (by rw [List.length_map, h.length])]
    exact List.mem_map_of_mem hx
  obtain ⟨y, hy, hyx⟩ := List.mem_map.mp hmem
  have hpicked : y ∈ (tasks w).filter (·.1 == id) :=
    List.mem_filter.mpr ⟨hy, by rw [hyx, hid]; exact beq_self_eq_true id⟩
  rw [hnone] at hpicked
  cases hpicked

theorem silent_of_onlyIn (h : OnlyIn (·.client == id) (source w) []) :
    ∀ j, ∀ x ∈ source w j, x.client ≠ id := by
  intro j x hx hid
  have hpicked : x ∈ (source w j).filter (·.client == id) :=
    List.mem_filter.mpr ⟨hx, by rw [hid]; exact beq_self_eq_true id⟩
  rw [onlyIn_nil_iff.mp h j] at hpicked
  cases hpicked

/-- The line a round begins with, or the last `QUIT`. -/
theorem isFor_of_sent {text : CStr} (hspeaks : SpeaksInRounds replies log rounds last)
    (h : (log.filterMap Said.line)[n]? = some text) :
    (∃ r, rounds[n]? = some r ∧ r.Whole ∧ text = r.line) ∨
      (rounds.length = n ∧ (log.filterMap Said.line)[n + 1]? = none ∧ IsFor text .quit) := by
  rw [hspeaks.lines] at h ⊢
  by_cases hlt : n < rounds.length
  · refine .inl ⟨rounds[n], List.getElem?_eq_getElem hlt,
      hspeaks.whole _ (List.getElem_mem hlt), ?_⟩
    rw [List.getElem?_append_left (by rw [List.length_map]; exact hlt), List.getElem?_map,
      List.getElem?_eq_getElem hlt] at h
    exact (Option.some.inj h).symm
  · rw [List.getElem?_append_right (by rw [List.length_map]; omega), List.length_map] at h
    rcases hspeaks.last with hnil | hquit
    · rw [hnil] at h
      cases h
    · rw [hquit] at h ⊢
      have hzero : n - rounds.length = 0 := by
        have := (List.getElem?_eq_some_iff.mp h).1
        rw [List.length_singleton] at this
        omega
      rw [hzero] at h
      obtain rfl := Option.some.inj h
      refine .inr ⟨by omega, List.getElem?_eq_none ?_,
        ⟨lit "QUIT", List.mem_singleton_self _, .inl rfl⟩⟩
      rw [List.length_append, List.length_map, List.length_singleton]
      omega

theorem rounds_of_sent {text : CStr} (hspeaks : SpeaksInRounds replies log rounds last)
    (h : (log.filterMap Said.line)[n]? = some text) : n ≤ rounds.length := by
  rcases isFor_of_sent hspeaks h with ⟨r, hr, -, -⟩ | ⟨hlength, -, -⟩
  · exact Nat.le_of_lt (List.getElem?_eq_some_iff.mp hr).1
  · exact Nat.le_of_eq hlength.symm

/-- **Before a line.** When the client sends its next line, both sides are abreast. -/
theorem Tracked.abreast (hI : Tracked u log id w)
    (hspeaks : SpeaksInRounds replies log rounds last)
    (hsends : SendsLine replies log id w line) : Abreast log id w := by
  obtain ⟨early, late, due, htold, hdue, hlines, hstage⟩ := hI.course
  obtain ⟨hreads, ⟨text, htext, -, -, -⟩, hlength⟩ := hsends
  have hhadHeard := heardBy_told hspeaks hreads (rounds_of_sent hspeaks htext) hlength
  -- it is enough that there is nothing left, and that the client has heard as much as it was told
  have hsame : ∀ {m : Nat}, w.lines id = m → due = [] →
      (toldTo w id).length = (heardBy log m).length →
      (toldTo w id).map (fun x => x.line) = (heardBy log m).map Prod.fst →
      (tasks w).filter (·.1 == id) = [] →
      (∀ c, w.sessions.conns id = some c →
        (c.loggedIn = true ↔ LetInBy log m)) → Abreast log id w := by
    intro m hm hnil hlen hfst hnone hlogin
    subst hm
    refine ⟨hI.idle hnone, silent_of_onlyIn (hnil ▸ hdue), ?_, hlogin⟩
    rw [← hlen, List.take_length] at hhadHeard
    have hzip : ∀ l : List Written, l.map heardAs =
        (l.map fun x => x.line).zip (l.map fun x => some (cstr x.reply.text)) :=
      fun _ => List.zip_map'.symm
    rw [hzip, hfst, ← hhadHeard, ← List.unzip_fst, ← List.unzip_snd]
    exact List.zip_unzip _
  generalize hm : w.lines id = m at hstage
  rw [hm] at hlines hlength htext hhadHeard
  cases hstage with
  | absent hid hearly hanswer hchildren =>
    rw [htold, hearly, (List.append_eq_nil_iff.mp hanswer).1, heardBy_zero hspeaks] at hlength
    cases hlength
  | greeted hid hearly hanswer hchildren hlogin =>
    have hone : (heardBy log 0).length = 1 := by
      rw [heardBy_zero hspeaks]
      rfl
    rw [htold, hearly, List.nil_append, hone] at hlength
    rw [List.length_append] at hanswer
    have hnil : due = [] := List.eq_nil_of_length_eq_zero (by omega)
    refine hsame hm hnil ?_ ?_ hchildren fun c hc => ?_
    · rw [htold, hearly, List.nil_append, hone]
      omega
    · obtain ⟨x, rfl⟩ : ∃ x, late = [x] := List.length_eq_one_iff.mp (by omega)
      rw [htold, hearly, List.nil_append, List.map_singleton, hlines x (by simp),
        heardBy_zero hspeaks]
      rfl
    · rw [hlogin c hc, letInBy_iff hspeaks (Nat.zero_le _)]
      simp
  | @asked n text' hid htext' hearly hanswer hlogin =>
    -- the line that is answered begins a round, because another one follows it
    rcases isFor_of_sent hspeaks htext' with ⟨r, hr, hwhole, rfl⟩ | ⟨-, hlast, -⟩
    · have hlen : early.length = (heardBy log n).length := by
        rw [← List.length_map (f := heardAs), hearly]
      have hsucc : heardBy log (n + 1) =
          heardBy log n ++ r.heard.map (fun x => (n + 1, x.2)) := heardBy_succ hspeaks hr
      have hle : r.heard.length ≤ late.length := by
        rw [hsucc, htold, List.length_append, List.length_append, List.length_map] at hlength
        omega
      have hheard : r.heard.map Prod.snd =
          (late.take r.heard.length).map fun x => some (cstr x.reply.text) := by
        rw [hsucc, htold, List.map_append, List.map_map, List.length_append,
          List.length_map, ← hlen,
          List.take_length_add_append, List.map_append] at hhadHeard
        exact (List.append_inj hhadHeard (by rw [List.length_map, List.length_map, hlen])).2
      obtain ⟨hnone, hnil, hall⟩ := hanswer.complete hwhole rfl hheard hle
      rw [← hall, List.take_length] at hheard
      refine hsame hm hnil ?_ ?_ hnone fun c hc => ?_
      · rw [hsucc, htold, List.length_append, List.length_append, List.length_map, hlen, hall]
      · have hfst : early.map (fun x => x.line) = (heardBy log n).map Prod.fst := by
          rw [← hearly, List.map_map]
          rfl
        rw [hsucc, htold, List.map_append, List.map_append, hfst, List.map_map]
        refine congrArg _ ?_
        -- all of the answer is for this line
        have hlate : ∀ b ∈ late.map (fun x => x.line), b = n + 1 := by
          intro b hb
          obtain ⟨x, hx, rfl⟩ := List.mem_map.mp hb
          exact hlines x (List.mem_append_left _ hx)
        rw [List.eq_replicate_of_mem hlate, List.length_map, hall]
        exact (List.map_const' ..).symm
      · obtain ⟨hlt, -⟩ := List.getElem?_eq_some_iff.mp hr
        rw [hlogin c hc, letInBy_iff hspeaks (Nat.le_of_lt hlt), letInBy_iff hspeaks hlt,
          List.take_add_one, hr, Option.toList_some]
        rw [hnil, List.append_nil, ← grants_iff hwhole rfl hheard]
        simp [or_and_right, exists_or]
    · rw [hlast] at htext
      cases htext

/-! ## What an event does -/

/-- An event is one of the server, after which some queue has what was said, or the first reply
of a queue is written. -/
theorem step_wires {e : WireEvent} (h : w.step u.server e = .ok w') :
    (∃ e' S', e = .session e' ∧ (e'.isParents = true → w.parent = []) ∧
        w.sessions.step u.server e' = .ok S' ∧ w' = w.after S' e') ∨
      ∃ j x rest l, source w j = x :: rest ∧
        (l = rest ∨ (l = [] ∧ w.sessions.world.os.hungup x.client = true)) ∧
        w'.sessions = w.sessions ∧ w'.lines = w.lines ∧ w'.forked = w.forked ∧
        source w' = Function.update (source w) j l ∧ w'.wire = w.wire ++ w.arrives x := by
  cases e with
  | session e' =>
    unfold Wires.step at h
    dsimp only at h
    split at h
    next => cases h
    next hfree =>
      obtain ⟨S', hS', rfl⟩ := Server.map_eq_ok h
      exact .inl ⟨e', S', rfl, fun hp => by_contra fun hne => hfree ⟨hp, hne⟩, hS', rfl⟩
  | write =>
    unfold Wires.step at h
    dsimp only at h
    split at h
    next => cases h
    next x rest hparent =>
      split at h
      next => cases h
      next =>
        cases h
        refine .inr ⟨0, x, rest, rest, hparent, .inl rfl, rfl, rfl, rfl, ?_, rfl⟩
        funext j
        cases j with
        | zero => rw [Function.update_self]; rfl
        | succ j => rw [Function.update_of_ne (by omega)]; rfl
  | childWrites i =>
    unfold Wires.step at h
    dsimp only at h
    split at h
    next x rest hi =>
      cases h
      have hlt := (List.getElem?_eq_some_iff.mp hi).1
      refine .inr ⟨i + 1, x, rest, if w.kills x then [] else rest, ?_, ?_, rfl, rfl, rfl, ?_, rfl⟩
      · show w.children[i]?.getD [] = _
        rw [hi, Option.getD_some]
      · split
        next hk =>
          unfold Wires.kills at hk
          rw [Bool.and_eq_true] at hk
          exact .inr ⟨rfl, hk.1⟩
        next => exact .inl rfl
      · funext j
        cases j with
        | zero => rw [Function.update_of_ne (by omega)]; rfl
        | succ j =>
          show (w.children.set i _)[j]?.getD [] = _
          by_cases hj : j = i
          · rw [hj, Function.update_self, List.getElem?_set_self hlt, Option.getD_some]
          · rw [Function.update_of_ne (by omega), List.getElem?_set_ne (fun h => hj h.symm)]
            rfl
    next => cases h

/-- What the server process has said is in its queue. -/
theorem source_parent (w : Wires) {v : Wires} {l : List Written} (hparent : v.parent = l)
    (hchildren : v.children = w.children) : source v = Function.update (source w) 0 l := by
  funext j
  cases j with
  | zero => rw [Function.update_self]; exact hparent
  | succ j =>
    rw [Function.update_of_ne (by omega)]
    show v.children[j]?.getD [] = w.children[j]?.getD []
    rw [hchildren]

/-- What a child has said is in a queue of its own. -/
theorem source_child (w : Wires) {v : Wires} {l : List Written} (hparent : v.parent = w.parent)
    (hchildren : v.children = w.children ++ [l]) :
    source v = Function.update (source w) (w.children.length + 1) l := by
  funext j
  cases j with
  | zero => rw [Function.update_of_ne (by omega)]; exact hparent
  | succ j =>
    show v.children[j]?.getD [] = _
    rw [hchildren]
    by_cases hj : j = w.children.length
    · rw [hj, Function.update_self, List.getElem?_append_right (Nat.le_refl _), Nat.sub_self]
      rfl
    · rw [Function.update_of_ne (by omega)]
      show _ = w.children[j]?.getD []
      by_cases hlt : j < w.children.length
      · rw [List.getElem?_append_left hlt]
      · rw [List.getElem?_append_right (by omega),
          List.getElem?_eq_none (l := w.children) (by omega),
          List.getElem?_eq_none (by rw [List.length_singleton]; omega)]

/-- Only hanging up makes a client go. -/
theorem hungup_of_step {S S' : Sessions} {e : SessionEvent}
    (h : S.step u.server e = .ok S') (hne : ∀ id', e ≠ .hangup id') :
    S'.world.os.hungup = S.world.os.hungup := by
  cases e with
  | accept fd addr served =>
    obtain ⟨⟨c, W⟩, hacc, rfl⟩ := Server.map_eq_ok h
    obtain ⟨-, -, rfl⟩ := Server.World.accept_eq_ok hacc
    rfl
  | line id line ans =>
    have hline : S.handleLine u.server id line ans = .ok S' := h
    unfold Server.Sessions.handleLine at hline
    split at hline
    next => cases hline
    next c hc =>
      obtain ⟨⟨stays, c', W⟩, hexec, rfl⟩ := Server.map_eq_ok hline
      obtain ⟨s, hp, -, rfl⟩ := Server.World.exec_eq_ok hexec
      exact Server.hungup_of_handleConnection hp
  | child k cans =>
    obtain ⟨W, hW, rfl⟩ := Server.map_eq_ok h
    obtain ⟨id, child, s, -, -, rfl⟩ := Server.World.runChild_eq_ok hW
    rfl
  | hangup id' => exact absurd rfl (hne id')
  | dataConnect fd =>
    obtain ⟨W, hW, rfl⟩ := Server.map_eq_ok h
    obtain ⟨pending, -, rfl⟩ := Server.World.dataConnect_eq_ok hW
    rfl

/-- Queues stay queues of one client each. -/
theorem own_update {j : Nat} {l : List Written}
    (hown : ∀ j, ∀ x ∈ source w j, ∀ y ∈ source w j, x.client = y.client)
    (hl : ∀ x ∈ l, ∀ y ∈ l, x.client = y.client)
      (hsource : source w' = Function.update (source w) j l) :
    ∀ i, ∀ x ∈ source w' i, ∀ y ∈ source w' i, x.client = y.client := by
  intro i
  rw [hsource]
  by_cases hi : i = j
  · rw [hi, Function.update_self]
    exact hl
  · rw [Function.update_of_ne hi]
    exact hown i

theorem numbered_own {n : Nat} {id' : ConnId} {l : List (ConnId × Reply)}
    (hl : ∃ replies : List Reply, l = replies.map (id', ·)) :
    ∀ x ∈ Server.numbered n l, x.client = id' ∧ x.line = n := by
  obtain ⟨said, rfl⟩ := hl
  exact fun x hx => Server.mem_numbered hx

/-- To whom something is said in the course of an event, and which children there are then. -/
structure SaidTo (S S' : Sessions) (id' : ConnId) : Prop where
  sent : ∃ l : List Reply, S'.world.sent = S.world.sent ++ l.map (id', ·)
  conns : ∀ id, id ≠ id' → S'.conns id = S.conns id
  next : S.world.nextId ≤ S'.world.nextId
  absent : ∀ id, id ≠ id' → S.world.nextId ≤ id → S'.world.nextId ≤ id

theorem SaidTo.numbered {S S' : Sessions} {id' : ConnId} (h : SaidTo S S' id') (n : Nat) :
    ∀ x ∈ Server.numbered n (Server.newSent S S'), x.client = id' ∧ x.line = n := by
  obtain ⟨l, hl⟩ := h.sent
  rw [Server.newSent_of_sent hl]
  exact numbered_own ⟨l, rfl⟩

theorem accept_said {S S' : Sessions} {fd : Server.Fd} {addr : Server.SockAddr} {served : Bool}
    (h : S.step u.server (.accept fd addr served) = .ok S') :
    SaidTo S S' S.world.nextId ∧ S'.world.children = S.world.children ∧
      (Server.newSent S S').length ≤ 1 ∧ S.world.nextId < S'.world.nextId ∧
      ∀ c, S'.conns S.world.nextId = some c → S.conns S.world.nextId = none → c.loggedIn =
        false := by
  obtain ⟨⟨c, W⟩, hacc, rfl⟩ := Server.map_eq_ok h
  obtain ⟨-, rfl, rfl⟩ := Server.World.accept_eq_ok hacc
  have hsent : ∃ l : List Reply, l.length ≤ 1 ∧
      (if S.world.os.hungup S.world.nextId then [] else [(S.world.nextId, Reply.serviceReady)]) =
        l.map (S.world.nextId, ·) := by
    cases S.world.os.hungup S.world.nextId with
    | true => exact ⟨[], by simp, rfl⟩
    | false => exact ⟨[.serviceReady], by simp, rfl⟩
  obtain ⟨l, hlen, hl⟩ := hsent
  refine ⟨⟨⟨l, congrArg (S.world.sent ++ ·) hl⟩, fun id hid => ?_, Nat.le_succ _,
    fun id hid hle => ?_⟩, rfl, ?_, Nat.lt_succ_self _, fun c hc hnone => ?_⟩
  · cases served with
    | true => exact Function.update_of_ne hid _ _
    | false => rfl
  · exact Nat.lt_of_le_of_ne hle (Ne.symm hid)
  · rw [Server.newSent_of_sent (congrArg (S.world.sent ++ ·) hl), List.length_map]
    exact hlen
  · cases served with
    | true =>
      have hnew : Function.update S.conns S.world.nextId
        (some (Server.initConnection u.server fd addr)) S.world.nextId = some c := hc
      rw [Function.update_self] at hnew
      cases hnew
      rfl
    | false =>
      have hold : S.conns S.world.nextId = some c := hc
      rw [hnone] at hold
      cases hold

theorem line_saidTo {S S' : Sessions} {id' : ConnId} {ans : Server.Answers}
    (hreach : (sessions u).Reachable S) (h : S.step u.server (.line id' line ans) = .ok S') :
    SaidTo S S' id' ∧ S'.world.nextId = S.world.nextId ∧ (S'.world.children = S.world.children ∨
      ∃ child, S'.world.children = S.world.children ++ [(id', child)]) := by
  obtain ⟨l, hsent, hchildren⟩ := Server.line_says hreach h
  have hline : S.handleLine u.server id' line ans = .ok S' := h
  have hrest : S'.world.nextId = S.world.nextId ∧ ∀ id, id ≠ id' → S'.conns id = S.conns id := by
    unfold Server.Sessions.handleLine at hline
    split at hline
    next => cases hline
    next c hc =>
      obtain ⟨⟨stays, c', W⟩, hexec, rfl⟩ := Server.map_eq_ok hline
      obtain ⟨s, -, -, rfl⟩ := Server.World.exec_eq_ok hexec
      exact ⟨rfl, fun id hid => Server.handled_of_ne hid ..⟩
  refine ⟨⟨⟨l, hsent⟩, hrest.2, hrest.1.ge, fun id _ hle => ?_⟩, hrest.1, hchildren⟩
  rw [hrest.1]
  exact hle

theorem child_saidTo {S S' : Sessions} {k : Nat} {cans : Server.ChildAnswers}
    (hreach : (sessions u).Reachable S) (h : S.step u.server (.child k cans) = .ok S') :
    ∃ id' child, S.world.children[k]? = some (id', child) ∧ SaidTo S S' id' ∧
      S'.world.nextId = S.world.nextId ∧ S'.conns = S.conns ∧
        S'.world.children = S.world.children.eraseIdx k := by
  obtain ⟨W, hW, rfl⟩ := Server.map_eq_ok h
  obtain ⟨id', child, s, hk, -, rfl⟩ := Server.World.runChild_eq_ok hW
  obtain ⟨hchildren, l, hsent⟩ := Server.child_says hreach hk h
  exact ⟨id', child, hk, ⟨⟨l, hsent⟩, fun _ _ => rfl, Nat.le_refl _, fun _ _ hle => hle⟩, rfl, rfl,
    hchildren⟩

theorem Orderly.step {e : WireEvent} (hO : Orderly u w) (h : w.step u.server e = .ok w') :
    Orderly u w' := by
  rcases step_wires h with ⟨e', S', rfl, hfree, hS', rfl⟩ |
    ⟨j, x, rest, l, hj, hl, hsessions, -, hforked, hsource, -⟩
  · have hreach : (sessions u).Reachable S' := Server.reachable_step hO.reachable hS'
    have hone : ∀ {id' : ConnId} {n : Nat}, SaidTo w.sessions S' id' →
        ∀ x ∈ Server.numbered n (Server.newSent w.sessions S'),
          ∀ y ∈ Server.numbered n (Server.newSent w.sessions S'), x.client = y.client :=
      fun hsaid x hx y hy => (hsaid.numbered _ x hx).1.trans (hsaid.numbered _ y hy).1.symm
    cases e' with
    | accept fd addr served =>
      obtain ⟨hsaid, hchildren, -⟩ := accept_said hS'
      refine ⟨hreach, hO.length.trans (congrArg List.length hchildren.symm), ?_⟩
      exact own_update hO.own (hone hsaid) (source_parent w rfl rfl)
    | line id' line ans =>
      obtain ⟨hsaid, -, hchildren⟩ := line_saidTo hO.reachable hS'
      refine ⟨hreach, ?_, own_update hO.own (hone hsaid) (source_parent w rfl rfl)⟩
      show (w.forked ++ List.replicate _ _).length = S'.world.children.length
      rw [List.length_append, List.length_replicate, hO.length]
      rcases hchildren with hsame | ⟨child, hmore⟩
      · rw [hsame]
        omega
      · rw [hmore, List.length_append]
        omega
    | child k cans =>
      obtain ⟨id', child, -, hsaid, -, -, hchildren⟩ := child_saidTo hO.reachable hS'
      refine ⟨hreach, ?_, own_update hO.own (hone hsaid) (source_child w rfl rfl)⟩
      show (w.forked.eraseIdx k).length = S'.world.children.length
      rw [hchildren, List.length_eraseIdx, List.length_eraseIdx, hO.length]
    | hangup id' =>
      cases hS'
      exact ⟨hreach, hO.length, hO.own⟩
    | dataConnect fd =>
      obtain ⟨W, hW, rfl⟩ := Server.map_eq_ok hS'
      obtain ⟨pending, -, rfl⟩ := Server.World.dataConnect_eq_ok hW
      exact ⟨hreach, hO.length, hO.own⟩
  · refine ⟨by rw [hsessions]; exact hO.reachable, by rw [hforked, hsessions]; exact hO.length,
      own_update hO.own ?_ hsource⟩
    rcases hl with rfl | ⟨rfl, -⟩
    · intro y hy z hz
      exact hO.own j y (by rw [hj]; exact List.mem_cons_of_mem _ hy) z
        (by rw [hj]; exact List.mem_cons_of_mem _ hz)
    · intro y hy
      cases hy

/-! ## Events of others -/

/-- A later number for the next client makes no difference to a client that was there. -/
theorem Stage.next {next next' : ConnId} {children : List (ConnId × Nat)}
    {record : Option Connection} {early answer : List Written}
    (h : Stage log id next children record early answer n) (hle : next ≤ next')
    (habsent : next ≤ id → next' ≤ id) :
    Stage log id next' children record early answer n := by
  cases h with
  | absent hid hearly hanswer hchildren => exact .absent (habsent hid) hearly hanswer hchildren
  | greeted hid hearly hanswer hchildren hlogin =>
    exact .greeted (Nat.lt_of_lt_of_le hid hle) hearly hanswer hchildren hlogin
  | asked hid htext hearly hanswer hlogin =>
    exact .asked (Nat.lt_of_lt_of_le hid hle) htext hearly hanswer hlogin

/-- An event that changes nothing for the client but what of its answer is written. -/
theorem Tracked.frame {moved : List Written} (hI : Tracked u log id w)
    (hO : Orderly u w') (hup : w'.sessions.world.os.hungup id = w.sessions.world.os.hungup id)
    (hlines : w'.lines id = w.lines id) (htold : toldTo w' id = toldTo w id ++ moved)
    (hdue : ∀ due, OnlyIn (·.client == id) (source w) due →
      ∃ due', due = moved ++ due' ∧ OnlyIn (·.client == id) (source w') due')
    (htasks : (tasks w').filter (·.1 == id) = (tasks w).filter (·.1 == id))
    (hconns : w'.sessions.conns id = w.sessions.conns id)
    (hnext : w.sessions.world.nextId ≤ w'.sessions.world.nextId)
    (habsent : w.sessions.world.nextId ≤ id → w'.sessions.world.nextId ≤ id) :
    Tracked u log id w' := by
  obtain ⟨early, late, due, hsplit, honly, hnumbers, hstage⟩ := hI.course
  obtain ⟨due', rfl, honly'⟩ := hdue due honly
  refine ⟨hO, hup.trans hI.up, early, late ++ moved, due', ?_, honly', ?_, ?_⟩
  · rw [htold, hsplit, List.append_assoc]
  · rw [hlines, List.append_assoc]
    exact hnumbers
  · rw [hlines, htasks, hconns, List.append_assoc]
    exact hstage.next hnext habsent

/-- The next reply of a queue is written. -/
theorem Tracked.write {j : Nat} {x : Written} {rest l : List Written}
    (hI : Tracked u log id w) (hO : Orderly u w') (hj : source w j = x :: rest)
    (hl : l = rest ∨ (l = [] ∧ w.sessions.world.os.hungup x.client = true))
    (hsessions : w'.sessions = w.sessions) (hlines : w'.lines = w.lines)
    (hforked : w'.forked = w.forked) (hsource : source w' = Function.update (source w) j l)
    (hwire : w'.wire = w.wire ++ w.arrives x) : Tracked u log id w' := by
  have hrest : ∀ moved, toldTo w' id = toldTo w id ++ moved →
      (∀ due, OnlyIn (·.client == id) (source w) due →
        ∃ due', due = moved ++ due' ∧ OnlyIn (·.client == id) (source w') due') →
      Tracked u log id w' := by
    intro moved htold hdue
    refine hI.frame hO (by rw [hsessions]) (by rw [hlines]) htold hdue ?_ (by rw [hsessions])
      (by rw [hsessions]) (by rw [hsessions]; exact fun h => h)
    unfold tasks
    rw [hsessions, hforked]
  have htold : toldTo w' id = toldTo w id ++ (w.arrives x).filter (·.client == id) := by
    unfold toldTo
    rw [hwire, List.filter_append]
  by_cases hx : x.client = id
  · -- it is a reply to the client
    have harrives : w.arrives x = [x] := by
      unfold Wires.arrives
      rw [hx, hI.up]
      rfl
    rw [harrives, List.filter_cons_of_pos (by rw [hx]; exact beq_self_eq_true id)] at htold
    refine hrest [x] htold fun due hdue => ?_
    obtain rfl : l = rest := by
      rcases hl with h | ⟨-, h⟩
      · exact h
      · rw [hx, hI.up] at h
        cases h
    rw [hsource]
    exact hdue.take hj (by rw [hx]; exact beq_self_eq_true id)
  · -- it goes to another client, as does everything in its queue
    have hother : ∀ y ∈ x :: rest, (y.client == id) = false := by
      intro y hy
      have hsame := hI.own j x (by rw [hj]; exact List.mem_cons_self) y (by rw [hj]; exact hy)
      rw [← hsame]
      exact beq_false_of_ne hx
    have hnone : ∀ l' : List Written, l' ⊆ x :: rest → l'.filter (·.client == id) = [] := by
      intro l' hl'
      refine List.filter_eq_nil_iff.mpr fun y hy => ?_
      rw [hother y (hl' hy)]
      simp
    have harrives : (w.arrives x).filter (·.client == id) = [] := by
      unfold Wires.arrives
      split
      next => rfl
      next => exact hnone [x] (by simp)
    rw [harrives] at htold
    refine hrest [] htold fun due hdue => ⟨due, rfl, ?_⟩
    rw [hsource]
    refine hdue.update ?_
    rw [hj, hnone (x :: rest) (List.Subset.refl _)]
    rcases hl with rfl | ⟨rfl, -⟩
    · exact hnone _ (List.subset_cons_self ..)
    · rfl

/-! ## Events of the server -/

/-- The line of a child. -/
theorem Orderly.task (hO : Orderly u w) {k : Nat} {id' : ConnId} {child : Server.Child}
    (hk : w.sessions.world.children[k]? = some (id', child)) :
    ∃ n, w.forked[k]? = some n ∧ (tasks w)[k]? = some (id', n) := by
  have hlt : k < w.forked.length := by
    rw [hO.length]
    exact (List.getElem?_eq_some_iff.mp hk).1
  refine ⟨w.forked[k], List.getElem?_eq_getElem hlt, ?_⟩
  unfold tasks
  rw [List.getElem?_zip_eq_some, List.getElem?_map, hk]
  exact ⟨rfl, List.getElem?_eq_getElem hlt⟩

theorem tasks_child {S' : Sessions} {k : Nat} {cans : Server.ChildAnswers}
    (h : S'.world.children = w.sessions.world.children.eraseIdx k) :
    tasks (w.after S' (.child k cans)) = (tasks w).eraseIdx k := by
  show (S'.world.children.map Prod.fst).zip (w.forked.eraseIdx k) = _
  rw [h, tasks, ← zip_eraseIdx, List.eraseIdx_map]

theorem tasks_same {S' : Sessions} {id' : ConnId} {ans : Server.Answers}
    (h : S'.world.children = w.sessions.world.children) :
    tasks (w.after S' (.line id' line ans)) = tasks w := by
  show (S'.world.children.map Prod.fst).zip (w.forked ++ List.replicate _ _) = _
  rw [h, Nat.sub_self, List.replicate_zero, List.append_nil]
  rfl

theorem Orderly.tasks_more (hO : Orderly u w) {S' : Sessions} {id' : ConnId} {ans : Server.Answers}
    {child : Server.Child} (h : S'.world.children = w.sessions.world.children ++ [(id', child)]) :
    tasks (w.after S' (.line id' line ans)) = tasks w ++ [(id', w.lines id' + 1)] := by
  show (S'.world.children.map Prod.fst).zip (w.forked ++ List.replicate _ _) = _
  rw [h, List.length_append, Nat.add_sub_cancel_left, List.map_append,
    List.zip_append (by rw [List.length_map, hO.length])]
  rfl

/-- What is said to others is not picked. -/
theorem filter_numbered_of_ne {S' : Sessions} {id' : ConnId} (hsaid : SaidTo w.sessions S' id')
    (hne : id' ≠ id) (n : Nat) :
    (Server.numbered n (Server.newSent w.sessions S')).filter (·.client == id) = [] := by
  refine List.filter_eq_nil_iff.mpr fun x hx => ?_
  rw [(hsaid.numbered n x hx).1, beq_false_of_ne hne]
  simp

/-- What is said to the client is picked. -/
theorem filter_numbered_self {S' : Sessions} (hsaid : SaidTo w.sessions S' id) (n : Nat) :
    (Server.numbered n (Server.newSent w.sessions S')).filter (·.client == id) =
      Server.numbered n (Server.newSent w.sessions S') := by
  refine List.filter_eq_self.mpr fun x hx => ?_
  rw [(hsaid.numbered n x hx).1]
  exact beq_self_eq_true id

/-- A client is accepted. -/
theorem Tracked.accept {S' : Sessions} {fd : Server.Fd} {addr : Server.SockAddr} {served : Bool}
    (hI : Tracked u log id w)
    (hO : Orderly u (w.after S' (.accept fd addr served))) (hparent : w.parent = [])
    (h : w.sessions.step u.server (.accept fd addr served) = .ok S') :
    Tracked u log id (w.after S' (.accept fd addr served)) := by
  obtain ⟨hsaid, hchildren, hless, hnext, hlogin⟩ := accept_said h
  have hsource : source (w.after S' (.accept fd addr served)) =
      Function.update (source w) 0 (Server.numbered 0 (Server.newSent w.sessions S')) :=
    source_parent w rfl rfl
  have hup := congrFun (hungup_of_step h (by simp)) id
  have htasks : tasks (w.after S' (.accept fd addr served)) = tasks w := by
    show (S'.world.children.map Prod.fst).zip w.forked = _
    rw [hchildren]
    rfl
  by_cases hid : w.sessions.world.nextId = id
  · -- it is the client, who was not there before
    obtain ⟨early, late, due, htold, hdue, -, hstage⟩ := hI.course
    obtain ⟨events, hrun⟩ := hI.reachable
    have hfresh := (Server.fresh_of_run hrun id (Nat.le_of_eq hid)).1
    rw [hid] at hsaid hlogin
    generalize hm : w.lines id = m at hstage
    cases hstage with
    | absent hid' hearly hanswer hnone =>
      obtain ⟨hlate, hdueNil⟩ := List.append_eq_nil_iff.mp hanswer
      rw [hdueNil] at hdue
      refine ⟨hO, hup.trans hI.up, [], [], _, ?_, by rw [hsource]; exact hdue.fill, ?_, ?_⟩
      · show toldTo w id = _
        rw [htold, hearly, hlate]
      · intro x hx
        rw [List.nil_append, filter_numbered_self hsaid] at hx
        rw [(hsaid.numbered 0 x hx).2]
        exact hm.symm
      · show Stage log id S'.world.nextId _ _ _ _ (w.lines id)
        rw [hm, htasks, List.nil_append, filter_numbered_self hsaid]
        refine .greeted (by rw [← hid]; exact hnext) rfl ?_ hnone fun c hc => hlogin c hc hfresh
        unfold Server.numbered
        rw [List.length_map]
        exact hless
    | greeted hid' => exact absurd (Nat.lt_of_lt_of_eq hid' hid) (Nat.lt_irrefl _)
    | asked hid' => exact absurd (Nat.lt_of_lt_of_eq hid' hid) (Nat.lt_irrefl _)
  · refine hI.frame hO hup rfl (List.append_nil (toldTo w id)).symm (fun due hdue => ⟨due, rfl, ?_⟩)
      (by rw [htasks]) (hsaid.conns id (Ne.symm hid)) hsaid.next (hsaid.absent id (Ne.symm hid))
    rw [hsource]
    refine hdue.update ?_
    rw [filter_numbered_of_ne hsaid hid]
    show [] = w.parent.filter _
    rw [hparent]
    rfl

/-- Nobody is let in before the round of a `PASS`. -/
theorem no_grants (hspeaks : SpeaksInRounds replies log rounds last) {r : Round}
    (hr : rounds[n]? = some r) (hword : requestWord r.line = lit "PASS") : ¬ LetInBy log n := by
  obtain ⟨hlt, -⟩ := List.getElem?_eq_some_iff.mp hr
  obtain ⟨awaits, response, rest, hheard, hfor⟩ :=
    (hspeaks.whole r (List.mem_of_getElem? hr)).isFor
  have hown : requestWord r.line ∈ Awaits.pass.words := by
    rw [hword]
    decide
  obtain rfl := (awaits_of_word (word_of_isFor hfor).2 hown).2.mpr rfl
  rw [letInBy_iff hspeaks (Nat.le_of_lt hlt)]
  rintro ⟨r', hr', hgrants⟩
  cases hspeaks.session with
  | out hasking => exact (hasking r' (List.mem_of_mem_take hr')).2 hgrants
  | @inside asking commands grants hasking hgrants' hcommands =>
    by_cases hlt : n ≤ asking.length
    · rw [List.take_append_of_le_length hlt] at hr'
      exact (hasking r' (List.mem_of_mem_take hr')).2 hgrants
    · -- behind the round that lets the client in there is no `PASS` any more
      rw [List.getElem?_append_right (by omega)] at hr
      obtain ⟨m, hm⟩ : ∃ m, n - asking.length = m + 1 := ⟨n - asking.length - 1, by omega⟩
      rw [hm, List.getElem?_cons_succ] at hr
      have hnot := hcommands r (List.mem_of_getElem? hr) (.pass, response)
        (by rw [hheard]; exact List.mem_cons_self)
      exact hnot.2 rfl

/-- A line of the client is handled. -/
theorem Tracked.own_line {S' : Sessions} {ans : Server.Answers}
    (hI : Tracked u log id w) (hspeaks : SpeaksInRounds replies log rounds last)
    (hsends : SendsLine replies log id w line) (hO : Orderly u (w.after S' (.line id line ans)))
    (h : w.sessions.step u.server (.line id line ans) = .ok S') :
    Tracked u log id (w.after S' (.line id line ans)) := by
  have habreast := hI.abreast hspeaks hsends
  obtain ⟨-, ⟨text, htext, -, hnul, hread⟩, -⟩ := hsends
  obtain ⟨c, parsed, hc, hparse, -⟩ := Server.handleLine_eq_ok h
  -- the word the server gets is one that the client sends
  obtain ⟨awaits, hfor⟩ : ∃ awaits, IsFor text awaits := by
    rcases isFor_of_sent hspeaks htext with ⟨r, -, hwhole, rfl⟩ | ⟨-, -, hfor⟩
    · obtain ⟨awaits, -, -, -, hfor⟩ := hwhole.isFor
      exact ⟨awaits, hfor⟩
    · exact ⟨.quit, hfor⟩
  obtain ⟨command, hcommand, hword⟩ := word_of_line hfor hnul hread hparse
  have hmem : command.word ∈ requestNames := by
    rw [hword]
    exact words_subset awaits (word_of_isFor hfor).2
  obtain ⟨hsaid, hnext, -⟩ := line_saidTo hI.reachable h
  have hup := congrFun (hungup_of_step h (by simp)) id
  have hknown : id < w.sessions.world.nextId := by
    obtain ⟨events, hrun⟩ := hI.reachable
    by_contra hge
    rw [(Server.fresh_of_run hrun id (Nat.le_of_not_lt hge)).1] at hc
    cases hc
  have hidle : (tasks w).filter (·.1 == id) = [] := by
    refine List.filter_eq_nil_iff.mpr fun x hx => ?_
    have hfst : x.1 ∈ w.sessions.world.children.map Prod.fst := (List.of_mem_zip hx).1
    obtain ⟨y, hy, hyx⟩ := List.mem_map.mp hfst
    rw [← hyx, beq_false_of_ne (habreast.idle y hy)]
    simp
  have hsilent : OnlyIn (·.client == id) (source w) [] := by
    refine onlyIn_nil_iff.mpr fun j => List.filter_eq_nil_iff.mpr fun x hx => ?_
    rw [beq_false_of_ne (habreast.silent j x hx)]
    simp
  have hsource : source (w.after S' (.line id line ans)) =
      Function.update (source w) 0
        (Server.numbered (w.lines id + 1) (Server.newSent w.sessions S')) :=
    source_parent w rfl rfl
  have hlines : (w.after S' (.line id line ans)).lines id = w.lines id + 1 :=
    Function.update_self ..
  -- the login, if there is still a record
  have hlogin : ∀ l, Server.newSent w.sessions S' = l → ∀ c', S'.conns id = some c' →
      (c'.loggedIn = true ↔ LetInBy log (w.lines id) ∨
        (requestWord text = lit "PASS" ∧
          ∃ x ∈ Server.numbered (w.lines id + 1) l, x.reply.code = some 230)) := by
    intro l hl c' hc'
    obtain ⟨hother, hpass⟩ := Server.loggedIn_step hI.reachable hcommand hc hc' h
    rw [hword] at hother hpass
    by_cases hw : requestWord text = lit "PASS"
    · have hnone : ¬ LetInBy log (w.lines id) := by
        rcases isFor_of_sent hspeaks htext with ⟨r, hr, -, rfl⟩ | ⟨-, -, hquit⟩
        · exact no_grants hspeaks hr hw
        · have hbad := (word_of_isFor hquit).2
          rw [hw] at hbad
          exact absurd hbad (by decide)
      have hout : c.loggedIn = false := by
        have hnot := (not_congr (habreast.login c hc)).mpr hnone
        simpa using hnot
      obtain ⟨r, hsent, hr⟩ := hpass hw hout
      rw [← hl, Server.newSent_of_sent hsent, hr]
      constructor
      · exact fun hcode => .inr ⟨hw, _, List.mem_singleton_self _, hcode⟩
      · rintro (hgrants | ⟨-, x, hx, hcode⟩)
        · exact absurd hgrants hnone
        · rw [List.mem_singleton.mp hx] at hcode
          exact hcode
    · rw [hother hw, habreast.login c hc]
      exact ⟨.inl, fun h => h.resolve_right fun hp => hw hp.1⟩
  refine ⟨hO, hup.trans hI.up, toldTo w id, [], _, (List.append_nil _).symm,
    by rw [hsource]; exact hsilent.fill, ?_, ?_⟩
  · intro x hx
    rw [List.nil_append, filter_numbered_self hsaid] at hx
    rw [(hsaid.numbered _ x hx).2, hlines]
  · show Stage log id S'.world.nextId _ _ _ _ _
    rw [hlines, List.nil_append, filter_numbered_self hsaid]
    refine .asked (by rw [hnext]; exact hknown) htext habreast.heard ?_ (hlogin _ rfl)
    rcases Server.request_answered hI.reachable hI.up hcommand hmem h with
      ⟨r, hsent, hfinal, hchildren⟩ | ⟨hsent, htransfer, child, hchildren⟩
    · rw [Server.newSent_of_sent hsent, tasks_same hchildren, hidle]
      exact .said hfinal
    · have hnew : Server.newSent w.sessions S' = [] :=
        Server.newSent_of_sent (hsent.trans (List.append_nil _).symm)
      rw [hnew, hI.tasks_more hchildren, List.filter_append, hidle, List.nil_append,
        List.filter_cons_of_pos (by simp)]
      exact .waits (hword ▸ htransfer)

/-- A line of another client. -/
theorem Tracked.line_of_ne {S' : Sessions} {id' : ConnId} {ans : Server.Answers} (hne : id' ≠ id)
    (hI : Tracked u log id w) (hO : Orderly u (w.after S' (.line id' line ans)))
    (hparent : w.parent = []) (h : w.sessions.step u.server (.line id' line ans) = .ok S') :
    Tracked u log id (w.after S' (.line id' line ans)) := by
  obtain ⟨hsaid, -, hchildren⟩ := line_saidTo hI.reachable h
  have hsource : source (w.after S' (.line id' line ans)) =
      Function.update (source w) 0
        (Server.numbered (w.lines id' + 1) (Server.newSent w.sessions S')) :=
    source_parent w rfl rfl
  refine hI.frame hO (congrFun (hungup_of_step h (by simp)) id)
    (Function.update_of_ne (Ne.symm hne) ..) (List.append_nil (toldTo w id)).symm
    (fun due hdue => ⟨due, rfl, ?_⟩) ?_ (hsaid.conns id (Ne.symm hne)) hsaid.next
    (hsaid.absent id (Ne.symm hne))
  · rw [hsource]
    refine hdue.update ?_
    rw [filter_numbered_of_ne hsaid hne]
    show [] = w.parent.filter _
    rw [hparent]
    rfl
  · rcases hchildren with hsame | ⟨child, hmore⟩
    · rw [tasks_same hsame]
    · rw [hI.tasks_more hmore, List.filter_append, List.filter_cons_of_neg (by simpa using hne)]
      exact List.append_nil _

/-- A child runs. -/
theorem Tracked.child {S' : Sessions} {k : Nat} {cans : Server.ChildAnswers}
    (hI : Tracked u log id w) (hO : Orderly u (w.after S' (.child k cans)))
    (h : w.sessions.step u.server (.child k cans) = .ok S') :
    Tracked u log id (w.after S' (.child k cans)) := by
  obtain ⟨id', child, hk, hsaid, hnext, hconns, hchildren⟩ := child_saidTo hI.reachable h
  obtain ⟨n, hforked, htask⟩ := hI.task hk
  have hsource : source (w.after S' (.child k cans)) =
      Function.update (source w) (w.children.length + 1)
        (Server.numbered n (Server.newSent w.sessions S')) := by
    refine source_child w rfl ?_
    show w.children ++ [Server.numbered (w.forked[k]?.getD 0) _] = _
    rw [hforked, Option.getD_some]
  have hfree : source w (w.children.length + 1) = [] := by
    show w.children[w.children.length]?.getD [] = []
    rw [List.getElem?_eq_none (Nat.le_refl _)]
    rfl
  have hup := congrFun (hungup_of_step h (by simp)) id
  by_cases hid : id' = id
  · subst hid
    obtain ⟨early, late, due, htold, hdue, -, hstage⟩ := hI.course
    have hpicked : (id', n) ∈ (tasks w).filter (·.1 == id') :=
      List.mem_filter.mpr ⟨List.mem_of_getElem? htask, beq_self_eq_true id'⟩
    generalize hm : w.lines id' = m at hstage
    cases hstage with
    | absent _ _ _ hnone => rw [hnone] at hpicked; cases hpicked
    | greeted _ _ _ hnone => rw [hnone] at hpicked; cases hpicked
    | @asked m text hid htext hearly hanswer hlogin =>
      generalize hpick : (tasks w).filter (·.1 == id') = picked at hanswer hpicked
      generalize hreplies : (late ++ due).map Written.reply = l at hanswer
      cases hanswer with
      | said _ => cases hpicked
      | ran _ _ => cases hpicked
      | waits htransfer =>
        -- it was this child that the line waited for
        obtain ⟨hn, hrest⟩ := eq_of_filter_eraseIdx htask (beq_self_eq_true id') hpick
        obtain rfl : n = m + 1 := (Prod.mk.inj hn).2
        obtain ⟨rfl, rfl⟩ := List.append_eq_nil_iff.mp (List.map_eq_nil_iff.mp hreplies)
        obtain ⟨-, l, hsent, hcut⟩ := Server.child_utters hI.reachable hk h
        refine ⟨hO, hup.trans hI.up, early, [], _, htold, by rw [hsource]; exact hdue.fill, ?_, ?_⟩
        · intro x hx
          rw [List.nil_append, filter_numbered_self hsaid] at hx
          rw [(hsaid.numbered _ x hx).2]
          exact hm.symm
        · show Stage log id' S'.world.nextId _ (S'.conns id') _ _ (w.lines id')
          rw [hm, hnext, hconns, List.nil_append, filter_numbered_self hsaid, tasks_child hchildren,
            hrest, Server.newSent_of_sent hsent]
          have hmap : (Server.numbered (m + 1) (l.map (id', ·))).map Written.reply = l := by
            unfold Server.numbered
            rw [List.map_map, List.map_map]
            exact List.map_id l
          refine .asked hid htext hearly (by rw [hmap]; exact .ran htransfer hcut) fun c hc => ?_
          rw [hlogin c hc]
          refine or_congr_right (and_congr_right fun hpass => ?_)
          rw [hpass] at htransfer
          exact absurd htransfer (by decide)
  · refine hI.frame hO hup rfl (List.append_nil (toldTo w id)).symm (fun due hdue => ⟨due, rfl, ?_⟩)
      ?_ (congrFun hconns id) hsaid.next (hsaid.absent id (Ne.symm hid))
    · rw [hsource]
      refine hdue.update ?_
      rw [filter_numbered_of_ne hsaid hid, hfree]
      rfl
    · rw [tasks_child hchildren]
      exact filter_eraseIdx_of_not htask (beq_false_of_ne hid)

/-- Every event that meets the condition. -/
theorem Tracked.step {e : WireEvent} (hI : Tracked u log id w)
    (hspeaks : SpeaksInRounds replies log rounds last) (hC : Sends replies log id w e)
    (h : w.step u.server e = .ok w') : Tracked u log id w' := by
  have hO := hI.toOrderly.step h
  rcases step_wires h with ⟨e', S', rfl, hfree, hS', rfl⟩ |
    ⟨j, x, rest, l, hj, hl, hsessions, hlines, hforked, hsource, hwire⟩
  · cases e' with
    | accept fd addr served => exact hI.accept hO (hfree rfl) hS'
    | line id' line ans =>
      by_cases hid : id' = id
      · subst hid
        exact hI.own_line hspeaks (hC rfl) hO hS'
      · exact hI.line_of_ne hid hO (hfree rfl) hS'
    | child k cans => exact hI.child hO hS'
    | hangup id' =>
      have hne : id' ≠ id := hC
      cases hS'
      exact hI.frame hO (Function.update_of_ne (Ne.symm hne) ..) rfl
        (List.append_nil (toldTo w id)).symm (fun due hdue => ⟨due, rfl, hdue⟩) rfl rfl
        (Nat.le_refl _) fun hle => hle
    | dataConnect fd =>
      obtain ⟨W, hW, rfl⟩ := Server.map_eq_ok hS'
      obtain ⟨pending, -, rfl⟩ := Server.World.dataConnect_eq_ok hW
      exact hI.frame hO rfl rfl (List.append_nil (toldTo w id)).symm
        (fun due hdue => ⟨due, rfl, hdue⟩) rfl rfl (Nat.le_refl _) fun hle => hle
  · exact hI.write hO hj hl hsessions hlines hforked hsource hwire

theorem tracked_init (u : Setup) (log : List Said) (id : ConnId) :
    Tracked u log id (wires u).init := by
  have hnone : ∀ j, source (wires u).init j = [] := by
    intro j
    cases j with
    | zero => rfl
    | succ j => rfl
  refine ⟨⟨⟨[], rfl⟩, rfl, fun j x hx => ?_⟩, rfl, [], [], [], rfl, ?_, fun x hx => ?_, ?_⟩
  · rw [hnone j] at hx
    cases hx
  · exact onlyIn_nil_iff.mpr fun j => by rw [hnone j]; rfl
  · cases hx
  · exact .absent (Nat.zero_le id) rfl rfl rfl

end

/-- **Client and server keep abreast.** The client's program runs with some replies, and its log
says what it sends and reads, in which order. In every run in which the lines of the client `id`
are those it sends, each handled only after the client has read what it reads before sending it,
and in which the client stays connected, whatever other clients, children and writers do in
between: when a line of the client is handled, no child of it runs, no reply to it is on its way,
what it has heard are the replies it was told, each after its own line and before the next one,
and it is logged in exactly if it has heard that it is. -/
theorem abreast_of_run (u : Setup) (inputs : List (CStr × Calls))
    (replies : List (Option (List Byte))) (id : ConnId) (events : List WireEvent)
    (hmeets : (wires u).Meets (Sends replies (client inputs (.start replies)).2.log id) events) :
    (wires u).Meets (InStep (client inputs (.start replies)).2.log id) events := by
  obtain ⟨rounds, last, hspeaks⟩ := client_speaks inputs replies
  refine Machine.MeetsFrom.of_invariant (m := wires u)
    (I := Tracked u (client inputs (.start replies)).2.log id)
    (fun w e w' hI hC hstep => hI.step hspeaks hC hstep) (fun w e hI hC => ?_)
    (tracked_init u _ id) hmeets
  cases e with
  | session e' =>
    cases e' with
    | line id' line ans => exact fun hid => hI.abreast hspeaks (hC hid)
    | _ => trivial
  | write => trivial
  | childWrites j => trivial

/-- Somebody logs in, asks where they are, lists the directory and leaves. -/
def typed : List (CStr × Calls) :=
  ["anonymous\n", "\n", "pwd\n", "ls\n", "exit\n"].map fun line => (lit line, .fine 9)

/-- The replies of the server, and its greeting first. -/
def talkReplies : List (Option (List Byte)) :=
  [Reply.serviceReady, .specifyPassword, .loginSuccessful, .pathname [Server.srv, Server.ftp],
    .enteringPassive Server.inaddrLoopback 16 146, .hereComesListing, .directorySendOk].map
      fun r => some r.text

/-- The session over the wire, with another client that is accepted in the meantime. -/
def talk : List WireEvent :=
  [.session (.accept 4 ⟨Server.inaddrLoopback, 4000⟩ true), .write,
    .session (.line 0 (lit "USER anonymous") (.fine 7)), .write,
    .session (.line 0 (lit "PASS ") (.fine 7)), .write,
    .session (.accept 5 ⟨Server.inaddrLoopback, 4001⟩ true), .write,
    .session (.line 0 (lit "PWD\r") (.fine 7)), .write,
    .session (.line 0 (lit "PASV\r") (.fine 7)), .write, .session (.dataConnect 7),
    .session (.line 0 (lit "LIST .\r") (.fine 8)), .session (.child 0 (.fine [])),
    .session (.line 1 (lit "NOOP") (.fine 9)), .childWrites 0, .write, .childWrites 0,
    .session (.line 0 (lit "QUIT\r") (.fine 7)), .write]

theorem abreast_of_run_talk :
    (∃ w, (wires Server.smallSetup).run talk = .ok w ∧ w.lines 0 = 6) ∧
      (wires Server.smallSetup).Meets
        (InStep (client typed (.start talkReplies)).2.log 0) talk :=
  ⟨Machine.exists_of_run (by decide +kernel),
    abreast_of_run Server.smallSetup typed talkReplies 0 talk (by decide +kernel)⟩

end MyFtp.Wire
