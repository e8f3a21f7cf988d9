import MyFtp.Client.Commands
import MyFtp.Server.ReadAhead

/-!
# What the server makes of a request

`cd`, `get`, `put` and `ls` send a command with one argument. The argument has
passed the parser of the client, and passes the one of the server, which cuts
off what is blank at the end of the line.

> `request_understood_iff`: the server gets the command with that argument
> exactly when `put` has a name left behind the last slash and the first
> argument of `ls` does not end in white space (`Arrives`).

Both parsers are the same, so an argument arrives if it is neither empty nor
ends in white space (`understood_iff`). The last argument of a line that was
typed is such, because the line was trimmed; `ls` sends its first one.
-/

namespace MyFtp.Wire

open MyFtp.Posix
open MyFtp.Client
open MyFtp.Server (Command CommandStatus Halt touppercase parseBuffer readSocket readSocket_line
  words blank SingleSpaced ParsedAs parsedAs_of_ok parsedAs_of_singleSpaced adjacent_trim_iff trim
  getLast_trim exists_append_trim length_words_eq_iff countArgs)
open Prog

/-! ## What is meant, and what arrives -/

/-- The command that is sent for what was typed, and the path that is meant: the
argument, the last component of it for `put`, the first argument or `.` for
`ls`. -/
def meant (command : Command) : Option (CStr × CStr) :=
  if command.word = lit "CD" ∧ command.argc = 1 then some (lit "CWD", command.argv.headD [])
  else if command.word = lit "GET" ∧ command.argc = 1 then
    some (lit "RETR", command.argv.headD [])
  else if command.word = lit "PUT" ∧ command.argc = 1 then
    some (lit "STOR", getFilenameFromFilepath (command.argv.headD []))
  else if command.word = lit "LS" then some (lit "LIST", command.argv.head?.getD (lit "."))
  else none

/-- The commands that `read_socket` and `parse_buffer` make of some bytes. -/
def serverReads (bytes : List Byte) : List (Except Halt (Option Command)) :=
  (completeLines bytes).map fun line =>
    match readSocket line with
    | none => .ok none
    | some buffer => parseBuffer buffer

/-- The server gets one command, with one argument. -/
def Understood (bytes : List Byte) (word path : CStr) : Prop :=
  serverReads bytes = [.ok (some ⟨word, [path]⟩)]

instance (bytes : List Byte) (word path : CStr) : Decidable (Understood bytes word path) :=
  inferInstanceAs (Decidable (_ = _))

/-- There is something left of the path, and it does not end in white space. -/
def Arrives (command : Command) : Prop :=
  (command.word = lit "PUT" → getFilenameFromFilepath (command.argv.headD []) ≠ []) ∧
    (command.word = lit "LS" → ∀ path c, command.argv.head? = some path →
      path.getLast? = some c → isspace c = false)

/-- The last byte is not white space. -/
def Kept (path : CStr) : Prop := ∃ c, path.getLast? = some c ∧ isspace c = false

/-! ## The server's side -/

theorem isspace_of_blank {c : Byte} (h : isspace c = false) : blank c = false := by
  cases hb : blank c with
  | false => rfl
  | true =>
    obtain rfl : c = 32 := by simpa [blank] using hb
    rw [isspace_blank] at h
    cases h

/-- The last word of a line does not end in white space. -/
theorem kept_of_words {s : CStr} {rest : List CStr} {w : CStr} (h : words s = rest ++ [w]) :
    Kept w := by
  have hne : trim s ≠ [] := by
    intro hnil
    rw [words, hnil, runs_nil] at h
    simp at h
  have hlast := getLast_trim hne
  obtain ⟨rs, w', hruns, hend⟩ := runs_eq_concat hne (isspace_of_blank hlast)
  obtain ⟨-, hw⟩ := List.append_inj' (h.symm.trans hruns) rfl
  obtain rfl : w = w' := by simpa using hw
  exact ⟨_, hend.trans (List.getLast?_eq_some_getLast hne), hlast⟩

/-- The line the server gets to see, without its newline. -/
def requestText (word path : CStr) : CStr := word ++ lit " " ++ path ++ lit "\r"

theorem trim_requestText {word path : CStr} (hword : ∃ c ∈ word.head?, isspace c = false)
    (hpath : Kept path) : trim (requestText word path) = word ++ lit " " ++ path := by
  obtain ⟨c, hc, hspace⟩ := hword
  obtain ⟨d, hd, hkept⟩ := hpath
  obtain ⟨word, rfl⟩ : ∃ l, word = c :: l := by
    cases word with
    | nil => cases hc
    | cons b l => exact ⟨l, by rw [Option.some.inj hc]⟩
  obtain ⟨path, rfl⟩ : ∃ l, path = l ++ [d] := List.getLast?_eq_some_iff.mp hd
  have hfront : (requestText (c :: word) (path ++ [d])).dropWhile isspace =
      requestText (c :: word) (path ++ [d]) := by
    rw [requestText, List.cons_append, List.cons_append, List.cons_append, List.dropWhile_cons,
      hspace]
    rfl
  have hback : requestText (c :: word) (path ++ [d]) =
      (c :: word ++ lit " " ++ path ++ [d]) ++ [13] := by
    simp [requestText, lit]
  rw [trim, hfront, hback, List.rdropWhile_concat_pos _ _ _ (by decide),
    List.rdropWhile_concat_neg _ _ _ (by simp [hkept])]
  simp [List.append_assoc]

/-- A command and an argument that is kept are the two words of the line. -/
theorem words_requestText {word path : CStr} (hword : ∃ c ∈ word.head?, isspace c = false)
    (hblank : ∀ c ∈ word, blank c = false) (hpath : Kept path)
    (hpathBlank : ∀ c ∈ path, blank c = false) :
    words (requestText word path) = [word, path] ∧ SingleSpaced (requestText word path) := by
  have htrim := trim_requestText hword hpath
  have hwordNe : word ≠ [] := by
    rintro rfl
    obtain ⟨c, hc, -⟩ := hword
    cases hc
  have hpathNe : path ≠ [] := by
    rintro rfl
    obtain ⟨c, hc, -⟩ := hpath
    cases hc
  have hwords : words (requestText word path) = [word, path] := by
    have hsep : blank 32 = true := by decide
    rw [words, htrim, List.append_assoc]
    show runs blank (word ++ 32 :: path) = _
    rw [runs_append_cons hsep hwordNe hblank, runs_of_forall hpathNe hpathBlank]
  refine ⟨hwords, ?_⟩
  have hne : trim (requestText word path) ≠ [] := by
    rw [htrim]
    simp [hwordNe]
  rw [← length_words_eq_iff hne, hwords, htrim, countArgs]
  have hcount : ∀ l : CStr, (∀ c ∈ l, blank c = false) → l.countP (· == 32) = 0 := by
    intro l hl
    rw [List.countP_eq_zero]
    intro c hc
    simpa [blank] using hl c hc
  rw [List.countP_append, List.countP_append, hcount word hblank, hcount path hpathBlank]
  rfl

/-- **What arrives.** A request for a path without blanks is understood if and
only if the path is kept. -/
theorem understood_iff {word path : CStr} (hword : ∃ c ∈ word.head?, isspace c = false)
    (hblank : ∀ c ∈ word, blank c = false) (hplain : newline ∉ word ∧ NulFree word)
    (hpathBlank : ∀ c ∈ path, blank c = false) (hpathPlain : newline ∉ path ∧ NulFree path) :
    Understood (commandLine word path) word path ↔ Kept path := by
  have hline : commandLine word path = requestText word path ++ [newline] := by
    rw [commandLine, requestText, List.append_assoc _ (lit "\r")]
    rfl
  have hmem : ∀ c : Byte, c ∉ word → c ∉ path → c ∉ lit " " → c ∉ lit "\r" →
      c ∉ requestText word path := by
    intro c h₁ h₂ h₃ h₄ h
    rw [requestText, List.mem_append, List.mem_append, List.mem_append] at h
    tauto
  have hnewline : newline ∉ requestText word path :=
    hmem newline hplain.1 hpathPlain.1 (by decide) (by decide)
  have hnul : NulFree (requestText word path) :=
    hmem 0 hplain.2 hpathPlain.2 (by decide) (by decide)
  have hreads : serverReads (commandLine word path) = [parseBuffer (requestText word path)] := by
    have hcomplete : completeLines (requestText word path ++ [newline]) =
        [requestText word path ++ [newline]] := by
      rw [completeLines, linesFrom_line hnewline]
      rfl
    rw [serverReads, hline, hcomplete, List.map_singleton, readSocket_line, cstr_eq_self hnul]
  rw [Understood, hreads, List.cons.injEq, and_iff_left rfl]
  constructor
  · intro h
    have hwords : words (requestText word path) = [word] ++ [path] := (parsedAs_of_ok h).words.symm
    exact kept_of_words hwords
  · intro hpath
    obtain ⟨hwords, hsingle⟩ := words_requestText hword hblank hpath hpathBlank
    have hne : trim (requestText word path) ≠ [] := by
      intro hnil
      rw [words, hnil, runs_nil] at hwords
      cases hwords
    obtain ⟨command, hparsed⟩ := parsedAs_of_singleSpaced hne hsingle
    have hcommand := hparsed.words
    rw [hwords, List.cons.injEq] at hcommand
    rw [hparsed.result, ← hcommand.1, ← hcommand.2]

/-! ## The client's side -/

/-- A line that was typed: no NUL, and a newline only at its end. -/
structure Typed (buffer : CStr) : Prop where
  nulFree : NulFree buffer
  oneLine : newline ∉ buffer.dropLast

/-- The newline is cut off with the white space around the line. -/
theorem Typed.newline_notMem_trim {buffer : CStr} (h : Typed buffer) : newline ∉ trim buffer := by
  intro hmem
  have hne : trim buffer ≠ [] := List.ne_nil_of_mem hmem
  obtain ⟨a, b, hbuffer⟩ := exists_append_trim buffer
  apply h.oneLine
  rcases List.eq_nil_or_concat b with rfl | ⟨b, c, rfl⟩
  · -- it would be the last byte, which is no white space
    rw [List.append_nil] at hbuffer
    rw [hbuffer, List.dropLast_append_of_ne_nil hne]
    refine List.mem_append_right _ ?_
    rw [← List.dropLast_concat_getLast hne, List.mem_append, List.mem_singleton] at hmem
    refine hmem.resolve_right fun hlast => ?_
    have hspace := getLast_trim hne
    rw [← hlast] at hspace
    exact absurd hspace (by decide)
  · rw [hbuffer, List.concat_eq_append, ← List.append_assoc, List.dropLast_concat]
    exact List.mem_append_left _ (List.mem_append_right _ hmem)

/-- An argument has no blank, no newline and no NUL. -/
theorem argument_plain {buffer : CStr} (h : Typed buffer) {command : Command}
    (hparse : parseBuffer buffer = .ok (some command)) {a : CStr} (ha : a ∈ command.argv) :
    (∀ c ∈ a, blank c = false) ∧ newline ∉ a ∧ NulFree a := by
  have hmem : a ∈ words buffer := (parsedAs_of_ok hparse).words ▸ List.mem_cons_of_mem _ ha
  have hsubset := subset_of_mem_runs hmem
  obtain ⟨u, v, hbuffer⟩ := exists_append_trim buffer
  refine ⟨(mem_runs hmem).2, fun hn => h.newline_notMem_trim (hsubset hn), fun h0 => h.nulFree ?_⟩
  rw [hbuffer]
  exact List.mem_append_left _ (List.mem_append_right _ (hsubset h0))

/-- The only argument of a line is kept. -/
theorem kept_of_argc {buffer : CStr} {command : Command}
    (hparse : parseBuffer buffer = .ok (some command)) (hargc : command.argc = 1) :
    command.argv.headD [] ∈ command.argv ∧ Kept (command.argv.headD []) := by
  obtain ⟨path, hargv⟩ := List.length_eq_one_iff.mp hargc
  have hwords := (parsedAs_of_ok hparse).words
  rw [hargv] at hwords ⊢
  have hlast : words buffer = [command.name] ++ [path] := hwords.symm
  exact ⟨List.mem_cons_self, kept_of_words hlast⟩

theorem getLast?_getFilename {filepath : CStr} (h : getFilenameFromFilepath filepath ≠ []) :
    (getFilenameFromFilepath filepath).getLast? = filepath.getLast? := by
  have hsplit : filepath.rdropWhile (· ≠ slash) ++ getFilenameFromFilepath filepath = filepath :=
    List.rdropWhile_append_rtakeWhile
  conv_rhs => rw [← hsplit, List.getLast?_append_of_ne_nil _ h]

theorem getFilename_subset (filepath : CStr) : getFilenameFromFilepath filepath ⊆ filepath := by
  have hsplit : filepath.rdropWhile (· ≠ slash) ++ getFilenameFromFilepath filepath = filepath :=
    List.rdropWhile_append_rtakeWhile
  conv_rhs => rw [← hsplit]
  exact List.subset_append_right _ _

theorem kept_iff_of_ne_nil {path : CStr} (h : path ≠ []) :
    Kept path ↔ ∀ c, path.getLast? = some c → isspace c = false := by
  rw [Kept, List.getLast?_eq_some_getLast h]
  simp

/-- What is meant is kept if it arrives, and has no blank, newline or NUL in any
case. -/
theorem kept_meant_iff {buffer : CStr} (h : Typed buffer) {command : Command}
    (hparse : parseBuffer buffer = .ok (some command)) {word path : CStr}
    (hmeant : meant command = some (word, path)) :
    word ∈ [lit "CWD", lit "RETR", lit "STOR", lit "LIST"] ∧
      ((∀ c ∈ path, blank c = false) ∧ newline ∉ path ∧ NulFree path) ∧
        (Kept path ↔ Arrives command) := by
  unfold meant at hmeant
  split at hmeant
  next hcd =>
    obtain ⟨rfl, rfl⟩ := Prod.mk.inj (Option.some.inj hmeant)
    obtain ⟨hmem, hkept⟩ := kept_of_argc hparse hcd.2
    refine ⟨by simp, argument_plain h hparse hmem, iff_of_true hkept ⟨fun hw => ?_, fun hw => ?_⟩⟩
    · rw [hcd.1] at hw
      exact absurd hw (by decide)
    · rw [hcd.1] at hw
      exact absurd hw (by decide)
  next =>
  split at hmeant
  next hget =>
    obtain ⟨rfl, rfl⟩ := Prod.mk.inj (Option.some.inj hmeant)
    obtain ⟨hmem, hkept⟩ := kept_of_argc hparse hget.2
    refine ⟨by simp, argument_plain h hparse hmem, iff_of_true hkept ⟨fun hw => ?_, fun hw => ?_⟩⟩
    · rw [hget.1] at hw
      exact absurd hw (by decide)
    · rw [hget.1] at hw
      exact absurd hw (by decide)
  next =>
  split at hmeant
  next hput =>
    obtain ⟨rfl, rfl⟩ := Prod.mk.inj (Option.some.inj hmeant)
    obtain ⟨hmem, c, hlast, hspace⟩ := kept_of_argc hparse hput.2
    obtain ⟨hblank, hnewline, hnul⟩ := argument_plain h hparse hmem
    have hsubset := getFilename_subset (command.argv.headD [])
    refine ⟨by simp, ⟨fun c hc => hblank c (hsubset hc), fun hn => hnewline (hsubset hn),
      fun h0 => hnul (hsubset h0)⟩, ?_⟩
    constructor
    · rintro ⟨d, hd, -⟩
      refine ⟨fun _ hnil => ?_, fun hw => ?_⟩
      · rw [hnil] at hd
        cases hd
      · rw [hput.1] at hw
        exact absurd hw (by decide)
    · intro harrives
      exact ⟨c, (getLast?_getFilename (harrives.1 hput.1)).trans hlast, hspace⟩
  next =>
  split at hmeant
  next hls =>
    obtain ⟨rfl, rfl⟩ := Prod.mk.inj (Option.some.inj hmeant)
    have hput : command.word ≠ lit "PUT" := by
      rw [hls]
      decide
    refine ⟨by simp, ?_⟩
    cases hargv : command.argv.head? with
    | none =>
      refine ⟨by decide +kernel, iff_of_true ⟨46, by decide, by decide⟩ ⟨fun hw =>
        absurd hw hput, ?_⟩⟩
      intro _ path c hpath
      rw [hargv] at hpath
      cases hpath
    | some path =>
      have hmem : path ∈ command.argv := List.mem_of_head? hargv
      have hne : path ≠ [] := Server.argv_ne_nil hparse path hmem
      refine ⟨argument_plain h hparse hmem, ?_⟩
      show Kept path ↔ _
      rw [kept_iff_of_ne_nil hne]
      constructor
      · intro hkept
        refine ⟨fun hw => absurd hw hput, fun _ path' c hpath' hlast => ?_⟩
        obtain rfl : path = path' := Option.some.inj (hargv.symm.trans hpath')
        exact hkept c hlast
      · exact fun harrives c hlast => harrives.2 hls path c hargv hlast
  next => cases hmeant

/-! ## What is sent -/

/-- The lines without a path. -/
def plainLines : List CStr := [lit "PASV\r\n", lit "PWD\r\n", lit "QUIT\r\n"]

/-- Only such lines were sent, and the request. -/
def Asks (request : Option (CStr × CStr)) (s s' : Ctx) : Prop :=
  ∃ l, s'.sent = s.sent ++ l ∧ ∀ line ∈ l, line ∈ plainLines ∨
    ∃ word path, request = some (word, path) ∧ line = commandLine word path

section

variable {request : Option (CStr × CStr)}

theorem asks_same {s s' : Ctx} (h : s'.sent = s.sent) : Asks request s s' :=
  ⟨[], by rw [h, List.append_nil], by simp⟩

instance : Std.Refl (Asks request) := ⟨fun _ => asks_same rfl⟩

instance : IsTrans Ctx (Asks request) := ⟨by
  rintro s s₁ s₂ ⟨l, hs, hl⟩ ⟨l', hs', hl'⟩
  refine ⟨l ++ l', by rw [hs', hs, List.append_assoc], fun line hline => ?_⟩
  exact (List.mem_append.mp hline).elim (hl line) (hl' line)⟩

theorem asks_send {line : CStr} (h : line ∈ plainLines) : Keeps (Asks request) (send line) :=
  fun s => ⟨[line], s.sent_note_sent line, by simpa using .inl h⟩

theorem asks_request {word path : CStr} (h : request = some (word, path)) :
    Keeps (Asks request) (send (commandLine word path)) := by
  refine fun s => ⟨[commandLine word path], s.sent_note_sent _,
    fun line hline => .inr ⟨word, path, h, ?_⟩⟩
  exact List.mem_singleton.mp hline

/-- Reading a reply sends nothing. -/
theorem asks_next {α : Type} {awaits : Awaits} {k : Option CStr → C α}
    (hk : ∀ r, Keeps (Asks request) (k r)) : Keeps (Asks request) (nextResponse awaits >>= k) :=
  Keeps.bind (fun _ => asks_same (Ctx.sent_note_heard ..)) hk

theorem asks_complain (response : CStr) : Keeps (Asks request) (complain response) :=
  Keeps.ite (fun _ => keeps_fail _) fun _ => keeps_pure _

theorem asks_displayCurrentPath (response : CStr) :
    Keeps (Asks request) (displayCurrentPath response) := by
  unfold displayCurrentPath
  split
  next => exact keeps_pure _
  next => exact keeps_modify fun _ => asks_same rfl

theorem asks_displayNewPath : Keeps (Asks request) displayNewPath := by
  refine (asks_send (by decide)).bind fun _ => asks_next fun r => ?_
  cases r with
  | none => exact keeps_fail _
  | some response =>
    refine Keeps.ite (fun _ => ?_) fun _ => asks_displayCurrentPath response
    exact (asks_complain response).bind fun _ => keeps_fail _

theorem asks_dataSocket (calls : Calls) :
    Keeps (Asks request) (initializeClientDataSocket calls) := by
  have hpasv : Keeps (Asks request) (sendPasvCommand calls) := by
    refine (asks_send (by decide)).bind fun _ => asks_next fun r => ?_
    cases r with
    | none => exact keeps_pure _
    | some response => exact Keeps.ite (fun _ => keeps_pure _) fun _ => keeps_pure _
  refine Keeps.bind (hpasv.bind fun r => ?_) fun d => ?_
  · cases r with
    | none => exact keeps_pure _
    | some response =>
      dsimp only
      split
      next => exact keeps_fail _
      next => exact keeps_pure _
  · cases d with
    | none => exact keeps_pure _
    | some d =>
      have hconnect : Keeps (Asks request) (Prog.modify fun s : Ctx => { s with
          connects := s.connects ++ [(s.heard.getLast?, d.addr)] } : C Unit) :=
        fun _ => asks_same rfl
      exact hconnect.bind fun _ => keeps_pure _

theorem asks_checkResponses : Keeps (Asks request) checkResponses := by
  refine asks_next fun r => ?_
  cases r with
  | none => exact keeps_pure _
  | some response =>
    refine Keeps.ite (fun _ => keeps_pure _) fun _ => asks_next fun r => ?_
    cases r with
    | none => exact keeps_pure _
    | some response => exact keeps_pure _

end

/-- A transfer, once its request is known. -/
theorem asks_transfer {request : Option (CStr × CStr)} {word path : CStr}
    (h : request = some (word, path)) :
    Keeps (Asks request) (do send (commandLine word path); checkResponses) :=
  (asks_request h).bind fun _ => asks_checkResponses

/-- A command sends what is meant. -/
theorem asks_executeCommand (calls : Calls) (command : Command) :
    Keeps (Asks (meant command)) (executeCommand calls command) := by
  unfold executeCommand
  split
  next => exact keeps_pure _
  next handler hfind =>
    have hmem := List.mem_of_find?_eq_some hfind
    have hfound := List.find?_some hfind
    have hname : handler.1 = command.word := beq_iff_eq.mp hfound
    have hne : ∀ {a b : CStr}, a = command.word → a ≠ b → command.word ≠ b :=
      fun ha hb h => hb (ha.trans h)
    simp only [commandHandlers, List.mem_cons, List.not_mem_nil, or_false] at hmem
    rcases hmem with rfl | rfl | rfl | rfl | rfl | rfl | rfl | rfl
    · refine (asks_send (by decide)).bind fun _ => asks_next fun r => ?_
      cases r with
      | none => exact keeps_pure _
      | some response => exact keeps_pure _
    · exact keeps_pure _
    · exact keeps_pure _
    · refine (asks_dataSocket calls).bind fun _ => Keeps.ite (fun _ => keeps_pure _) fun _ => ?_
      refine asks_transfer ?_
      rw [meant, if_neg fun h => hne hname (by decide) h.1, if_neg fun h =>
        hne hname (by decide) h.1,
        if_neg fun h => hne hname (by decide) h.1, if_pos hname.symm]
    · refine Keeps.ite (fun _ => keeps_pure _) fun hargc => ?_
      have hmeant : meant command = some (lit "CWD", command.argv.headD []) :=
        if_pos ⟨hname.symm, not_not.mp hargc⟩
      refine (asks_request hmeant).bind fun _ => asks_next fun r => ?_
      cases r with
      | none => exact keeps_pure _
      | some response =>
        refine Keeps.ite (fun _ => ?_) fun _ => asks_displayNewPath.bind fun _ => keeps_pure _
        exact (asks_complain response).bind fun _ => keeps_pure _
    · refine Keeps.ite (fun _ => keeps_pure _) fun _ => ?_
      refine (asks_send (by decide)).bind fun _ => asks_next fun r => ?_
      cases r with
      | none => exact keeps_pure _
      | some response =>
        refine Keeps.ite (fun _ => ?_) fun _ => ?_
        · exact (asks_complain response).bind fun _ => keeps_pure _
        · exact (asks_displayCurrentPath response).bind fun _ => keeps_pure _
    · refine Keeps.ite (fun _ => keeps_pure _) fun hargc => ?_
      refine (asks_dataSocket calls).bind fun _ => Keeps.ite (fun _ => keeps_pure _) fun _ => ?_
      refine asks_transfer ?_
      rw [meant, if_neg fun h => hne hname (by decide) h.1, if_pos ⟨hname.symm, not_not.mp hargc⟩]
    · refine Keeps.ite (fun _ => keeps_pure _) fun hargc => ?_
      refine (asks_dataSocket calls).bind fun _ => Keeps.ite (fun _ => keeps_pure _) fun _ => ?_
      refine Keeps.ite (fun _ => keeps_pure _) fun _ => asks_transfer ?_
      rw [meant, if_neg fun h => hne hname (by decide) h.1, if_neg fun h =>
        hne hname (by decide) h.1,
        if_pos ⟨hname.symm, not_not.mp hargc⟩]

/-! ## Requests -/

/-- **When a request is understood.** A line is typed whose parse is defined, and
the client sends something else for it than `PASV`, `PWD` and `QUIT`. That is
the request for the path that is meant, and the server gets the command with
this path as its only argument if and only if the path arrives. -/
theorem request_understood_iff {buffer : CStr} (htyped : Typed buffer) {command : Command}
    (hparse : parseBuffer buffer = .ok (some command)) (calls : Calls) (s : Ctx) {l : List CStr}
    (hsent : (loopExecution buffer calls s).2.sent = s.sent ++ l) {line : CStr} (hline : line ∈ l)
    (hrequest : line ∉ plainLines) :
    ∃ word path, meant command = some (word, path) ∧ line = commandLine word path ∧
      (Understood line word path ↔ Arrives command) := by
  obtain ⟨l', hl', hasks⟩ : Asks (meant command) s (loopExecution buffer calls s).2 := by
    rw [loopExecution, hparse]
    exact asks_executeCommand calls command s
  obtain rfl : l = l' := List.append_cancel_left (hsent.symm.trans hl')
  obtain ⟨word, path, hmeant, rfl⟩ := (hasks line hline).resolve_left hrequest
  obtain ⟨hword, hplain, hkept⟩ := kept_meant_iff htyped hparse hmeant
  refine ⟨word, path, hmeant, rfl, Iff.trans ?_ hkept⟩
  have hletters : ∀ word ∈ [lit "CWD", lit "RETR", lit "STOR", lit "LIST"],
      (∃ c ∈ word.head?, isspace c = false) ∧ (∀ c ∈ word, blank c = false) ∧
        newline ∉ word ∧ NulFree word := by
    decide +kernel
  obtain ⟨hhead, hblank, hwordPlain⟩ := hletters word hword
  exact understood_iff hhead hblank hwordPlain hplain.1 hplain.2

/-- A client whose server gives it a data socket. -/
def onePassive : Ctx := .start [some (lit "227 Entering Passive Mode (127,0,0,1,4,7).\r\n")]

/-- `get a` is understood. -/
theorem request_understood_get : ∃ word path, meant ⟨lit "get", [lit "a"]⟩ = some (word, path) ∧
    lit "RETR a\r\n" = commandLine word path ∧
      (Understood (lit "RETR a\r\n") word path ↔ Arrives ⟨lit "get", [lit "a"]⟩) := by
  have hparse : parseBuffer (lit "get a\n") = .ok (some ⟨lit "get", [lit "a"]⟩) := by decide
  have hsent : (loopExecution (lit "get a\n") (.fine 5) onePassive).2.sent =
      onePassive.sent ++ [lit "PASV\r\n", lit "RETR a\r\n"] := by decide +kernel
  have htyped : Typed (lit "get a\n") := ⟨by decide, by decide⟩
  exact request_understood_iff htyped hparse (.fine 5) onePassive hsent (by simp) (by decide)

/-- `put a/` and `ls`, an argument that ends in a tab and another one: the server
gets `STOR` without an argument, and `LIST` without the tab. -/
theorem request_lost :
    (Typed (lit "put a/\n") ∧
      (loopExecution (lit "put a/\n") (.fine 5) onePassive).2.sent =
        [lit "PASV\r\n", lit "STOR \r\n"] ∧
      ∀ path, ¬ Understood (lit "STOR \r\n") (lit "STOR") path) ∧
    (Typed (lit "ls a\t b\n") ∧
      (loopExecution (lit "ls a\t b\n") (.fine 5) onePassive).2.sent =
        [lit "PASV\r\n", lit "LIST a\t\r\n"] ∧
      ¬ Understood (lit "LIST a\t\r\n") (lit "LIST") (lit "a\t")) := by
  refine ⟨⟨⟨by decide, by decide⟩, by decide +kernel, fun path h => ?_⟩,
    ⟨⟨by decide, by decide⟩, by decide +kernel, by decide +kernel⟩⟩
  have hreads : serverReads (lit "STOR \r\n") = [.ok (some ⟨lit "STOR", []⟩)] := by decide +kernel
  rw [Understood, hreads] at h
  simp at h

end MyFtp.Wire
