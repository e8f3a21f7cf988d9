import MyFtp.Server.Utils
import MyFtp.Server.Syscall

/-!
# `command_parser.c`: when a line has a defined parse

`parse_buffer` counts the blanks of the trimmed line to size an array of
tokens, fills the array with a `strtok` loop, and then reads the slot the count
says is the last one. The two passes disagree on a run of several blanks:
`strtok` skips it as one separator, the count does not. The slots in between
stay as `malloc` left them, and reading one is undefined behaviour.

The array is modelled slot by slot, so that an unset slot and an index outside
the array show. The result is exact:

> `parseBuffer_exact_iff`: the parser returns precisely the words of the line,
> without touching an unset slot or one outside the array, if and only if no two
> blanks stand side by side between two non-blank bytes of the line.
-/

namespace MyFtp.Server

open MyFtp.Posix

/-- The delimiter given to `strtok`. -/
def blank (c : Byte) : Bool := c == 32

/-- A slot of the token array: as `malloc` left it, a null pointer, or a
string. -/
inductive Slot
  | unset
  | null
  | token (s : CStr)
  deriving DecidableEq

/-- `tokens[i] = slot`. -/
def writeSlot (tokens : List Slot) (i : Nat) (slot : Slot) : Except Halt (List Slot) :=
  if i < tokens.length then .ok (tokens.set i slot) else .error .undefined

/-- The string `tokens[i]` points to. -/
def readSlot (tokens : List Slot) (i : Nat) : Except Halt CStr :=
  match tokens[i]? with
  | some (.token s) => .ok s
  | _ => .error .undefined

/-- `count_args`. -/
def countArgs (buffer : CStr) : Nat := buffer.countP (· == 32) + 1

/-- The loop of `tokenize_buffer` from index `i`, over the tokens `strtok` has
still to yield. -/
def fillTokens : Nat → List CStr → List Slot → Except Halt (List Slot)
  | _, [], tokens => .ok tokens
  | i, token :: rest, tokens =>
    match writeSlot tokens i (.token token) with
    | .ok tokens' => fillTokens (i + 1) rest tokens'
    | .error e => .error e

/-- `if (tokens[i][strlen(tokens[i]) - 1] == c) tokens[i][strlen(tokens[i]) - 1] = '\0'`. -/
def stripLast (c : Byte) (i : Nat) (tokens : List Slot) : Except Halt (List Slot) :=
  match readSlot tokens i with
  | .error e => .error e
  | .ok [] => .error .undefined
  | .ok (b :: s) =>
    if (b :: s).getLast? = some c then writeSlot tokens i (.token (b :: s).dropLast) else .ok tokens

/-- `tokenize_buffer`. -/
def tokenizeBuffer (buffer : CStr) (tokenCount : Nat) : Except Halt (List Slot) := do
  let tokens := List.replicate (tokenCount + 1) Slot.unset
  let tokens ← fillTokens 0 (strtokAll blank buffer) tokens
  let tokens ← stripLast 13 (tokenCount - 1) tokens
  let tokens ← stripLast 10 (tokenCount - 1) tokens
  writeSlot tokens tokenCount .null

/-- The strings of the slots `i` to `i + n - 1`. -/
def readSlots (tokens : List Slot) : Nat → Nat → Except Halt (List CStr)
  | _, 0 => .ok []
  | i, n + 1 => do
    let s ← readSlot tokens i
    let rest ← readSlots tokens (i + 1) n
    .ok (s :: rest)

/-- `setup_command`. The slots are read here as the handlers and
`destroy_command` read them later: up to `argc`, and the null pointer behind. -/
def setupCommand (tokens : List Slot) (tokenCount : Nat) : Except Halt Command := do
  let name ← readSlot tokens 0
  let argv ← readSlots tokens 1 (tokenCount - 1)
  if tokens[tokenCount]? = some .null then .ok ⟨name, argv⟩ else .error .undefined

/-- `parse_buffer`; `none` for the null pointer. -/
def parseBuffer (buffer : CStr) : Except Halt (Option Command) :=
  let buffer := trim buffer
  if buffer.length = 0 then .ok none
  else do
    let tokenCount := countArgs buffer
    let tokens ← tokenizeBuffer buffer tokenCount
    let command ← setupCommand tokens tokenCount
    .ok (some command)

/-- The words of a line: the maximal runs of bytes other than the blank, after
trimming. -/
def words (buffer : CStr) : List CStr := runs blank (trim buffer)

example : parseBuffer (lit " PORT 1,2,3\r\n") = .ok (some ⟨lit "PORT", [lit "1,2,3"]⟩) := by decide

/-! ## The token array -/

/-- The loop writes its tokens into the next slots, as long as there are
enough of them. -/
theorem fillTokens_append : ∀ (toks : List CStr) (done : List Slot) (k : Nat), toks.length ≤ k →
    fillTokens done.length toks (done ++ List.replicate k .unset) =
      .ok (done ++ toks.map .token ++ List.replicate (k - toks.length) .unset)
  | [], done, k, _ => by simp [fillTokens]
  | tok :: rest, done, k, h => by
    obtain ⟨k, rfl⟩ : ∃ k', k = k' + 1 := ⟨k - 1, by simp at h; omega⟩
    have hset : (done ++ List.replicate (k + 1) Slot.unset).set done.length (.token tok)
        = (done ++ [.token tok]) ++ List.replicate k .unset := by
      simp [List.replicate_succ]
    rw [fillTokens, writeSlot, if_pos (by simp)]
    dsimp only
    rw [hset]
    have ih := fillTokens_append rest (done ++ [.token tok]) k (by simpa using h)
    rw [List.length_append, List.length_singleton] at ih
    rw [ih]
    simp

theorem readSlot_of_getElem? {tokens : List Slot} {i : Nat} {s : CStr}
    (h : tokens[i]? = some (.token s)) : readSlot tokens i = .ok s := by
  rw [readSlot, h]

/-- A last token that does not end in `c` is left alone. -/
theorem stripLast_of_ne {c : Byte} {i : Nat} {tokens : List Slot} {s : CStr} (hs : s ≠ [])
    (h : tokens[i]? = some (.token s)) (hc : s.getLast? ≠ some c) :
    stripLast c i tokens = .ok tokens := by
  unfold stripLast
  rw [readSlot_of_getElem? h]
  cases s with
  | nil => exact absurd rfl hs
  | cons b s => exact if_neg hc

/-- With as many words as counted, the array ends up holding them all, and a
null pointer behind. -/
theorem tokenizeBuffer_of_length {s : CStr} (hne : s ≠ [])
    (hlast : isspace (s.getLast hne) = false) (hcount : (runs blank s).length = countArgs s) :
    tokenizeBuffer s (countArgs s) = .ok ((runs blank s).map .token ++ [.null]) := by
  have hb : blank (s.getLast hne) = false := by
    cases h : blank (s.getLast hne) with
    | false => rfl
    | true =>
      have : s.getLast hne = 32 := by simpa [blank] using h
      rw [this, isspace_blank] at hlast
      cases hlast
  obtain ⟨rs, w, hruns, hend⟩ := runs_eq_concat hne hb
  have hwne : w ≠ [] := (mem_runs (hruns ▸ List.mem_append_right rs (List.mem_singleton_self w))).1
  have hwend : ∀ c, isspace c = true → w.getLast? ≠ some c := by
    intro c hc h
    rw [hend, List.getLast?_eq_getLast_of_ne_nil hne] at h
    injection h with h
    rw [h, hc] at hlast
    cases hlast
  have hidx : countArgs s - 1 = rs.length := by
    rw [← hcount, hruns]
    simp
  have hfill := fillTokens_append (runs blank s) [] (countArgs s + 1) (by omega)
  rw [List.nil_append, List.nil_append, ← hcount, Nat.add_sub_cancel_left] at hfill
  have hlastslot : ((runs blank s).map Slot.token ++ List.replicate 1 .unset)[rs.length]?
      = some (.token w) := by
    rw [hruns]
    simp
  rw [tokenizeBuffer, strtokAll_eq_runs, ← hcount]
  simp only [bind, Except.bind]
  rw [← @List.length_nil Slot, hfill]
  dsimp only
  rw [hcount, hidx, stripLast_of_ne hwne hlastslot (hwend 13 (by decide))]
  dsimp only
  rw [stripLast_of_ne hwne hlastslot (hwend 10 (by decide))]
  dsimp only
  rw [writeSlot, if_pos (by simp [← hcount]), ← hcount]
  simp

/-- With fewer words than counted, the slot of the supposed last one was never
written. -/
theorem tokenizeBuffer_of_lt {s : CStr} (h : (runs blank s).length < countArgs s) :
    tokenizeBuffer s (countArgs s) = .error .undefined := by
  have hfill := fillTokens_append (runs blank s) [] (countArgs s + 1) (by omega)
  rw [List.nil_append, List.nil_append] at hfill
  have hunset : ((runs blank s).map Slot.token ++
      List.replicate (countArgs s + 1 - (runs blank s).length) .unset)[countArgs s - 1]?
      = some .unset := by
    rw [List.getElem?_append_right (by simp; omega), List.getElem?_replicate, List.length_map,
      if_pos (by omega)]
  rw [tokenizeBuffer, strtokAll_eq_runs]
  simp only [bind, Except.bind]
  rw [← @List.length_nil Slot, hfill]
  dsimp only
  rw [stripLast, readSlot, hunset]

theorem readSlots_append : ∀ (l : List CStr) (front back : List Slot),
    readSlots (front ++ l.map .token ++ back) front.length l.length = .ok l
  | [], _, _ => rfl
  | s :: l, front, back => by
    have ih := readSlots_append l (front ++ [.token s]) back
    rw [List.length_append, List.length_singleton, List.append_assoc front, List.singleton_append]
      at ih
    rw [List.length_cons, readSlots, readSlot_of_getElem? (s := s) (by simp), List.map_cons]
    simp only [bind, Except.bind]
    rw [ih]

/-- Reading back an array of tokens and the null pointer behind them. -/
theorem setupCommand_of_tokens (name : CStr) (argv : List CStr) :
    setupCommand ((name :: argv).map .token ++ [.null]) (argv.length + 1)
      = .ok ⟨name, argv⟩ := by
  have hargv : readSlots ((name :: argv).map .token ++ [.null]) 1 argv.length = .ok argv :=
    readSlots_append argv [.token name] [.null]
  rw [setupCommand, Nat.add_sub_cancel, readSlot_of_getElem? (s := name) (by simp)]
  simp only [bind, Except.bind]
  rw [hargv]
  dsimp only
  rw [if_pos (by simp)]

/-! ## The exact condition -/

/-- The parse of a line with at least one non-blank byte went as intended: every
slot was written and the array ends in a null pointer; the command has the
words of the line, in order; and the count is the number of tokens `strtok`
yields. -/
structure ParsedAs (s : CStr) (command : Command) : Prop where
  result : parseBuffer s = .ok (some command)
  slots : tokenizeBuffer (trim s) (countArgs (trim s)) = .ok ((words s).map .token ++ [.null])
  words : command.name :: command.argv = words s
  argc : command.argc = (Server.words s).length - 1
  counted : countArgs (trim s) = (strtokAll blank (trim s)).length

/-- What `parse_buffer` is for: the null pointer for a line of blanks, the words
of any other line. -/
def ParsesExactly (s : CStr) : Prop :=
  (parseBuffer s = .ok none ↔ ∀ c ∈ s, isspace c = true) ∧
    ((∃ c ∈ s, isspace c = false) → ∃ command, ParsedAs s command)

/-- Between two bytes of the line that are not blank, no two blanks stand side
by side. -/
def SingleSpaced (s : CStr) : Prop :=
  ¬ ∃ a b, s = a ++ 32 :: 32 :: b ∧ (∃ c ∈ a, isspace c = false) ∧ ∃ c ∈ b, isspace c = false

/-- Blanks side by side survive trimming when there is something on both sides
of them. -/
theorem adjacent_trim_iff {s : CStr} : Adjacent blank (trim s) ↔ ¬ SingleSpaced s := by
  rw [SingleSpaced, not_not]
  constructor
  · rintro ⟨a, c, d, b, htrim, hc, hd⟩
    obtain rfl : c = 32 := by simpa [blank] using hc
    obtain rfl : d = 32 := by simpa [blank] using hd
    obtain ⟨u, v, hs⟩ := exists_append_trim s
    have hne : trim s ≠ [] := by rw [htrim]; simp
    have hhead := head_trim hne
    have hlast := getLast_trim hne
    refine ⟨u ++ a, b ++ v, by rw [hs, htrim]; simp, ?_, ?_⟩
    · cases a with
      | nil => simp [htrim, isspace_blank] at hhead
      | cons x a =>
        simp only [htrim, List.cons_append, List.head_cons] at hhead
        exact ⟨x, by simp, hhead⟩
    · rcases List.eq_nil_or_concat b with rfl | ⟨b, y, rfl⟩
      · simp [htrim, isspace_blank] at hlast
      · rw [List.concat_eq_append] at *
        have : (trim s).getLast hne = y := by simp [htrim]
        rw [this] at hlast
        exact ⟨y, by simp, hlast⟩
  · rintro ⟨a, b, rfl, ha, hb⟩
    have h := trim_append (m := [32, 32]) ha hb
    rw [List.append_assoc, List.cons_append, List.cons_append, List.nil_append] at h
    exact ⟨a.dropWhile isspace, 32, 32, b.rdropWhile isspace, by rw [h]; simp, rfl, rfl⟩

/-- The trimmed line neither begins nor ends with the delimiter, so its words
are as many as counted exactly if no two blanks are adjacent in it. -/
theorem length_words_eq_iff {s : CStr} (hne : trim s ≠ []) :
    (words s).length = countArgs (trim s) ↔ SingleSpaced s := by
  have hblank : ∀ c, isspace c = false → blank c = false := by
    intro c hc
    cases h : blank c with
    | false => rfl
    | true =>
      obtain rfl : c = 32 := by simpa [blank] using h
      rw [isspace_blank] at hc
      cases hc
  have h := length_runs_eq_iff hne (hblank _ (head_trim hne)) (hblank _ (getLast_trim hne))
  rw [adjacent_trim_iff, not_not] at h
  exact h

theorem parseBuffer_of_trim_ne {s : CStr} (hne : trim s ≠ []) :
    parseBuffer s = (do
      let tokens ← tokenizeBuffer (trim s) (countArgs (trim s))
      let command ← setupCommand tokens (countArgs (trim s))
      .ok (some command)) := by
  rw [parseBuffer, if_neg (by simpa using hne)]

/-- A line with two blanks side by side between its words makes the parser read
an unset slot. -/
theorem parseBuffer_undefined {s : CStr} (h : ¬ SingleSpaced s) :
    parseBuffer s = .error .undefined := by
  have hne : trim s ≠ [] := by
    obtain ⟨a, c, d, b, htrim, -⟩ := adjacent_trim_iff.mpr h
    rw [htrim]
    simp
  have hlt : (words s).length < countArgs (trim s) :=
    Nat.lt_of_le_of_ne (length_runs_le blank (trim s)) fun he => h ((length_words_eq_iff hne).mp he)
  rw [parseBuffer_of_trim_ne hne, tokenizeBuffer_of_lt hlt]
  rfl

/-- Any other line that is not blank parses into its words. -/
theorem parsedAs_of_singleSpaced {s : CStr} (hne : trim s ≠ []) (h : SingleSpaced s) :
    ∃ command, ParsedAs s command := by
  have hlen := (length_words_eq_iff hne).mpr h
  have hslots := tokenizeBuffer_of_length hne (getLast_trim hne) hlen
  match hw : words s with
  | [] =>
    rw [hw, countArgs] at hlen
    cases hlen
  | name :: argv =>
    have hcount : countArgs (trim s) = argv.length + 1 := by rw [← hlen, hw, List.length_cons]
    refine ⟨⟨name, argv⟩, ?_, hslots, hw.symm, by rw [hw]; rfl, ?_⟩
    · rw [parseBuffer_of_trim_ne hne, hslots, show runs blank (trim s) = name :: argv from hw]
      simp only [bind, Except.bind]
      rw [hcount, setupCommand_of_tokens]
    · rw [strtokAll_eq_runs]
      exact hlen.symm

theorem parseBuffer_eq_none_iff {s : CStr} (h : SingleSpaced s) :
    parseBuffer s = .ok none ↔ ∀ c ∈ s, isspace c = true := by
  rw [← trim_eq_nil_iff]
  constructor
  · intro hp
    by_contra hne
    obtain ⟨command, hc⟩ := parsedAs_of_singleSpaced hne h
    rw [hc.result] at hp
    cases hp
  · intro ht
    rw [parseBuffer, ht]
    rfl

/-- Whatever the parser returns is what it is for. -/
theorem parsedAs_of_ok {s : CStr} {command : Command} (h : parseBuffer s = .ok (some command)) :
    ParsedAs s command := by
  have hs : SingleSpaced s := by
    by_contra hs
    rw [parseBuffer_undefined hs] at h
    cases h
  have hne : trim s ≠ [] := by
    intro hnil
    rw [(parseBuffer_eq_none_iff hs).mpr (trim_eq_nil_iff.mp hnil)] at h
    cases h
  obtain ⟨command', hp⟩ := parsedAs_of_singleSpaced hne hs
  have := hp.result.symm.trans h
  simp only [Except.ok.injEq, Option.some.injEq] at this
  exact this ▸ hp

/-- No argument is empty. -/
theorem argv_ne_nil {s : CStr} {command : Command} (h : parseBuffer s = .ok (some command)) :
    ∀ a ∈ command.argv, a ≠ [] := by
  intro a ha
  have hmem : a ∈ words s := (parsedAs_of_ok h).words ▸ List.mem_cons_of_mem _ ha
  exact (mem_runs hmem).1

/-- The command a line holds, if it holds one. -/
def commandOf (line : CStr) : Option Command :=
  match parseBuffer line with
  | .ok command => command
  | .error _ => none

theorem commandOf_of_parse {line : CStr} {parsed : Option Command}
    (h : parseBuffer line = .ok parsed) : commandOf line = parsed := by
  rw [commandOf, h]

theorem parse_of_commandOf {line : CStr} {command : Command} (h : commandOf line = some command) :
    parseBuffer line = .ok (some command) := by
  unfold commandOf at h
  split at h
  next hparse => rw [hparse, h]
  next => cases h

/-- **When the parser is right.** On a line without two blanks side by side
between its words, and on no other, `parse_buffer` does what it is for. -/
theorem parseBuffer_exact_iff (s : CStr) : ParsesExactly s ↔ SingleSpaced s := by
  constructor
  · rintro ⟨-, hwords⟩
    by_contra h
    obtain ⟨a, b, hs, ⟨c, hc, hsp⟩, -⟩ := not_not.mp h
    obtain ⟨command, hp⟩ := hwords ⟨c, by rw [hs]; exact List.mem_append_left _ hc, hsp⟩
    have := hp.result
    rw [parseBuffer_undefined h] at this
    cases this
  · intro h
    refine ⟨parseBuffer_eq_none_iff h, ?_⟩
    rintro ⟨c, hc, hsp⟩
    refine parsedAs_of_singleSpaced (fun ht => ?_) h
    rw [trim_eq_nil_iff.mp ht c hc] at hsp
    cases hsp

/-- `USER`, two blanks, `anonymous`: the count is three, `strtok` yields two. -/
theorem parseBuffer_two_blanks :
    NulFree (lit "USER  anonymous") ∧ ¬ ParsesExactly (lit "USER  anonymous") := by
  refine ⟨by decide, fun h => ?_⟩
  obtain ⟨command, hp⟩ := h.2 ⟨85, by decide, by decide⟩
  have : parseBuffer (lit "USER  anonymous") = .error .undefined := by decide
  rw [hp.result] at this
  cases this

end MyFtp.Server
