import MyFtp.Posix.CStr

/-!
# Buffered input

`takeLine n` is what one call of `fgets` with room for `n` bytes, or of
`getline` with room for everything, takes from a file: the bytes up to and
including the first newline, or fewer when the room or the file ends first.
`chunks` is a loop of such calls, and loses nothing (`flatten_chunks`).

A stream over a socket reads ahead: when its buffer is empty it takes as many
waiting bytes as fit, and keeps what `getline` does not use. `getline` waits
when the buffer and the socket hold no complete line and the peer may still
send; the part of a line taken so far stays with the call.
-/

namespace MyFtp.Posix

/-- The newline. -/
def newline : Byte := 10

/-- Up to `n` bytes, but not beyond a newline. -/
def takeLine : Nat → List Byte → List Byte × List Byte
  | 0, l => ([], l)
  | _ + 1, [] => ([], [])
  | n + 1, c :: l =>
    if c = newline then ([c], l)
    else ((c :: (takeLine n l).1), (takeLine n l).2)

theorem takeLine_append (n : Nat) (l : List Byte) : (takeLine n l).1 ++ (takeLine n l).2 = l := by
  induction n generalizing l with
  | zero => rfl
  | succ n ih =>
    cases l with
    | nil => rfl
    | cons c l =>
      rw [takeLine]
      split
      next => rfl
      next => rw [List.cons_append, ih]

theorem takeLine_length_lt {n : Nat} {l : List Byte} (hn : 0 < n) (hl : l ≠ []) :
    (takeLine n l).2.length < l.length := by
  cases n with
  | zero => exact absurd hn (Nat.lt_irrefl 0)
  | succ n =>
    cases l with
    | nil => exact absurd rfl hl
    | cons c l =>
      have h := congrArg List.length (takeLine_append n l)
      rw [List.length_append] at h
      rw [takeLine]
      split
      next => exact Nat.lt_succ_self _
      next =>
        dsimp only
        rw [List.length_cons]
        omega

/-- The pieces a reading loop with room for `n` bytes a call gets from a file.
Fuel `l.length` suffices. -/
def chunksLoop (n : Nat) : Nat → List Byte → List (List Byte)
  | 0, _ => []
  | _ + 1, [] => []
  | fuel + 1, c :: l => (takeLine n (c :: l)).1 :: chunksLoop n fuel (takeLine n (c :: l)).2

/-- The pieces of a file read with room for `n` bytes a call. -/
def chunks (n : Nat) (l : List Byte) : List (List Byte) := chunksLoop n l.length l

theorem flatten_chunksLoop {n : Nat} (hn : 0 < n) :
    ∀ (fuel : Nat) {l : List Byte}, l.length ≤ fuel → (chunksLoop n fuel l).flatten = l
  | 0, l, h => by
    obtain rfl : l = [] := List.length_eq_zero_iff.mp (Nat.le_zero.mp h)
    rfl
  | _ + 1, [], _ => rfl
  | fuel + 1, c :: l, h => by
    have hlt := takeLine_length_lt hn (List.cons_ne_nil c l)
    rw [chunksLoop, List.flatten_cons, flatten_chunksLoop hn fuel (by omega), takeLine_append]

/-- Reading in pieces loses nothing. -/
theorem flatten_chunks {n : Nat} (hn : 0 < n) (l : List Byte) : (chunks n l).flatten = l :=
  flatten_chunksLoop hn l.length (Nat.le_refl _)

/-! ## Lines -/

/-- A line with its newline. -/
def IsLine (l : List Byte) : Prop := ∃ text, newline ∉ text ∧ l = text ++ [newline]

theorem isLine_iff {l : List Byte} :
    IsLine l ↔ l.getLast? = some newline ∧ newline ∉ l.dropLast := by
  constructor
  · rintro ⟨text, htext, rfl⟩
    exact ⟨by simp, by simpa using htext⟩
  · rintro ⟨hlast, hfront⟩
    exact ⟨l.dropLast, hfront, (List.dropLast_append_getLast? newline hlast).symm⟩

instance (l : List Byte) : Decidable (IsLine l) := decidable_of_iff _ isLine_iff.symm

theorem IsLine.newline_mem {l : List Byte} (h : IsLine l) : newline ∈ l := by
  obtain ⟨text, -, rfl⟩ := h
  simp

theorem IsLine.ne_nil {l : List Byte} (h : IsLine l) : l ≠ [] := List.ne_nil_of_mem h.newline_mem

/-- A newline that comes last makes a line. -/
theorem isLine_of_mem {l : List Byte} (h : newline ∈ l) (hlast : newline ∉ l.dropLast) :
    IsLine l := by
  have hne : l ≠ [] := List.ne_nil_of_mem h
  have hsplit := List.dropLast_append_getLast hne
  rw [← hsplit, List.mem_append, List.mem_singleton] at h
  refine ⟨l.dropLast, hlast, ?_⟩
  rw [h.resolve_left hlast]
  exact hsplit.symm

/-- The lines that are complete, where the first one has begun with `begun`. -/
def linesFrom : List Byte → List Byte → List (List Byte)
  | _, [] => []
  | begun, c :: l =>
    if c = newline then (begun ++ [c]) :: linesFrom [] l else linesFrom (begun ++ [c]) l

/-- The lines that are complete. -/
def completeLines (l : List Byte) : List (List Byte) := linesFrom [] l

theorem linesFrom_of_notMem {l : List Byte} (h : newline ∉ l) (begun : List Byte) :
    linesFrom begun l = [] := by
  induction l generalizing begun with
  | nil => rfl
  | cons c l ih =>
    have hc : c ≠ newline := fun hc => h (hc ▸ List.mem_cons_self)
    rw [linesFrom, if_neg hc]
    exact ih (fun hmem => h (List.mem_cons_of_mem _ hmem)) _

theorem linesFrom_line {text : List Byte} (h : newline ∉ text) (begun rest : List Byte) :
    linesFrom begun (text ++ newline :: rest) =
      (begun ++ text ++ [newline]) :: linesFrom [] rest := by
  induction text generalizing begun with
  | nil => rw [List.nil_append, linesFrom, if_pos rfl, List.append_nil]
  | cons c text ih =>
    have hc : c ≠ newline := fun hc => h (hc ▸ List.mem_cons_self)
    rw [List.cons_append, linesFrom, if_neg hc,
      ih (fun hmem => h (List.mem_cons_of_mem _ hmem))]
    simp

/-- Lines that are complete stay so, whatever follows. -/
theorem completeLines_append {lines : List (List Byte)} (h : ∀ l ∈ lines, IsLine l)
    (rest : List Byte) : completeLines (lines.flatten ++ rest) = lines ++ completeLines rest := by
  induction lines with
  | nil => rfl
  | cons l lines ih =>
    obtain ⟨text, htext, rfl⟩ := h l List.mem_cons_self
    have hrest := ih fun l' hl' => h l' (List.mem_cons_of_mem _ hl')
    have hbytes : ((text ++ [newline]) :: lines).flatten ++ rest =
        text ++ newline :: (lines.flatten ++ rest) := by simp
    rw [hbytes, completeLines, linesFrom_line htext, List.nil_append, List.cons_append]
    exact congrArg (List.cons _) hrest

/-- With room for everything, a line is taken. -/
theorem takeLine_line {text : List Byte} (h : newline ∉ text) (rest : List Byte) {n : Nat}
    (hn : text.length < n) : takeLine n (text ++ newline :: rest) = (text ++ [newline], rest) := by
  induction text generalizing n with
  | nil =>
    cases n with
    | zero => exact absurd hn (Nat.lt_irrefl 0)
    | succ n =>
      rw [List.nil_append, takeLine, if_pos rfl]
      rfl
  | cons c text ih =>
    have hc : c ≠ newline := fun hc => h (hc ▸ List.mem_cons_self)
    cases n with
    | zero => exact absurd hn (Nat.not_lt_zero _)
    | succ n =>
      rw [List.cons_append, takeLine, if_neg hc,
        ih (fun hmem => h (List.mem_cons_of_mem _ hmem)) (Nat.lt_of_succ_lt_succ hn)]
      rfl

/-- A line is taken as a whole. -/
theorem IsLine.takeLine {l : List Byte} (h : IsLine l) (rest : List Byte) {n : Nat}
    (hn : l.length ≤ n) : takeLine n (l ++ rest) = (l, rest) := by
  obtain ⟨text, htext, rfl⟩ := h
  rw [List.append_assoc]
  refine takeLine_line htext rest ?_
  rw [List.length_append, List.length_singleton] at hn
  omega

/-- Two lines in front of the same bytes are the same. -/
theorem IsLine.append_inj {l l' rest rest' : List Byte} (h : IsLine l) (h' : IsLine l')
    (heq : l ++ rest = l' ++ rest') : l = l' ∧ rest = rest' := by
  have htake := h.takeLine rest (Nat.le_add_right l.length l'.length)
  rw [heq, h'.takeLine rest' (Nat.le_add_left l'.length l.length)] at htake
  exact ⟨(congrArg Prod.fst htake).symm, (congrArg Prod.snd htake).symm⟩

/-- The first line of some bytes. -/
theorem first_line {l : List Byte} (h : newline ∈ l) :
    ∃ text rest, newline ∉ text ∧ l = text ++ newline :: rest ∧
      takeLine l.length l = (text ++ [newline], rest) := by
  obtain ⟨text, rest, rfl, htext⟩ := List.eq_append_cons_of_mem h
  refine ⟨text, rest, htext, rfl, takeLine_line htext rest ?_⟩
  rw [List.length_append, List.length_cons]
  omega

/-! ## Streams over sockets -/

/-- What one turn of `getline` comes to. -/
inductive Turn
  /-- A line is complete; the rest stays in the buffer. -/
  | line (line rest : List Byte)
  /-- The buffer is used up and filled again. -/
  | more (taken buffer waiting : List Byte)
  /-- The stream ends. -/
  | ended (taken : List Byte)
  /-- Nothing has arrived yet. -/
  | blocked
  deriving DecidableEq

/-- One turn of `getline`, which has `taken` some bytes already: it looks for a newline in
the buffer, and reads from the socket when there is none. -/
def getlineTurn (bufsiz : Nat) (taken buffer waiting : List Byte) (ended : Bool) : Turn :=
  if newline ∈ buffer then
    let found := takeLine buffer.length buffer
    .line (taken ++ found.1) found.2
  else if waiting ≠ [] then
    .more (taken ++ buffer) (waiting.take bufsiz) (waiting.drop bufsiz)
  else if ended then .ended (taken ++ buffer)
  else .blocked

/-- A turn that completes a line. -/
theorem getlineTurn_eq_line {n : Nat} {taken buffer waiting bytes rest : List Byte} {ended : Bool}
    (h : getlineTurn n taken buffer waiting ended = .line bytes rest) :
    ∃ text, newline ∉ text ∧ buffer = text ++ newline :: rest ∧
      bytes = taken ++ text ++ [newline] := by
  unfold getlineTurn at h
  split at h
  next hmem =>
    obtain ⟨text, rest', htext, hbuffer, htake⟩ := first_line hmem
    rw [htake] at h
    dsimp only at h
    obtain ⟨rfl, rfl⟩ := Turn.line.inj h
    exact ⟨text, htext, hbuffer, by rw [List.append_assoc]⟩
  next =>
    split at h
    next => cases h
    next => split at h <;> cases h

/-- A turn that fills the buffer again. -/
theorem getlineTurn_eq_more {n : Nat} {taken buffer waiting taken' buffer' waiting' : List Byte}
    {ended : Bool} (h : getlineTurn n taken buffer waiting ended = .more taken' buffer' waiting') :
    newline ∉ buffer ∧ taken' = taken ++ buffer ∧ buffer' = waiting.take n ∧
      waiting' = waiting.drop n := by
  unfold getlineTurn at h
  split at h
  next => cases h
  next hmem =>
    split at h
    next =>
      obtain ⟨rfl, rfl, rfl⟩ := Turn.more.inj h
      exact ⟨hmem, rfl, rfl, rfl⟩
    next => split at h <;> cases h

/-- A turn at the end of the stream. -/
theorem getlineTurn_eq_ended {n : Nat} {taken buffer waiting bytes : List Byte} {ended : Bool}
    (h : getlineTurn n taken buffer waiting ended = .ended bytes) :
    ended = true ∧ newline ∉ buffer ∧ bytes = taken ++ buffer := by
  unfold getlineTurn at h
  split at h
  next => cases h
  next hmem =>
    split at h
    next => cases h
    next =>
      split at h
      next hended => exact ⟨hended, hmem, (Turn.ended.inj h).symm⟩
      next => cases h

end MyFtp.Posix
