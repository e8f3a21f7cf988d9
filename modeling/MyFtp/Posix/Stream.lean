import MyFtp.Posix.Stdio

/-!
# Streams, read by read

A stream as the program that reads it sees it: what is left in its buffer, and
what each `read` of its descriptor returns from now on, until the peer or the
file ends. A `read` returns whatever has arrived, so for one and the same bytes
every division into reads is possible.

> `getline_eq`: the line that `getline` takes, and the bytes it leaves, do not
> depend on that division.

> `copyLoop_eq`: nor does what a loop of `getline` and `fwrite` copies, and the
> loop ends.

What does depend on it is how much has been read beyond the line
(`getlineFrom_consumes`).
-/

namespace MyFtp.Posix

/-- A stream: what is in its buffer, and what is still to be read. -/
structure Stream where
  buffer : List Byte
  reads : List (List Byte)

/-- A stream that was just made over a descriptor. -/
def Stream.fresh (reads : List (List Byte)) : Stream := ⟨[], reads⟩

/-- Every byte that is still to come. -/
def Stream.remaining (s : Stream) : List Byte := s.buffer ++ s.reads.flatten

/-- `getline`, which has taken some bytes already: what it takes, and the stream
afterwards. -/
def getlineFrom : List Byte → List Byte → List (List Byte) → List Byte × Stream
  | taken, buffer, [] =>
    if newline ∈ buffer then
      (taken ++ (takeLine buffer.length buffer).1, ⟨(takeLine buffer.length buffer).2, []⟩)
    else (taken ++ buffer, ⟨[], []⟩)
  | taken, buffer, read :: reads =>
    if newline ∈ buffer then
      (taken ++ (takeLine buffer.length buffer).1,
        ⟨(takeLine buffer.length buffer).2, read :: reads⟩)
    else getlineFrom (taken ++ buffer) read reads

/-- `getline`. It returns -1 when it takes nothing. -/
def Stream.getline (s : Stream) : List Byte × Stream := getlineFrom [] s.buffer s.reads

theorem Stream.remaining_fresh (reads : List (List Byte)) :
    (Stream.fresh reads).remaining = reads.flatten := List.nil_append _

/-! ## One line -/

/-- Bytes without a newline are taken and the line goes on. -/
theorem takeLine_of_notMem {l : List Byte} (h : newline ∉ l) (rest : List Byte) (n : Nat) :
    takeLine (l.length + n) (l ++ rest) = (l ++ (takeLine n rest).1, (takeLine n rest).2) := by
  induction l with
  | nil => rw [List.length_nil, Nat.zero_add, List.nil_append, List.nil_append]
  | cons c l ih =>
    have hc : c ≠ newline := fun hc => h (hc ▸ List.mem_cons_self)
    rw [List.length_cons, Nat.add_right_comm, List.cons_append, takeLine, if_neg hc,
      ih fun hmem => h (List.mem_cons_of_mem _ hmem)]
    rfl

/-- A line that ends within the first bytes does not depend on the others. -/
theorem takeLine_append_of_mem {l : List Byte} (h : newline ∈ l) (rest : List Byte) {n : Nat}
    (hn : l.length ≤ n) :
    takeLine n (l ++ rest) = ((takeLine l.length l).1, (takeLine l.length l).2 ++ rest) := by
  obtain ⟨text, after, htext, rfl, htake⟩ := first_line h
  rw [htake, List.append_assoc, List.cons_append, takeLine_line htext]
  rw [List.length_append, List.length_cons] at hn
  omega

theorem getlineFrom_eq (reads : List (List Byte)) :
    ∀ (taken buffer : List Byte) (n : Nat), (buffer ++ reads.flatten).length ≤ n →
      (getlineFrom taken buffer reads).1 = taken ++ (takeLine n (buffer ++ reads.flatten)).1 ∧
        (getlineFrom taken buffer reads).2.remaining =
          (takeLine n (buffer ++ reads.flatten)).2 := by
  induction reads with
  | nil =>
    intro taken buffer n hn
    rw [List.flatten_nil, List.append_nil] at hn ⊢
    rw [getlineFrom]
    by_cases hmem : newline ∈ buffer
    · have htake := takeLine_append_of_mem hmem [] hn
      rw [List.append_nil] at htake
      rw [if_pos hmem, htake]
      exact ⟨rfl, rfl⟩
    · obtain ⟨m, rfl⟩ := Nat.exists_eq_add_of_le hn
      have htake := takeLine_of_notMem hmem [] m
      have hnil : takeLine m [] = ([], []) := by
        cases m with
        | zero => rfl
        | succ m => rfl
      rw [List.append_nil, hnil, List.append_nil] at htake
      rw [if_neg hmem, htake]
      exact ⟨rfl, rfl⟩
  | cons read reads ih =>
    intro taken buffer n hn
    rw [getlineFrom]
    have hbuffer : buffer.length ≤ n := by
      rw [List.length_append] at hn
      omega
    by_cases hmem : newline ∈ buffer
    · rw [if_pos hmem, takeLine_append_of_mem hmem _ hbuffer]
      exact ⟨rfl, rfl⟩
    · -- the buffer is used up, and the line goes on in the next read
      obtain ⟨m, rfl⟩ := Nat.exists_eq_add_of_le hbuffer
      have hm : (read ++ reads.flatten).length ≤ m := by
        rw [List.length_append, List.flatten_cons] at hn
        omega
      rw [if_neg hmem, takeLine_of_notMem hmem, List.flatten_cons]
      obtain ⟨hline, hrest⟩ := ih (taken ++ buffer) read m hm
      exact ⟨by rw [hline, List.append_assoc], hrest⟩

/-- `getline` takes the first line of all that is still to come. -/
theorem Stream.getline_eq (s : Stream) {n : Nat} (hn : s.remaining.length ≤ n) :
    s.getline.1 = (takeLine n s.remaining).1 ∧
      s.getline.2.remaining = (takeLine n s.remaining).2 := by
  obtain ⟨hline, hrest⟩ := getlineFrom_eq s.reads [] s.buffer n hn
  rw [List.nil_append] at hline
  exact ⟨hline, hrest⟩

/-- What is in front of a newline at the end of some bytes. -/
theorem newline_notMem_dropLast {text rest : List Byte} (h : newline ∉ text) :
    newline ∉ (text ++ newline :: rest).dropLast ↔ rest = [] := by
  rw [List.dropLast_append_of_ne_nil (List.cons_ne_nil _ _)]
  cases rest with
  | nil => simpa using h
  | cons c rest => simp

/-- The reads `getline` consumes, the first of which is what was in the buffer.
Nothing is read beyond the line exactly when none of them goes on after a
newline. -/
theorem getlineFrom_consumes (reads : List (List Byte)) : ∀ taken buffer : List Byte,
    ∃ consumed, buffer :: reads = consumed ++ (getlineFrom taken buffer reads).2.reads ∧
      ((getlineFrom taken buffer reads).2.buffer = [] ↔
        ∀ read ∈ consumed, newline ∉ read.dropLast) := by
  have hfound : ∀ {buffer : List Byte}, newline ∈ buffer →
      ((takeLine buffer.length buffer).2 = [] ↔
        ∀ read ∈ [buffer], newline ∉ read.dropLast) := by
    intro buffer hmem
    obtain ⟨text, rest, htext, rfl, htake⟩ := first_line hmem
    rw [htake, List.forall_mem_singleton, newline_notMem_dropLast htext]
  induction reads with
  | nil =>
    intro taken buffer
    refine ⟨[buffer], ?_, ?_⟩
    · rw [getlineFrom]
      split <;> rfl
    · rw [getlineFrom]
      split
      next hmem => exact hfound hmem
      next hmem =>
        rw [List.forall_mem_singleton]
        exact ⟨fun _ h => hmem (List.dropLast_subset _ h), fun _ => rfl⟩
  | cons read reads ih =>
    intro taken buffer
    rw [getlineFrom]
    split
    next hmem => exact ⟨[buffer], rfl, hfound hmem⟩
    next hmem =>
      obtain ⟨consumed, hreads, hbuffer⟩ := ih (taken ++ buffer) read
      refine ⟨buffer :: consumed, by rw [hreads, List.cons_append], ?_⟩
      rw [hbuffer, List.forall_mem_cons]
      exact ⟨fun h => ⟨fun h' => hmem (List.dropLast_subset _ h'), h⟩, And.right⟩

/-! ## Loops -/

/-- `getline` and `fwrite` until `getline` has nothing more to take: what is
written from the `i`-th line on, of which `fwrite i n` out of `n` bytes get
through. Nothing when the fuel is used up. -/
def copyLoop (fwrite : Nat → Nat → Nat) : Nat → Nat → Stream → Option (List Byte)
  | 0, _, _ => none
  | fuel + 1, i, s =>
    let line := s.getline.1
    if line = [] then some []
    else (copyLoop fwrite fuel (i + 1) s.getline.2).map (line.take (fwrite i line.length) ++ ·)

/-- What is written of a list of lines. -/
def copied (fwrite : Nat → Nat → Nat) : Nat → List (List Byte) → List Byte
  | _, [] => []
  | i, line :: rest => line.take (fwrite i line.length) ++ copied fwrite (i + 1) rest

theorem copied_complete {fwrite : Nat → Nat → Nat} (h : ∀ i n, fwrite i n = n) (i : Nat)
    (lines : List (List Byte)) : copied fwrite i lines = lines.flatten := by
  induction lines generalizing i with
  | nil => rfl
  | cons line rest ih => rw [copied, h, List.take_length, ih, List.flatten_cons]

theorem chunksLoop_fuel {n : Nat} (hn : 0 < n) : ∀ (fuel fuel' : Nat) {l : List Byte},
    l.length ≤ fuel → l.length ≤ fuel' → chunksLoop n fuel l = chunksLoop n fuel' l
  | 0, fuel', l, h, _ => by
    obtain rfl : l = [] := List.length_eq_zero_iff.mp (Nat.le_zero.mp h)
    cases fuel' <;> rfl
  | fuel + 1, 0, l, _, h => by
    obtain rfl : l = [] := List.length_eq_zero_iff.mp (Nat.le_zero.mp h)
    rfl
  | _ + 1, _ + 1, [], _, _ => rfl
  | fuel + 1, fuel' + 1, c :: l, h, h' => by
    have hlt := takeLine_length_lt hn (List.cons_ne_nil c l)
    rw [chunksLoop, chunksLoop, chunksLoop_fuel hn fuel fuel' (by omega) (by omega)]

/-- The first piece, and the others. -/
theorem chunks_of_ne_nil {n : Nat} (hn : 0 < n) {l : List Byte} (hl : l ≠ []) :
    chunks n l = (takeLine n l).1 :: chunks n (takeLine n l).2 := by
  have hlt := takeLine_length_lt hn hl
  obtain ⟨c, l, rfl⟩ := List.exists_cons_of_ne_nil hl
  rw [chunks, List.length_cons, chunksLoop, chunks]
  rw [List.length_cons] at hlt
  rw [chunksLoop_fuel hn l.length _ (by omega) (Nat.le_refl _)]

theorem takeLine_fst_eq_nil {n : Nat} (hn : 0 < n) {l : List Byte} :
    (takeLine n l).1 = [] ↔ l = [] := by
  refine ⟨fun h => ?_, fun h => ?_⟩
  · by_contra hl
    have hlt := takeLine_length_lt hn hl
    have happend := congrArg List.length (takeLine_append n l)
    rw [List.length_append, h, List.length_nil] at happend
    omega
  · rw [h]
    cases n with
    | zero => rfl
    | succ n => rfl

/-- With enough fuel the loop ends, and it has written the lines of all that was
still to come. -/
theorem copyLoop_eq (fwrite : Nat → Nat → Nat) {n : Nat} (hn : 0 < n) (fuel : Nat) :
    ∀ (i : Nat) (s : Stream), s.remaining.length < fuel → s.remaining.length ≤ n →
      copyLoop fwrite fuel i s = some (copied fwrite i (chunks n s.remaining)) := by
  induction fuel with
  | zero => exact fun i s h => absurd h (Nat.not_lt_zero _)
  | succ fuel ih =>
    intro i s hfuel hroom
    obtain ⟨hline, hrest⟩ := s.getline_eq hroom
    rw [copyLoop, hline]
    by_cases hnil : s.remaining = []
    · rw [if_pos ((takeLine_fst_eq_nil hn).mpr hnil), hnil]
      rfl
    · have hlt := takeLine_length_lt hn hnil
      rw [if_neg (mt (takeLine_fst_eq_nil hn).mp hnil), ih (i + 1) s.getline.2, hrest,
        chunks_of_ne_nil hn hnil]
      · rfl
      · rw [hrest]
        omega
      · rw [hrest]
        omega

/-- Where no write falls short, everything is copied. -/
theorem copyLoop_complete {fwrite : Nat → Nat → Nat} (h : ∀ i n, fwrite i n = n) {fuel : Nat}
    (i : Nat) (s : Stream) (hfuel : s.remaining.length < fuel) :
    copyLoop fwrite fuel i s = some s.remaining := by
  rw [copyLoop_eq fwrite (Nat.succ_pos s.remaining.length) fuel i s hfuel (Nat.le_succ _),
    copied_complete h, flatten_chunks (Nat.succ_pos _)]

end MyFtp.Posix
