import MyFtp.Posix.Stream
import MyFtp.Server.Types

/-!
# How the client reads replies

`read_response` makes a stream over the control socket, takes one line from it
and forgets the stream. Bytes that a `read` brought along behind the line are in
the buffer of that stream, and no later call gets to see them.

> `responses_eq_lines_iff`: the calls return the lines the server sent exactly
> when no `read` goes on behind a newline.
-/

namespace MyFtp.Client

open MyFtp.Posix
open MyFtp.Server (Reply)

/-- `read_response`: the line, or a null pointer at the end of the stream, and what is
left to be read from the socket. -/
def readResponse (reads : List (List Byte)) : Option (List Byte) × List (List Byte) :=
  let taken := (Stream.fresh reads).getline
  (if taken.1 = [] then none else some taken.1, taken.2.reads)

/-- What `n` calls of `read_response` return. -/
def responses : Nat → List (List Byte) → List (Option (List Byte))
  | 0, _ => []
  | n + 1, reads => (readResponse reads).1 :: responses n (readResponse reads).2

/-- A call returns the first line that is still there. What comes behind it is in
the forgotten buffer or still to be read. -/
theorem readResponse_line {l : List Byte} (hl : IsLine l) {reads : List (List Byte)}
    {rest : List Byte} (h : reads.flatten = l ++ rest) :
    (readResponse reads).1 = some l ∧
      (Stream.fresh reads).getline.2.buffer ++ (readResponse reads).2.flatten = rest := by
  obtain ⟨text, htext, rfl⟩ := hl
  have hremaining : (Stream.fresh reads).remaining = text ++ newline :: rest := by
    rw [Stream.remaining_fresh, h, List.append_assoc, List.singleton_append]
  obtain ⟨hline, hrest⟩ := (Stream.fresh reads).getline_eq (Nat.le_refl _)
  have htake : takeLine (Stream.fresh reads).remaining.length (Stream.fresh reads).remaining =
      (text ++ [newline], rest) := by
    rw [hremaining]
    refine takeLine_line htext rest ?_
    rw [List.length_append, List.length_cons]
    omega
  rw [htake] at hline hrest
  refine ⟨?_, hrest⟩
  rw [readResponse, hline, if_neg (by simp)]

/-- Calls do not return more than there is. -/
theorem length_le_of_responses {lines : List (List Byte)} {reads : List (List Byte)}
    (h : responses lines.length reads = lines.map some) :
    lines.flatten.length ≤ reads.flatten.length := by
  induction lines generalizing reads with
  | nil => exact Nat.zero_le _
  | cons l lines ih =>
    rw [List.length_cons, responses, List.map_cons, List.cons.injEq] at h
    have hrest := ih h.2
    have hline : l = (Stream.fresh reads).getline.1 := by
      have hl := h.1
      rw [readResponse] at hl
      split at hl
      next => cases hl
      next => exact (Option.some.inj hl).symm
    -- what is taken, forgotten and left makes up what there was
    obtain ⟨htaken, hleft⟩ := (Stream.fresh reads).getline_eq (Nat.le_refl _)
    have hall := congrArg List.length
      (takeLine_append (Stream.fresh reads).remaining.length (Stream.fresh reads).remaining)
    rw [← htaken, ← hleft, ← hline, Stream.remaining_fresh, Stream.remaining, List.length_append,
      List.length_append] at hall
    have hkept : (readResponse reads).2 = (Stream.fresh reads).getline.2.reads := rfl
    rw [hkept] at hrest
    rw [List.flatten_cons, List.length_append]
    omega

/-- **Replies and reads.** The server sends lines, and the connection divides them
into reads. The calls of `read_response` return these lines, each of them once
and in order, if and only if no read goes on behind a newline. -/
theorem responses_eq_lines_iff {lines : List (List Byte)} (hlines : ∀ l ∈ lines, IsLine l)
    {reads : List (List Byte)} (hreads : reads.flatten = lines.flatten) :
    responses lines.length reads = lines.map some ↔
      ∀ read ∈ reads, newline ∉ read.dropLast := by
  induction lines generalizing reads with
  | nil =>
    refine ⟨fun _ read hread hmem => ?_, fun _ => rfl⟩
    have hnil : read = [] := List.flatten_eq_nil_iff.mp hreads read hread
    rw [hnil] at hmem
    cases hmem
  | cons l lines ih =>
    have hrest : ∀ l' ∈ lines, IsLine l' := fun l' hl' => hlines l' (List.mem_cons_of_mem _ hl')
    rw [List.flatten_cons] at hreads
    obtain ⟨hfirst, hbehind⟩ := readResponse_line (hlines l List.mem_cons_self) hreads
    obtain ⟨consumed, hconsumed, hbuffer⟩ := getlineFrom_consumes reads [] []
    -- the stream was made with an empty buffer
    have hwhole : (∀ read ∈ reads, newline ∉ read.dropLast) ↔
        (Stream.fresh reads).getline.2.buffer = [] ∧
          ∀ read ∈ (readResponse reads).2, newline ∉ read.dropLast := by
      have hmem : (∀ read ∈ [] :: reads, newline ∉ read.dropLast) ↔
          ∀ read ∈ reads, newline ∉ read.dropLast := by
        rw [List.forall_mem_cons]
        exact and_iff_right (by simp)
      rw [← hmem, hconsumed, List.forall_mem_append, ← hbuffer]
      rfl
    rw [List.length_cons, responses, List.map_cons, List.cons.injEq, hwhole,
      and_iff_right hfirst]
    refine ⟨fun h => ?_, fun h => ?_⟩
    · have hnone : (Stream.fresh reads).getline.2.buffer = [] := by
        have hle := length_le_of_responses h
        have hsum := congrArg List.length hbehind
        rw [List.length_append] at hsum
        exact List.length_eq_zero_iff.mp (by omega)
      rw [hnone, List.nil_append] at hbehind
      exact ⟨hnone, (ih hrest hbehind).mp h⟩
    · rw [h.1, List.nil_append] at hbehind
      exact (ih hrest hbehind).mpr h.2

/-- The two replies of a transfer. -/
def transferReplies : List (List Byte) := [Reply.openingBinary.text, Reply.transferComplete.text]

theorem transferReplies_lines : ∀ l ∈ transferReplies, IsLine l := by
  intro l hl
  simp only [transferReplies, List.mem_cons, List.not_mem_nil, or_false] at hl
  rcases hl with rfl | rfl
  · exact ⟨lit "150 Opening BINARY mode data connection.\r", by decide, by decide⟩
  · exact ⟨lit "226 Transfer complete.\r", by decide, by decide⟩

/-- They are read when they arrive one after the other. -/
theorem responses_apart : responses 2 transferReplies = transferReplies.map some :=
  (responses_eq_lines_iff transferReplies_lines rfl).mpr (by decide)

/-- When they arrive together, the second one is lost. -/
theorem responses_together : ∃ (lines reads : List (List Byte)), (∀ l ∈ lines, IsLine l) ∧
    reads.flatten = lines.flatten ∧ responses lines.length reads ≠ lines.map some ∧
      responses lines.length reads = [lines.head?, none] := by
  refine ⟨transferReplies, [transferReplies.flatten], transferReplies_lines, ?_, ?_, ?_⟩
  · rw [List.flatten_cons, List.flatten_nil, List.append_nil]
  · decide
  · decide

end MyFtp.Client
