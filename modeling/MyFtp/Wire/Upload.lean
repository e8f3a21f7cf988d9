import MyFtp.Posix.Stream
import MyFtp.Server.Children

/-!
# Uploads

`put_result` of the client and `transfer_file_data` of the server: both copy a
stream line by line, the one from the local file to the data connection, the
other from the data connection to the file of the server.

> `upload_exact`: when nothing fails, both loops end and the server's file holds
> the bytes of the local file, however these were divided on their way.

The lines do not matter, since neither loop is interested in them: what both
write is the concatenation of what they read (`copyLoop_complete`).
-/

namespace MyFtp.Wire

open MyFtp.Posix
open MyFtp.Server

/-! ## The client's side -/

/-- The outcomes of the calls in `put_result`. `fopen` is what the reads of the
local file return, `flushed` how much is sent before the streams are closed. -/
structure PutAnswers where
  fdopen : Bool
  fopen : Option (List (List Byte))
  fwrite : Nat → Nat → Nat
  flushed : Nat
  fclose : Bool

/-- `put_result`: the bytes it sends. -/
def putResult (fuel : Nat) (pans : PutAnswers) : Option (List Byte) :=
  match pans.fdopen, pans.fopen with
  | true, some reads =>
    (copyLoop pans.fwrite fuel 0 (Stream.fresh reads)).map fun written =>
      if pans.fclose then written else written.take pans.flushed
  | _, _ => some []

/-- Nothing fails in the client, whose file holds `content`. -/
structure PutAnswers.Fine (pans : PutAnswers) (content : List Byte) : Prop where
  fdopen : pans.fdopen = true
  fopen : ∃ reads, pans.fopen = some reads ∧ reads.flatten = content
  fwrite : ∀ i n, pans.fwrite i n = n
  fclose : pans.fclose = true

/-- `put_result` sends the file. -/
theorem putResult_eq {pans : PutAnswers} {content : List Byte} (h : pans.Fine content) {fuel : Nat}
    (hfuel : content.length < fuel) : putResult fuel pans = some content := by
  obtain ⟨reads, hreads, rfl⟩ := h.fopen
  have hcopy := copyLoop_complete h.fwrite 0 (Stream.fresh reads)
    (by rw [Stream.remaining_fresh]; exact hfuel)
  rw [Stream.remaining_fresh] at hcopy
  rw [putResult, h.fdopen, hreads]
  dsimp only
  rw [hcopy, h.fclose]
  rfl

/-! ## The server's side -/

/-- `transfer_file_data` on a data connection that brings these reads: what it
writes to the file. -/
def transferFileDataOf (fuel : Nat) (cans : ChildAnswers) (reads : List (List Byte)) :
    Option (List Byte) :=
  if cans.fdopen = false then some [] else copyLoop cans.fwrite fuel 0 (Stream.fresh reads)

theorem storeLines_eq_copied (cans : ChildAnswers) (i : Nat) (lines : List (List Byte)) :
    storeLines cans i lines = copied cans.fwrite i lines := by
  induction lines generalizing i with
  | nil => rfl
  | cons line rest ih => rw [storeLines, copied, ih]

/-- The loop ends, and what it writes does not depend on the reads. -/
theorem transferFileDataOf_eq {fuel : Nat} {cans : ChildAnswers} {reads : List (List Byte)}
    (hreads : reads.flatten = cans.received) (hfuel : cans.received.length < fuel) :
    transferFileDataOf fuel cans reads = some (transferFileData cans) := by
  have hremaining : (Stream.fresh reads).remaining = cans.received := by
    rw [Stream.remaining_fresh, hreads]
  rw [transferFileDataOf, transferFileData]
  by_cases hopen : cans.fdopen = false
  · rw [if_pos hopen, if_pos hopen]
  rw [if_neg hopen, if_neg hopen, storeLines_eq_copied]
  rcases List.eq_nil_or_concat cans.received with hnil | ⟨_, _, hsome⟩
  · -- nothing arrives
    rw [copyLoop_eq cans.fwrite Nat.one_pos fuel 0 _ (by rw [hremaining]; exact hfuel)
      (by rw [hremaining, hnil]; exact Nat.zero_le 1), hremaining, hnil]
    rfl
  · have hpos : 0 < cans.received.length := by
      rw [hsome, List.length_concat]
      exact Nat.succ_pos _
    rw [copyLoop_eq cans.fwrite hpos fuel 0 _ (by rw [hremaining]; exact hfuel)
      (by rw [hremaining]), hremaining]

/-- Nothing fails in the child. -/
structure Fine (cans : ChildAnswers) : Prop where
  fdopen : cans.fdopen = true
  fwrite : ∀ i n, cans.fwrite i n = n
  fclose : cans.fclose = true

/-- The child of a `STOR` leaves in the file it opened what arrived. -/
theorem executeStorCommand_lookup {cans : ChildAnswers} {command : Command} {s : Ctx} {path : CStr}
    {target : FileTree.Target} (h : Fine cans) (hpath : command.argv.head? = some path)
    (hopen : s.os.tree.openWrite s.os.cwd path = some target)
    (halive : s.os.kills s.conn.clientSockfd = false) :
    (executeStorCommand cans command s).2.os.tree.lookup target.path =
      some (.file target.perm cans.received) := by
  rw [executeStorCommand_tree hpath, hopen, halive]
  dsimp only
  rw [storedContent_eq_received h.fdopen h.fclose h.fwrite]
  exact (FileTree.written_store hopen cans.received).2

/-! ## Both -/

/-- **Uploads are exact.** The client's loop ends and has sent some bytes. However
the connection divides them, the server's loop ends too and has written the
local file; and the file that the child of the `STOR` opened holds it. -/
theorem upload_exact {content : List Byte} {pans : PutAnswers} (hput : pans.Fine content)
    {fuel : Nat} (hfuel : content.length < fuel) :
    ∃ wire, putResult fuel pans = some wire ∧
      ∀ (segments : List (List Byte)) (cans : ChildAnswers), segments.flatten = wire →
        cans.received = wire → Fine cans →
        transferFileDataOf fuel cans segments = some content ∧
          ∀ (s : Ctx) (command : Command) (path : CStr) (target : FileTree.Target),
            command.argv.head? = some path → s.os.tree.openWrite s.os.cwd path = some target →
            s.os.kills s.conn.clientSockfd = false →
            (executeStorCommand cans command s).2.os.tree.lookup target.path =
              some (.file target.perm content) := by
  refine ⟨content, putResult_eq hput hfuel, ?_⟩
  intro segments cans hsegments hreceived hfine
  refine ⟨?_, ?_⟩
  · have hstored : transferFileData cans = content := by
      have h := storedContent_eq_received hfine.fdopen hfine.fclose hfine.fwrite
      rwa [storedContent, if_neg (by simp), if_pos hfine.fclose, hreceived] at h
    rw [transferFileDataOf_eq (hsegments.trans hreceived.symm) (by rw [hreceived]; exact hfuel),
      hstored]
  · intro s command path target hpath hopen halive
    rw [executeStorCommand_lookup hfine hpath hopen halive, hreceived]

/-- A file with a NUL, a carriage return and no newline at its end, read in two
pieces. -/
def twoPieces : PutAnswers :=
  { fdopen := true, fopen := some [[0, 13], [10, 65]], fwrite := fun _ n => n, flushed := 0
    fclose := true }

theorem twoPieces_fine : twoPieces.Fine [0, 13, 10, 65] :=
  ⟨rfl, ⟨_, rfl, rfl⟩, fun _ _ => rfl, rfl⟩

/-- It is sent in three. -/
theorem upload_exact_pieces : putResult 5 twoPieces = some [0, 13, 10, 65] ∧
    transferFileDataOf 5 (.fine [0, 13, 10, 65]) [[0], [13, 10], [65]] = some [0, 13, 10, 65] := by
  obtain ⟨wire, hwire, hstored⟩ := upload_exact twoPieces_fine (by decide : 4 < 5)
  have hsent : putResult 5 twoPieces = some [0, 13, 10, 65] := by decide
  obtain rfl : wire = [0, 13, 10, 65] := Option.some.inj (hwire.symm.trans hsent)
  exact ⟨hsent, (hstored [[0], [13, 10], [65]] (.fine [0, 13, 10, 65]) rfl rfl
    ⟨rfl, fun _ _ => rfl, rfl⟩).1⟩

end MyFtp.Wire
