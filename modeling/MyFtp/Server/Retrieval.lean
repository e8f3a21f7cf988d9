import MyFtp.Server.Children
import MyFtp.Server.World

/-!
# Downloads

The loop of `execute_retr_command` reads the file in pieces with `fgets` and
prints each of them with `%s`. Where a piece is cut does not matter. What it
holds does: the print stops at the first NUL.

> `retr_exact_iff`: a child whose calls all succeed sends exactly the file if and
> only if there is no NUL byte in it.

A piece that is cut short makes the whole shorter, and no other piece makes up
for it (`flatten_cstr_eq_iff`).
-/

namespace MyFtp.Server

open MyFtp.Posix
open Prog

/-! ## Printing pieces -/

theorem length_cstr_le (buffer : List Byte) : (cstr buffer).length ≤ buffer.length :=
  (List.takeWhile_sublist _).length_le

theorem cstr_eq_self_iff {buffer : List Byte} : cstr buffer = buffer ↔ NulFree buffer := by
  constructor
  · intro h
    rw [← h]
    exact nulFree_cstr buffer
  · exact cstr_eq_self

theorem length_flatten_cstr_le (l : List (List Byte)) :
    (l.map cstr).flatten.length ≤ l.flatten.length := by
  induction l with
  | nil => exact Nat.le_refl 0
  | cons chunk rest ih =>
    rw [List.map_cons, List.flatten_cons, List.flatten_cons, List.length_append,
      List.length_append]
    exact Nat.add_le_add (length_cstr_le chunk) ih

/-- The pieces are printed whole exactly when none of them holds a NUL. -/
theorem flatten_cstr_eq_iff {l : List (List Byte)} :
    (l.map cstr).flatten = l.flatten ↔ NulFree l.flatten := by
  induction l with
  | nil => exact ⟨fun _ => List.not_mem_nil, fun _ => rfl⟩
  | cons chunk rest ih =>
    rw [List.map_cons, List.flatten_cons, List.flatten_cons, NulFree, List.mem_append, not_or]
    rw [← NulFree, ← NulFree, ← cstr_eq_self_iff, ← ih]
    constructor
    · intro h
      -- neither part is longer than it was, so both are as long
      have hlength := congrArg List.length h
      rw [List.length_append, List.length_append] at hlength
      have hchunk := length_cstr_le chunk
      have hrest := length_flatten_cstr_le rest
      exact List.append_inj h (by omega)
    · intro h
      rw [h.1, h.2]

/-- What is printed for a file. -/
theorem sentBytes_printed_iff (p : Path) (content : List Byte) :
    sentBytes (printed (some (.regular p content))) = content ↔ NulFree content := by
  have hwhole : (chunks 1023 content).flatten = content := flatten_chunks (by omega) content
  have hsent : sentBytes (printed (some (.regular p content))) =
      ((chunks 1023 content).map cstr).flatten := by
    rw [printed, sentBytes, List.flatMap_map, List.flatMap_def]
  have hiff : ((chunks 1023 content).map cstr).flatten = (chunks 1023 content).flatten ↔
      NulFree (chunks 1023 content).flatten := flatten_cstr_eq_iff
  rw [hwhole] at hiff
  rw [hsent]
  exact hiff

/-! ## The child of a `RETR` -/

/-- **When a download is exact.** The child opens the file from the connection's
directory, and no read or write of it fails. What it sends is the file if and only
if the file holds no NUL byte. -/
theorem retr_exact_iff (server : ServerT) (cans : ChildAnswers) (command : Command) (s : Ctx)
    (W p : Path) (path : CStr) (content : List Byte) (hconnected : Connected s cans)
    (hpath : command.argv.head? = some path) (hW : s.conn.workingDirectory = some W)
    (hopen : s.os.tree.openRead (s.wdFrom W) path = some (.regular p content)) :
    ∃ items s', executeRetrCommand server cans command s = (.ok .success, s') ∧
      s'.data = s.data ++ items ∧ (sentBytes items = content ↔ NulFree content) := by
  refine ⟨_, _, executeRetrCommand_apply hconnected hpath hW (by rw [hopen]; simp), rfl, ?_⟩
  rw [hopen]
  exact sentBytes_printed_iff p content

/-- The file `pub` holds `content` where the root has a directory of that name,
and a data connection stands. -/
def sending (content : List Byte) : Ctx :=
  Ctx.start
    { smallSetup.os with
      tree := (smallSetup.tree.drop [srv, ftp, pub]).put [srv, ftp] pub (.file .all content)
      desc := Function.update smallSetup.os.desc 4 (some (.control 0)) }
    { initConnection smallSetup.server 4 ⟨0, 0⟩ with
      loggedIn := true, dataSocket := some (activeSocket [127, 0, 0, 1, 4, 1] 7) }

theorem sending_connected (content : List Byte) (received : List Byte) :
    Connected (sending content) (.fine received) :=
  ⟨⟨_, 7, rfl, rfl⟩, rfl, rfl⟩

/-- Two lines, the second without its newline. -/
theorem retr_exact_iff_lines : ∃ items s',
    executeRetrCommand smallSetup.server (.fine []) ⟨lit "RETR", [lit "pub"]⟩
        (sending (lit "one\ntwo")) = (.ok .success, s') ∧
      s'.data = items ∧ sentBytes items = lit "one\ntwo" := by
  obtain ⟨items, s', hrun, hdata, hiff⟩ := retr_exact_iff smallSetup.server (.fine [])
    ⟨lit "RETR", [lit "pub"]⟩ (sending (lit "one\ntwo")) [srv, ftp] [srv, ftp, pub] (lit "pub")
    (lit "one\ntwo") (sending_connected _ _) rfl rfl (by decide +kernel)
  exact ⟨items, s', hrun, hdata, hiff.mpr (by decide)⟩

/-- Of the bytes `O`, NUL and `K` the first is sent, and the reply is 226. -/
theorem retr_cut : ∃ s',
    executeRetrCommand smallSetup.server (.fine []) ⟨lit "RETR", [lit "pub"]⟩
        (sending [79, 0, 75]) = (.ok .success, s') ∧
      sentBytes s'.data = [79] ∧ s'.out = [(0, .openingBinary), (0, .transferComplete)] := by
  let s := sending [79, 0, 75]
  have hopen : s.os.tree.openRead (s.wdFrom [srv, ftp]) (lit "pub") =
      some (.regular [srv, ftp, pub] [79, 0, 75]) := by decide +kernel
  have hsome : s.os.tree.openRead (s.wdFrom [srv, ftp]) (lit "pub") ≠ none := by
    rw [hopen]
    exact Option.some_ne_none _
  have hrun : executeRetrCommand smallSetup.server (.fine []) ⟨lit "RETR", [lit "pub"]⟩ s = _ :=
    executeRetrCommand_apply (sending_connected [79, 0, 75] []) rfl rfl hsome
  have hpath : smallSetup.server.path = [srv, ftp] := rfl
  rw [hpath, hopen] at hrun
  exact ⟨_, hrun, by decide, by decide⟩

end MyFtp.Server
