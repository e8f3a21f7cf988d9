import MyFtp.Client.Responses
import MyFtp.Server.Listings

/-!
# What the server answers

Seen from the wire, the server answers the request for a transfer in one of two
ways: with one line, or with an opening line, the transfer itself and a closing
line. `childScript` says which it is and what is in it, for a child in any state.

> `childScript_run`: a child whose client is there says and sends what its script
> says.

Which comes first, a line or the data, is in the text of the three functions; the
context of a child keeps them apart. That order is what a script adds.
-/

namespace MyFtp.Wire

open MyFtp.Posix
open MyFtp.Server
open Prog

/-- What comes between the two lines of a transfer. -/
inductive Middle
  | sends (bytes : List Byte)
  | receives
  deriving DecidableEq

/-- The bytes that are sent. -/
def Middle.bytes : Middle → List Byte
  | .sends bytes => bytes
  | .receives => []

/-- The server's side of an answer, in the order in which it happens. A refusal has no
opening line. -/
structure Script where
  opening : Option Reply
  middle : Middle
  closing : Reply

/-- One line and no transfer. -/
def Script.refusal (r : Reply) : Script := ⟨none, .sends [], r⟩

/-- The lines that are printed. -/
def Script.replies (script : Script) : List Reply := script.opening.toList ++ [script.closing]

/-! ## The children -/

section

variable (ls : Path → FileTree → List Byte) (cans : ChildAnswers) (command : Command) (s : Ctx)

/-- The bytes of what a child prints on its data connection. `ls` is what `ls -l` prints in
a directory. -/
def itemBytes : DataItem → List Byte
  | .bytes l => l
  | .listing dir tree => ls dir tree

/-- `execute_ls_command`, in the connection's directory `W`. -/
def listScript (W : Path) : Script :=
  match s.os.tree.chdir (s.wdFrom W) command.listed with
  | none => .refusal .failedToListDirectory
  | some d =>
    if cans.popen = false then .refusal .localError
    else ⟨some .hereComesListing, .sends (ls d s.os.tree), .directorySendOk⟩

/-- `execute_retr_command`, in the connection's directory `W`. -/
def retrScript (W : Path) (path : CStr) : Script :=
  match s.os.tree.openRead (s.wdFrom W) path with
  | none => ⟨some .openingBinary, .sends [], .localError⟩
  | some file =>
    ⟨some .openingBinary, .sends (sentBytes (printed (some file))), .transferComplete⟩

/-- `execute_stor_command`. Without a stream over the data connection nothing is read from
it. -/
def storScript (path : CStr) : Script :=
  match s.os.tree.openWrite s.os.cwd path with
  | none => ⟨some .openingBinary, .sends [], .localError⟩
  | some _ =>
    ⟨some .openingBinary, if cans.fdopen then .receives else .sends [], .transferComplete⟩

/-- What a child does. -/
def childScript (W : Path) (path : CStr) : TransferBody → Script
  | .executeLsCommand => listScript ls cans command s W
  | .executeRetrCommand => retrScript s W path
  | .executeStorCommand => storScript cans s path

end

section

variable {ls : Path → FileTree → List Byte} {server : ServerT} {cans : ChildAnswers}
  {command : Command} {s : Ctx} {W : Path} {path : CStr}

/-- What a child that has come to its end has said and sent. -/
def Follows (ls : Path → FileTree → List Byte) (script : Script) (s : Ctx) (p : M CommandStatus) :
    Prop :=
  ∃ status s', p s = (.ok status, s') ∧
    s'.out = s.out ++ script.replies.flatMap (s.os.delivers s.conn.clientSockfd) ∧
    s'.data.flatMap (itemBytes ls) = s.data.flatMap (itemBytes ls) ++ script.middle.bytes

/-- A child that prints one line from another directory. -/
theorem refuse_follows {d : Path} {r : Reply} (h : s.os.kills s.conn.clientSockfd = false)
    {p : M CommandStatus} (hp : p s = refuse r (s.inDir d)) : Follows ls (.refusal r) s p := by
  have halive : (s.inDir d).os.kills (s.inDir d).conn.clientSockfd = false := h
  refine ⟨_, _, hp.trans (refuse_of_alive halive r), ?_, ?_⟩
  · show _ = s.out ++ [r].flatMap _
    rw [List.flatMap_singleton]
    rfl
  · exact (List.append_nil _).symm

/-- The child of a `LIST`. -/
theorem listScript_run (h : Connected s cans) (hW : s.conn.workingDirectory = some W) :
    Follows ls (listScript ls cans command s W) s (executeLsCommand server cans command) := by
  unfold listScript
  have hgoto := gotoPath_apply hW command
  cases hd : s.os.tree.chdir (s.wdFrom W) command.listed with
  | none =>
    rw [hd] at hgoto
    have halive : (s.inDir (s.wdFrom W)).os.kills
        (s.inDir (s.wdFrom W)).conn.clientSockfd = false :=
      h.alive
    refine refuse_follows (d := s.wdFrom W) h.alive ?_
    rw [executeLsCommand, bind_of_ok (hgoto.trans (refuse_of_alive halive _)), if_pos rfl,
      refuse_of_alive halive]
    rfl
  | some d =>
    rw [hd] at hgoto
    cases hpopen : cans.popen with
    | false =>
      have halive : (s.inDir d).os.kills (s.inDir d).conn.clientSockfd = false := h.alive
      have hlist : listDirectory cans (s.inDir d) = refuse .localError (s.inDir d) := by
        rw [listDirectory, if_pos hpopen]
      refine refuse_follows (d := d) h.alive ?_
      rw [executeLsCommand, bind_of_ok hgoto, if_neg (by simp),
        bind_of_ok (hlist.trans (refuse_of_alive halive _)), if_pos rfl, refuse_of_alive halive]
      rfl
    | true =>
      refine ⟨_, _, executeLsCommand_apply h hpopen hW hd, ?_, ?_⟩
      · simp [Script.replies, List.append_assoc]
      · simp [Middle.bytes, itemBytes]

/-- What is printed for a file does not depend on `ls`. -/
theorem flatMap_printed (file : Option FileTree.Opened) :
    (printed file).flatMap (itemBytes ls) = sentBytes (printed file) := by
  match file with
  | some (.regular _ content) =>
    rw [printed, sentBytes, List.flatMap_map, List.flatMap_map]
    rfl
  | some .directory => rfl
  | none => rfl

/-- The child of a `RETR`. -/
theorem retrScript_run (h : Connected s cans) (hW : s.conn.workingDirectory = some W)
    (hpath : command.argv.head? = some path) :
    Follows ls (retrScript s W path) s (executeRetrCommand server cans command) := by
  unfold retrScript
  cases hopen : s.os.tree.openRead (s.wdFrom W) path with
  | none =>
    let s₁ : Ctx := { s.inDir (s.os.tree.goto (s.wdFrom W) (pathStr server.path)) with
      out := s.out ++ s.os.delivers s.conn.clientSockfd .openingBinary }
    have halive : s₁.os.kills s₁.conn.clientSockfd = false := h.alive
    have hrun : executeRetrCommand server cans command s = refuse .localError s₁ := by
      rw [executeRetrCommand_opens h.alive hpath hW, hopen]
    have hdelivers : ∀ r, s₁.os.delivers s₁.conn.clientSockfd r =
        s.os.delivers s.conn.clientSockfd r := fun _ => rfl
    refine ⟨_, _, hrun.trans (refuse_of_alive halive _), ?_, ?_⟩
    · simp [Script.replies, hdelivers, s₁, List.append_assoc]
    · exact (List.append_nil _).symm
  | some file =>
    refine ⟨_, _, executeRetrCommand_apply h hpath hW (by rw [hopen]; simp), ?_, ?_⟩
    · simp [Script.replies, List.append_assoc]
    · show (s.data ++ printed (s.os.tree.openRead (s.wdFrom W) path)).flatMap (itemBytes ls) = _
      rw [List.flatMap_append, hopen, flatMap_printed]
      rfl

/-- The child of a `STOR`. -/
theorem storScript_run (h : s.os.kills s.conn.clientSockfd = false)
    (hpath : command.argv.head? = some path) :
    Follows ls (storScript cans s path) s (executeStorCommand cans command) := by
  unfold storScript
  cases hopen : s.os.tree.openWrite s.os.cwd path with
  | none =>
    let s₁ : Ctx := { s with out := s.out ++ s.os.delivers s.conn.clientSockfd .openingBinary }
    have halive : s₁.os.kills s₁.conn.clientSockfd = false := h
    have hfile : fopenWrite path s = (.ok none, s) := by rw [fopenWrite, hopen]
    have hrun : executeStorCommand cans command s = refuse .localError s₁ := by
      rw [executeStorCommand, hpath, deref_some, pure_bind_apply, bind_of_ok hfile,
        reply_bind_apply, dprintf_bind_apply, h, if_neg (by simp)]
    refine ⟨_, _, hrun.trans (refuse_of_alive halive _), ?_, ?_⟩
    · simp [Script.replies, s₁, List.append_assoc]
    · exact (List.append_nil _).symm
  | some target =>
    have hfile : fopenWrite path s =
        (.ok (some target), { s with os := { s.os with tree := s.os.tree.store target [] } }) := by
      rw [fopenWrite, hopen]
    have hwrite : ∀ (l : List Byte) (s₁ : Ctx), fwriteAll target l s₁ =
        (.ok (), { s₁ with os := { s₁.os with tree := s₁.os.tree.store target l } }) :=
      fun _ _ => rfl
    have halive : ∀ t, Os.kills { s.os with tree := t } s.conn.clientSockfd = false := fun _ => h
    have hdelivers : ∀ t r, Os.delivers { s.os with tree := t } s.conn.clientSockfd r =
        s.os.delivers s.conn.clientSockfd r := fun _ _ => rfl
    refine ⟨.success, ?_⟩
    rw [executeStorCommand, hpath, deref_some, pure_bind_apply, bind_of_ok hfile,
      reply_bind_apply, dprintf_bind_apply, halive, if_neg (by simp)]
    dsimp only
    rw [bind_of_ok (hwrite _ _), reply_bind_apply, dprintf_bind_apply, halive, if_neg (by simp)]
    have hbytes : (if cans.fdopen then Middle.receives else .sends []).bytes = [] := by
      split
      next => rfl
      next => rfl
    cases cans.fclose with
    | true =>
      rw [if_pos rfl, bind_of_ok (hwrite _ _), pure_apply]
      refine ⟨_, rfl, ?_, ?_⟩
      · simp [Script.replies, hdelivers, List.append_assoc]
      · rw [hbytes]
        exact (List.append_nil _).symm
    | false =>
      rw [if_neg (by simp), pure_apply]
      refine ⟨_, rfl, ?_, ?_⟩
      · simp [Script.replies, hdelivers, List.append_assoc]
      · rw [hbytes]
        exact (List.append_nil _).symm

/-- **Scripts.** A child whose data connection stands, and whose client is there to the
end, says and sends what its script says. -/
theorem childScript_run (h : Connected s cans) (hW : s.conn.workingDirectory = some W)
    (body : TransferBody) (hpath : body ≠ .executeLsCommand → command.argv.head? = some path) :
    Follows ls (childScript ls cans command s W path body) s (body.run server cans command) := by
  cases body with
  | executeLsCommand => exact listScript_run h hW
  | executeRetrCommand => exact retrScript_run h hW (hpath (by simp))
  | executeStorCommand => exact storScript_run h.alive (hpath (by simp))

end

end MyFtp.Wire
