import MyFtp.Server.Frame

/-!
# Where the process stands

Five handlers move the one process there is: they go to the connection's
directory, look something up, and go back to the server's root — or do not.
Each theorem here says what such a part computes, with every directory it
passes through written out. A `chdir` whose result the program ignores is
`goto`: it leaves the process where it was when it fails.

The test "is this below the root" compares the strings of the two paths, up to
the length of the root's (`belowRoot_iff`).
-/

namespace MyFtp.Server

open MyFtp.Posix
open Prog

variable {server : ServerT} {s : Ctx} {W : Path}

/-- The test of `check_new_path` and `check_directory_access`. -/
theorem belowRoot_iff {server : ServerT} {p : Path} :
    strncmp (pathStr p) (pathStr server.path) (pathStr server.path).length ≠ 0 ↔
      ¬ pathStr server.path <+: pathStr p :=
  not_congr strncmp_length_eq_zero

/-- `chdir(connection->working_directory)`. -/
def Ctx.wdFrom (s : Ctx) (W : Path) : Path := s.os.tree.goto s.os.cwd (pathStr W)

/-- `delete_file` works from the connection's directory, and stays there. -/
theorem deleteFile_apply (hW : s.conn.workingDirectory = some W) (path : CStr) :
    deleteFile path s =
      match s.os.tree.remove (s.wdFrom W) path with
      | none => refuse .deleteFailed (s.inDir (s.wdFrom W))
      | some t => (do reply .fileActionOkay; return .success : M CommandStatus)
          { s with os := { s.os with cwd := s.wdFrom W, tree := t } } := by
  rw [deleteFile, conn_bind_apply, hW, deref_some, pure_bind_apply, chdir_bind_apply,
    remove_bind_apply]
  dsimp only
  rw [← Ctx.wdFrom]
  cases s.os.tree.remove (s.wdFrom W) path with
  | none => rfl
  | some t => rfl

/-- `check_file_exists` opens the file from the connection's directory, and tests
whether it can be read after going back. -/
theorem checkFileExists_apply (hW : s.conn.workingDirectory = some W) (path : CStr) :
    checkFileExists server path s =
      let back := s.os.tree.goto (s.wdFrom W) (pathStr server.path)
      if s.os.tree.openRead (s.wdFrom W) path = none then
        (do reply (if s.os.tree.accessRead back path then .localError else .permissionDenied)
            return true : M Bool) (s.inDir back)
      else (Except.ok false, s.inDir back) := by
  rw [checkFileExists, conn_bind_apply, hW, deref_some, pure_bind_apply, chdir_bind_apply,
    fopenRead, gets_bind_apply, chdir_bind_apply]
  rw [← Ctx.wdFrom]
  by_cases hfp : s.os.tree.openRead (s.wdFrom W) path = none
  · rw [if_pos hfp, if_pos hfp, accessRead, gets_bind_apply]
    cases s.os.tree.accessRead (s.os.tree.goto (s.wdFrom W) (pathStr server.path)) path with
    | true => rfl
    | false => rfl
  · rw [if_neg hfp, if_neg hfp]
    rfl

/-- `check_directory_access` goes to the directory, and back only when it got
there. -/
theorem checkDirectoryAccess_apply (hW : s.conn.workingDirectory = some W) (path : CStr) :
    checkDirectoryAccess server path s =
      match s.os.tree.chdir (s.wdFrom W) path with
      | none => (do reply .failedToListDirectory; return true : M Bool) (s.inDir (s.wdFrom W))
      | some d =>
        if s.os.tree.isDir d = false then (Except.error .undefined, s.inDir d)
        else if pathStr server.path <+: pathStr d then
          (Except.ok false, s.inDir (s.os.tree.goto d (pathStr server.path)))
        else (do reply .failedToListDirectory; return true : M Bool)
          (s.inDir (s.os.tree.goto d (pathStr server.path))) := by
  rw [checkDirectoryAccess, conn_bind_apply, hW, deref_some, pure_bind_apply, chdir_bind_apply,
    chdir_bind_apply]
  rw [← Ctx.wdFrom]
  cases hd : s.os.tree.chdir (s.wdFrom W) path with
  | none =>
    rw [FileTree.goto_of_none hd]
    rfl
  | some d =>
    rw [FileTree.goto_of_chdir hd, Option.isSome_some, if_neg (by simp), getcwd, gets_bind_apply]
    rw [FileTree.getcwd]
    dsimp only
    cases hdir : s.os.tree.isDir d with
    | false => rfl
    | true =>
      rw [if_pos rfl, deref_some, pure_bind_apply, chdir_bind_apply,
        if_neg (by simp : ¬ (true = false))]
      by_cases hbelow : pathStr server.path <+: pathStr d
      · rw [if_neg (fun h => belowRoot_iff.mp h hbelow), if_pos hbelow]
        rfl
      · rw [if_pos (belowRoot_iff.mpr hbelow), if_neg hbelow]

/-- Where `change_dir` goes from the connection's directory. -/
def Ctx.target (s : Ctx) (W : Path) (path : CStr) : Path := s.os.tree.goto (s.wdFrom W) path

theorem checkExists_bind_apply {α : Type} (failed : Reply) (path : CStr) (k : Bool → M α) :
    (checkExists failed path >>= k) s =
      if s.os.tree.access s.os.cwd path = false then (reply failed >>= fun _ => k true) s
      else k false s := by
  rw [checkExists, access, bind_assoc, gets_bind_apply]
  split
  next => rw [bind_assoc]; rfl
  next => rfl

theorem checkDirectory_bind_apply {α : Type} (directory : Bool) (k : Bool → M α) :
    (checkDirectory directory >>= k) s =
      if directory = false then (reply .failedToChangeDirectory >>= fun _ => k true) s
      else k false s := by
  cases directory with
  | true => rfl
  | false => rw [checkDirectory, if_pos rfl, if_neg (by simp), bind_assoc]; rfl

/-- `check_new_path`, with the connection's new directory. -/
theorem checkNewPath_bind_apply {α : Type} (hW : s.conn.workingDirectory = some W)
    (k : Unit → M α) :
    (checkNewPath server >>= k) s =
      if pathStr server.path <+: pathStr W then k () s
      else k () { s with conn := { s.conn with
        workingDirectory := s.os.tree.getcwd s.os.cwd } } := by
  rw [checkNewPath, bind_assoc, conn_bind_apply, hW, deref_some, bind_assoc, pure_bind_apply]
  by_cases hbelow : pathStr server.path <+: pathStr W
  · rw [if_neg (fun h => belowRoot_iff.mp h hbelow), if_pos hbelow]
    rfl
  · rw [if_pos (belowRoot_iff.mpr hbelow), if_neg hbelow, bind_assoc]
    rfl

/-- The directory `change_dir` takes over when it got to `d`. -/
def Ctx.settled (server : ServerT) (s : Ctx) (d : Path) : Option Path :=
  if pathStr server.path <+: pathStr d then some d
  else s.os.tree.getcwd (s.os.tree.goto d (pathStr server.path))

/-- `change_dir` takes over a directory that is there. -/
theorem Ctx.settled_isDir (hroot : s.os.tree.NoLinks server.path) {d : Path}
    (hd : s.os.tree.isDir d = true) :
    ∃ W', s.settled server d = some W' ∧ s.os.tree.isDir W' = true := by
  rw [Ctx.settled]
  by_cases hpre : pathStr server.path <+: pathStr d
  · rw [if_pos hpre]
    exact ⟨d, rfl, hd⟩
  · have hback : s.os.tree.isDir (s.os.tree.goto d (pathStr server.path)) = true := by
      rw [FileTree.goto_pathStr_eq hroot]
      split
      next henter => exact henter.isDir
      next => exact hd
    rw [if_neg hpre, FileTree.getcwd, if_pos hback]
    exact ⟨_, rfl, hback⟩

/-- `change_dir`, once its two checks have passed: it takes over the directory it
got to, goes back to the root, and takes the root instead when the string of the
new directory does not begin with the root's. -/
theorem changeDir_apply (hW : s.conn.workingDirectory = some W) (path : CStr) :
    changeDir server path s =
      if s.os.tree.access s.os.cwd path = false ∨ s.os.tree.opendir s.os.cwd path = false then
        refuse .failedToChangeDirectory s
      else if s.os.tree.isDir (s.target W path) = false then
        (Except.error .undefined,
          { s.inDir (s.os.tree.goto (s.target W path) (pathStr server.path)) with
            conn := { s.conn with workingDirectory := none } })
      else
        (do reply .directoryChanged; return .success : M CommandStatus)
          { s.inDir (s.os.tree.goto (s.target W path) (pathStr server.path)) with
            conn := { s.conn with workingDirectory := s.settled server (s.target W path) } } := by
  rw [changeDir, checkExists_bind_apply]
  by_cases hacc : s.os.tree.access s.os.cwd path = false
  · rw [if_pos hacc, if_pos (Or.inl hacc)]
    rfl
  rw [if_neg hacc, if_neg (by simp), opendir, gets_bind_apply, checkDirectory_bind_apply]
  by_cases hopen : s.os.tree.opendir s.os.cwd path = false
  · rw [if_pos hopen, if_pos (Or.inr hopen)]
    rfl
  rw [if_neg hopen, if_neg (by simp), conn_bind_apply, hW, deref_some, pure_bind_apply,
    chdir_bind_apply, chdir_bind_apply, getcwd, gets_bind_apply, modifyConn_bind_apply,
    chdir_bind_apply]
  rw [← Ctx.wdFrom, if_neg (by tauto), FileTree.getcwd, Ctx.settled]
  -- the record now holds what `getcwd` gave in the target
  let entered := if s.os.tree.isDir (s.target W path) = true then some (s.target W path) else none
  show (checkNewPath server >>= fun _ => do reply .directoryChanged; return CommandStatus.success)
    { s.inDir (s.os.tree.goto (s.target W path) (pathStr server.path)) with
      conn := { s.conn with workingDirectory := entered } } = _
  dsimp only [entered]
  cases hdir : s.os.tree.isDir (s.target W path) with
  | false => rfl
  | true =>
    rw [if_pos rfl, if_neg (by simp : ¬ (true = false))]
    by_cases hbelow : pathStr server.path <+: pathStr (s.target W path)
    · rw [checkNewPath_bind_apply rfl, if_pos hbelow, if_pos hbelow]
    · rw [checkNewPath_bind_apply rfl, if_neg hbelow, if_neg hbelow]

/-! ## What gets past the checks -/

/-- `LIST` goes on only from a directory whose string begins with the root's. -/
theorem checkListArgument_eq_false {s₁ : Ctx} (hW : s.conn.workingDirectory = some W) {path : CStr}
    (h : checkListArgument server path s = (.ok false, s₁)) :
    s.os.tree.access s.os.cwd path = true ∧
      ∃ d, s.os.tree.chdir (s.wdFrom W) path = some d ∧ pathStr server.path <+: pathStr d ∧
        s₁ = s.inDir (s.os.tree.goto d (pathStr server.path)) := by
  have hrefused : ∀ (r : Reply) (s₂ : Ctx),
      (do reply r; return true : M Bool) s₂ ≠ (.ok false, s₁) := by
    intro r s₂ h
    exact Bool.noConfusion (answer_eq_ok h).1
  rw [checkListArgument, checkExists_bind_apply] at h
  by_cases hacc : s.os.tree.access s.os.cwd path = false
  · rw [if_pos hacc] at h
    exact absurd h (hrefused _ _)
  rw [if_neg hacc, if_neg (by simp), checkDirectoryAccess_apply hW] at h
  refine ⟨by simpa using hacc, ?_⟩
  cases hd : s.os.tree.chdir (s.wdFrom W) path with
  | none =>
    rw [hd] at h
    exact absurd h (hrefused _ _)
  | some d =>
    rw [hd] at h
    dsimp only at h
    split at h
    next => cases h
    next =>
      split at h
      next hbelow => exact ⟨d, rfl, hbelow, (Prod.mk.inj h).2.symm⟩
      next => exact absurd h (hrefused _ _)

/-- `change_dir` refuses and leaves everything as it is, or goes through with
it. -/
theorem changeDir_eq_ok {s' : Ctx} {status : CommandStatus}
    (hW : s.conn.workingDirectory = some W) {path : CStr}
    (h : changeDir server path s = (.ok status, s')) :
    (s' = { s with out := s'.out }) ∨
      (s.os.tree.access s.os.cwd path = true ∧ s.os.tree.opendir s.os.cwd path = true ∧
        s.os.tree.isDir (s.target W path) = true ∧
        s' = { s.inDir (s.os.tree.goto (s.target W path) (pathStr server.path)) with
          conn := { s.conn with workingDirectory := s.settled server (s.target W path) }
          out := s'.out }) := by
  rw [changeDir_apply hW] at h
  split at h
  next => exact .inl (by rw [(refuse_eq_ok h).2])
  next hpass =>
    split at h
    next => cases h
    next hdir =>
      refine .inr ⟨?_, ?_, by simpa using hdir, by rw [(answer_eq_ok h).2]⟩
      · by_contra hacc
        exact hpass (.inl (by simpa using hacc))
      · by_contra hopen
        exact hpass (.inr (by simpa using hopen))

end MyFtp.Server
