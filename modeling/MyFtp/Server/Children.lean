import MyFtp.Posix.Store
import MyFtp.Server.Directories
import MyFtp.Server.Transfer

/-!
# What a child does

A child may stop anywhere, so everything here is said of the state it leaves,
whatever the outcome. It prints, it moves about, and it does one thing more:

> `executeLsCommand_leaves`: `LIST` shows one directory, the one the look-up of
> its argument from the connection's directory ends in.

> `executeRetrCommand_silent`, `executeStorCommand_silent`: the other two list
> nothing, and the tree they leave has no new directory or link in it.

> `executeRetrCommand_sends`, `executeStorCommand_tree`: which file one of them
> sends, and which the other writes.
-/

namespace MyFtp.Server

open MyFtp.Posix
open Prog

variable {server : ServerT} {cans : ChildAnswers} {command : Command} {s : Ctx} {W : Path}

/-- A sequence that stops early leaves the state of its first half. -/
theorem bind_leaves {α β : Type} (p : M α) (k : α → M β) (s : Ctx) :
    ((p >>= k) s).2 = (p s).2 ∨ ∃ a, p s = (.ok a, (p s).2) ∧ ((p >>= k) s).2 =
      (k a (p s).2).2 := by
  match hp : p s with
  | (.ok a, s₁) => exact .inr ⟨a, rfl, by rw [bind_of_ok hp]⟩
  | (.error e, s₁) => exact .inl (by rw [bind_of_error hp])

/-- A property that follows the text of the handlers holds of what a child runs, if it holds
of the calls a child makes. -/
theorem Follows.run {P : ∀ {α : Type}, M α → Prop} (hP : Follows P) (hreply : ∀ r, P (reply r))
    (hchdir : ∀ path, P (chdir path)) (hdata : ∀ item, P (dataDprintf cans item))
    (hopen : ∀ path, P (fopenWrite path)) (hwrite : ∀ target content, P (fwriteAll target content))
    (body : TransferBody) : P (body.run server cans command) := by
  have hsend : ∀ l : List (List Byte), P (sendChunks cans l) := by
    intro l
    induction l with
    | nil => exact hP.pure _
    | cons chunk rest ih => exact hP.bind (hdata _) fun _ => ih
  cases body with
  | executeLsCommand =>
    have hgoto : P (gotoPath command) :=
      hP.bind hP.conn fun _ => hP.bind (hP.deref _) fun _ => hP.bind (hchdir _) fun _ =>
        hP.bind (hchdir _) fun _ => prop_ite (fun _ => hP.refuse hreply _) fun _ => hP.pure _
    have hlist : P (listDirectory cans) :=
      prop_ite (fun _ => hP.refuse hreply _) fun _ => hP.bind (hreply _) fun _ =>
        hP.bind (hP.gets _) fun _ => hP.bind (hdata _) fun _ => hP.pure _
    exact hP.bind hgoto fun _ => prop_ite (fun _ => hP.pure _) fun _ =>
      hP.bind hlist fun _ => prop_ite (fun _ => hP.pure _) fun _ =>
        hP.bind (hchdir _) fun _ => hP.answer hreply _ _
  | executeRetrCommand =>
    refine hP.bind (hreply _) fun _ => hP.bind hP.conn fun _ => hP.bind (hP.deref _) fun _ =>
      hP.bind (hchdir _) fun _ => hP.bind (hP.deref _) fun _ => hP.bind (hP.gets _) fun fp =>
        hP.bind (hchdir _) fun _ => ?_
    match fp with
    | none => exact hP.refuse hreply _
    | some .directory => exact hP.answer hreply _ _
    | some (.regular p content) => exact hP.bind (hsend _) fun _ => hP.answer hreply _ _
  | executeStorCommand =>
    refine hP.bind (hP.deref _) fun _ => hP.bind (hopen _) fun file =>
      hP.bind (hreply _) fun _ => ?_
    cases file with
    | none => exact hP.refuse hreply _
    | some target =>
      exact hP.bind (hwrite _ _) fun _ => hP.bind (hreply _) fun _ =>
        prop_ite (fun _ => hP.bind (hwrite _ _) fun _ => hP.pure _) fun _ => hP.pure _

/-! ## `LIST` -/

/-- The path name a listing is asked for. -/
def Command.listed (command : Command) : CStr := command.argv.head?.getD (lit ".")

/-- `goto_path` looks the argument up from the connection's directory. -/
theorem gotoPath_apply (hW : s.conn.workingDirectory = some W) (command : Command) :
    gotoPath command s =
      match s.os.tree.chdir (s.wdFrom W) command.listed with
      | none => refuse .failedToListDirectory (s.inDir (s.wdFrom W))
      | some d => (.ok .success, s.inDir d) := by
  unfold gotoPath
  rw [conn_bind_apply, hW, deref_some, pure_bind_apply, chdir_bind_apply, chdir_bind_apply]
  rw [← Ctx.wdFrom, ← Command.listed]
  cases hd : s.os.tree.chdir (s.wdFrom W) command.listed with
  | none =>
    rw [FileTree.goto_of_none hd]
    rfl
  | some d =>
    rw [FileTree.goto_of_chdir hd]
    rfl

/-- Printing and moving leave the files and what was sent alone. -/
def Idle (s s' : Ctx) : Prop := s'.os.tree = s.os.tree ∧ s'.data = s.data

instance : Std.Refl Idle := ⟨fun _ => ⟨rfl, rfl⟩⟩

instance : IsTrans Ctx Idle := ⟨fun _ _ _ h h' => ⟨h'.1.trans h.1, h'.2.trans h.2⟩⟩

theorem idle_reply (r : Reply) : Keeps Idle (reply r) :=
  keeps_reply (fun s => Std.Refl.refl s) (fun _ _ => ⟨rfl, rfl⟩) r

theorem idle_chdir (path : CStr) : Keeps Idle (chdir path) :=
    keeps_chdir (fun _ _ => ⟨rfl, rfl⟩) path

theorem dataDprintf_leaves (item : DataItem) (s : Ctx) :
    (dataDprintf cans item s).2 = s ∨
      (dataDprintf cans item s).2 = { s with data := s.data ++ [item] } := by
  rw [dataDprintf, conn_bind_apply]
  cases s.conn.dataSocket with
  | none => exact .inl rfl
  | some d =>
    rw [deref_some, pure_bind_apply]
    cases d.clientSockfd with
    | none => exact .inl rfl
    | some fd =>
      dsimp only
      split
      next => exact .inl rfl
      next => exact .inr rfl

/-- `list_directory` lists where the process stands, or nothing. -/
theorem listDirectory_leaves (s : Ctx) :
    (listDirectory cans s).2.os.tree = s.os.tree ∧
      ((listDirectory cans s).2.data = s.data ∨
        (listDirectory cans s).2.data = s.data ++ [.listing s.os.cwd s.os.tree]) := by
  unfold listDirectory
  split
  next =>
    obtain ⟨htree, hdata⟩ := keeps_refuse idle_reply .localError s
    exact ⟨htree, .inl hdata⟩
  next =>
    rw [reply_bind_apply, dprintf_bind_apply]
    split
    next => exact ⟨rfl, .inl rfl⟩
    next =>
      rw [gets_bind_apply]
      let s₁ : Ctx := { s with out := s.out ++ s.os.delivers s.conn.clientSockfd .hereComesListing }
      have hprint : (dataDprintf cans (.listing s.os.cwd s.os.tree) s₁).2 = s₁ ∨ _ :=
        dataDprintf_leaves _ s₁
      rcases bind_leaves (dataDprintf cans (.listing s.os.cwd s.os.tree))
        (fun _ => pure CommandStatus.success)
        { s with out := s.out ++ s.os.delivers s.conn.clientSockfd .hereComesListing } with
        h | ⟨_, -, h⟩
      · rw [h]
        rcases hprint with h | h
        · rw [h]
          exact ⟨rfl, .inl rfl⟩
        · rw [h]
          exact ⟨rfl, .inr rfl⟩
      · rw [h, pure_apply]
        rcases hprint with h | h
        · rw [h]
          exact ⟨rfl, .inl rfl⟩
        · rw [h]
          exact ⟨rfl, .inr rfl⟩

/-- The one directory a `LIST` shows. -/
theorem executeLsCommand_leaves (hW : s.conn.workingDirectory = some W) :
    (executeLsCommand server cans command s).2.os.tree = s.os.tree ∧
      ((executeLsCommand server cans command s).2.data = s.data ∨
        ∃ d, s.os.tree.chdir (s.wdFrom W) command.listed = some d ∧
          (executeLsCommand server cans command s).2.data =
            s.data ++ [.listing d s.os.tree]) := by
  unfold executeLsCommand
  have hgoto := gotoPath_apply hW command
  cases hd : s.os.tree.chdir (s.wdFrom W) command.listed with
  | none =>
    rw [hd] at hgoto
    have hidle : Idle s (gotoPath command s).2 := by
      rw [hgoto]
      exact IsTrans.trans _ _ _ ⟨rfl, rfl⟩ (keeps_refuse idle_reply .failedToListDirectory _)
    rcases bind_leaves (gotoPath command) _ s with h | ⟨status, hs, h⟩
    · rw [h]
      exact ⟨hidle.1, .inl hidle.2⟩
    · obtain rfl : status = .failure := (refuse_eq_ok (hgoto ▸ hs)).1
      rw [h, if_pos rfl]
      exact ⟨hidle.1, .inl hidle.2⟩
  | some d =>
    rw [hd] at hgoto
    rw [bind_of_ok hgoto, if_neg (by simp)]
    have hlisting : (listDirectory cans (s.inDir d)).2.os.tree = s.os.tree ∧ _ :=
      listDirectory_leaves (s.inDir d)
    obtain ⟨htree, hdata⟩ := hlisting
    have hend : ∀ s₁ : Ctx, Idle s₁ ((do
        let _ ← chdir (pathStr server.path)
        reply .directorySendOk
        return CommandStatus.success : M CommandStatus) s₁).2 :=
      (idle_chdir _).bind fun _ => (idle_reply _).bind fun _ => keeps_pure _
    have hlist : ∀ s₁ : Ctx, (s₁.data = s.data ∨ s₁.data = s.data ++ [.listing d s.os.tree]) →
        s₁.data = s.data ∨ ∃ d', some d = some d' ∧
          s₁.data = s.data ++ [.listing d' s.os.tree] :=
      fun s₁ h => h.imp id fun h => ⟨d, rfl, h⟩
    rcases bind_leaves (listDirectory cans) _ (s.inDir d) with h | ⟨status, -, h⟩
    · rw [h]
      exact ⟨htree, hlist _ hdata⟩
    · rw [h]
      split
      next => exact ⟨htree, hlist _ hdata⟩
      next =>
        obtain ⟨htree', hdata'⟩ := hend (listDirectory cans (s.inDir d)).2
        exact ⟨htree'.trans htree, hlist _ (by rw [hdata']; exact hdata)⟩

/-! ## `RETR` and `STOR` -/

/-- No directory and no link is created, and nothing is listed. -/
structure Silent (s s' : Ctx) : Prop where
  tree : FileTree.Later s.os.tree s'.os.tree
  data : ∀ dir tree, .listing dir tree ∈ s'.data → .listing dir tree ∈ s.data

instance : Std.Refl Silent := ⟨fun _ => ⟨FileTree.later_refl _, fun _ _ h => h⟩⟩

instance : IsTrans Ctx Silent := ⟨fun _ _ _ h h' =>
  ⟨FileTree.later_trans h.tree h'.tree, fun dir tree hd => h.data dir tree (h'.data dir tree hd)⟩⟩

theorem Idle.silent {s s' : Ctx} (h : Idle s s') : Silent s s' :=
  ⟨by rw [h.1]; exact FileTree.later_refl _, fun _ _ hd => by rwa [h.2] at hd⟩

theorem silent_reply (r : Reply) : Keeps Silent (reply r) := fun s => (idle_reply r s).silent

theorem silent_chdir (path : CStr) : Keeps Silent (chdir path) :=
  fun s => (idle_chdir path s).silent

theorem silent_bytes (l : List Byte) : Keeps Silent (dataDprintf cans (.bytes l)) := by
  intro s
  have hprint : (dataDprintf cans (.bytes l) s).2 = s ∨ _ := dataDprintf_leaves _ s
  rcases hprint with h | h
  · rw [h]
    exact Std.Refl.refl s
  · rw [h]
    refine ⟨FileTree.later_refl _, fun dir tree hd => ?_⟩
    simpa using hd

theorem silent_sendChunks (l : List (List Byte)) : Keeps Silent (sendChunks cans l) := by
  induction l with
  | nil => exact keeps_pure _
  | cons chunk rest ih => exact (silent_bytes _).bind fun _ => ih

theorem executeRetrCommand_silent :
    Keeps Silent (executeRetrCommand server cans command) := by
  refine (silent_reply _).bind fun _ => keeps_conn.bind fun _ => (keeps_deref _).bind fun _ =>
    (silent_chdir _).bind fun _ => (keeps_deref _).bind fun _ => (keeps_gets _).bind fun _ =>
      (silent_chdir _).bind fun _ => ?_
  split
  next => exact keeps_refuse silent_reply _
  next => exact (silent_reply _).bind fun _ => keeps_pure _
  next =>
    exact (silent_sendChunks _).bind fun _ => (silent_reply _).bind fun _ => keeps_pure _

theorem silent_store (target : FileTree.Target) (content : List Byte) :
    Keeps Silent (fwriteAll target content) :=
  fun _ => ⟨FileTree.later_put _ _ _ _ _, fun _ _ h => h⟩

theorem silent_fopenWrite (path : CStr) : Keeps Silent (fopenWrite path) := by
  intro s
  rw [fopenWrite]
  split
  next => exact ⟨FileTree.later_put _ _ _ _ _, fun _ _ h => h⟩
  next => exact Std.Refl.refl s

theorem executeStorCommand_silent : Keeps Silent (executeStorCommand cans command) := by
  refine (keeps_deref _).bind fun _ => (silent_fopenWrite _).bind fun _ =>
    (silent_reply _).bind fun _ => ?_
  split
  next => exact keeps_refuse silent_reply _
  next =>
    exact (silent_store _ _).bind fun _ => (silent_reply _).bind fun _ =>
      Keeps.ite (fun _ => (silent_store _ _).bind fun _ => keeps_pure _) fun _ => keeps_pure _

/-- What a `STOR` child leaves in the file it opened. `killed` tells whether it
is stopped when it prints its first reply. -/
def storedContent (cans : ChildAnswers) (killed : Bool) : List Byte :=
  if killed then []
  else if cans.fclose then transferFileData cans
  else (transferFileData cans).take cans.flushed

/-- When nothing fails, the file holds what arrived. -/
theorem storedContent_eq_received (hopen : cans.fdopen = true) (hclose : cans.fclose = true)
    (hwrite : ∀ i n, cans.fwrite i n = n) : storedContent cans false = cans.received := by
  have hlines : ∀ (lines : List (List Byte)) (i : Nat), storeLines cans i lines =
      lines.flatten := by
    intro lines
    induction lines with
    | nil => exact fun _ => rfl
    | cons line rest ih =>
      intro i
      rw [storeLines, hwrite, List.take_length, ih, List.flatten_cons]
  rw [storedContent, if_neg (by simp), if_pos hclose, transferFileData, if_neg (by simp [hopen]),
    hlines]
  by_cases hnil : cans.received = []
  · rw [hnil]
    rfl
  · exact flatten_chunks (List.length_pos_of_ne_nil hnil) _

/-- `execute_stor_command` opens the name from where the process stands. -/
theorem executeStorCommand_tree {path : CStr} (hpath : command.argv.head? = some path) :
    (executeStorCommand cans command s).2.os.tree =
      match s.os.tree.openWrite s.os.cwd path with
      | none => s.os.tree
      | some target =>
        s.os.tree.store target (storedContent cans (s.os.kills s.conn.clientSockfd)) := by
  rw [executeStorCommand, hpath, deref_some, pure_bind_apply]
  cases hopen : s.os.tree.openWrite s.os.cwd path with
  | none =>
    have hfile : fopenWrite path s = (.ok none, s) := by rw [fopenWrite, hopen]
    rw [bind_of_ok hfile]
    exact ((idle_reply _).bind fun _ => keeps_refuse idle_reply _ : Keeps Idle _) s |>.1
  | some target =>
    have hfile : fopenWrite path s =
        (.ok (some target), { s with os := { s.os with tree := s.os.tree.store target [] } }) := by
      rw [fopenWrite, hopen]
    rw [bind_of_ok hfile, reply_bind_apply, dprintf_bind_apply]
    have hsame : Os.kills { s.os with tree := s.os.tree.store target [] } s.conn.clientSockfd =
        s.os.kills s.conn.clientSockfd := rfl
    rw [hsame, storedContent]
    cases hk : s.os.kills s.conn.clientSockfd with
    | true => rfl
    | false =>
      rw [if_neg (by simp), if_neg (by simp)]
      -- the child is still alive: the file gets its bytes, and more of them when it is closed
      have hwrite : ∀ (l : List Byte) (s₁ : Ctx), fwriteAll target l s₁ =
          (.ok (), { s₁ with os := { s₁.os with tree := s₁.os.tree.store target l } }) :=
        fun _ _ => rfl
      dsimp only
      rw [bind_of_ok (hwrite _ _), reply_bind_apply, dprintf_bind_apply]
      have hsame' : ∀ l, Os.kills { s.os with tree := (s.os.tree.store target []).store target l }
          s.conn.clientSockfd = s.os.kills s.conn.clientSockfd := fun _ => rfl
      rw [hsame', hk, if_neg (by simp)]
      cases cans.fclose with
      | true =>
        rw [if_pos rfl, if_pos rfl, bind_of_ok (hwrite _ _), pure_apply]
        rw [FileTree.store_store, FileTree.store_store]
      | false =>
        rw [if_neg (by simp), if_neg (by simp), pure_apply]
        rw [FileTree.store_store]

/-- The bytes among what is sent on a data connection. -/
def sentBytes (items : List DataItem) : List Byte :=
  items.flatMap fun
    | .bytes l => l
    | .listing _ _ => []

/-- What reading an opened file yields. A directory can be opened, but not
read. -/
def readable : Option FileTree.Opened → List Byte
  | some (.regular _ content) => content
  | _ => []

/-- The child of a transfer whose data connection stands, and whose client is
there to the end. -/
structure Connected (s : Ctx) (cans : ChildAnswers) : Prop where
  data : ∃ d fd, s.conn.dataSocket = some d ∧ d.clientSockfd = some fd
  peer : cans.dataWrites = none
  alive : s.os.kills s.conn.clientSockfd = false

theorem dataDprintf_connected {item : DataItem} (h : Connected s cans) :
    dataDprintf cans item s = (.ok (), { s with data := s.data ++ [item] }) := by
  obtain ⟨d, fd, hd, hfd⟩ := h.data
  rw [dataDprintf, conn_bind_apply, hd, deref_some, pure_bind_apply, hfd]
  dsimp only
  rw [h.peer]
  rfl

theorem sendChunks_connected (l : List (List Byte)) (h : Connected s cans) :
    sendChunks cans l s =
      (.ok (), { s with data := s.data ++ l.map fun chunk => .bytes (cstr chunk) }) := by
  induction l generalizing s with
  | nil =>
    rw [sendChunks, List.map_nil, List.append_nil]
    rfl
  | cons chunk rest ih =>
    rw [sendChunks, bind_of_ok (dataDprintf_connected h),
      ih (s := { s with data := s.data ++ [.bytes (cstr chunk)] }) ⟨h.data, h.peer, h.alive⟩]
    rw [List.map_cons, List.append_assoc, List.singleton_append]

/-- A file without NUL is printed as it is. -/
theorem sentBytes_chunks {content : List Byte} (h : NulFree content) :
    sentBytes ((chunks 1023 content).map fun chunk => .bytes (cstr chunk)) = content := by
  have hchunk : ∀ chunk ∈ chunks 1023 content, cstr chunk = chunk := by
    intro chunk hmem
    refine cstr_eq_self fun hb => h ?_
    rw [← flatten_chunks (n := 1023) (by simp) content]
    exact List.mem_flatten.mpr ⟨chunk, hmem, hb⟩
  have hflat := flatten_chunks (n := 1023) (by simp) content
  rw [sentBytes, List.flatMap_map, List.flatMap_def]
  rw [List.map_congr_left hchunk, List.map_id', hflat]

/-- What is printed on the data connection for an opened file. -/
def printed : Option FileTree.Opened → List DataItem
  | some (.regular _ content) => (chunks 1023 content).map fun chunk => .bytes (cstr chunk)
  | _ => []

/-- `execute_retr_command` opens the name from the connection's directory, and is back at
the root. -/
theorem executeRetrCommand_opens {path : CStr} (h : s.os.kills s.conn.clientSockfd = false)
    (hpath : command.argv.head? = some path) (hW : s.conn.workingDirectory = some W) :
    executeRetrCommand server cans command s =
      (match s.os.tree.openRead (s.wdFrom W) path with
      | none => refuse .localError
      | some .directory => do
        reply .transferComplete
        return .success
      | some (.regular _ content) => do
        sendChunks cans (chunks 1023 content)
        reply .transferComplete
        return .success : M CommandStatus)
        { s.inDir (s.os.tree.goto (s.wdFrom W) (pathStr server.path)) with
          out := s.out ++ s.os.delivers s.conn.clientSockfd .openingBinary } := by
  rw [executeRetrCommand, reply_bind_apply, dprintf_bind_apply, h, if_neg (by simp),
    conn_bind_apply, hW, deref_some, pure_bind_apply, chdir_bind_apply, hpath, deref_some,
    pure_bind_apply, fopenRead, gets_bind_apply, chdir_bind_apply]
  rfl

/-- `execute_retr_command` prints what the name opens, and says so. -/
theorem executeRetrCommand_apply {path : CStr} (h : Connected s cans)
    (hpath : command.argv.head? = some path) (hW : s.conn.workingDirectory = some W)
    (hopen : s.os.tree.openRead (s.wdFrom W) path ≠ none) :
    executeRetrCommand server cans command s = (.ok .success,
      { s.inDir (s.os.tree.goto (s.wdFrom W) (pathStr server.path)) with
        data := s.data ++ printed (s.os.tree.openRead (s.wdFrom W) path)
        out := s.out ++ s.os.delivers s.conn.clientSockfd .openingBinary ++
          s.os.delivers s.conn.clientSockfd .transferComplete }) := by
  rw [executeRetrCommand_opens h.alive hpath hW]
  -- the state in which the file is sent: printed to, and back at the root
  let s₁ : Ctx := { s.inDir (s.os.tree.goto (s.wdFrom W) (pathStr server.path)) with
    out := s.out ++ s.os.delivers s.conn.clientSockfd .openingBinary }
  have hs₁ : Connected s₁ cans := ⟨h.data, h.peer, h.alive⟩
  have hend : ∀ data, (do reply .transferComplete; return .success : M CommandStatus)
      { s₁ with data } = (.ok .success,
        { s₁ with data, out :=
          s₁.out ++ s.os.delivers s.conn.clientSockfd .transferComplete }) := by
    intro data
    have halive : s₁.os.kills s₁.conn.clientSockfd = false := hs₁.alive
    rw [reply_bind_apply, dprintf_bind_apply]
    exact if_neg (by simp [halive])
  match hfile : s.os.tree.openRead (s.wdFrom W) path with
  | none => exact absurd hfile hopen
  | some .directory =>
    refine (hend s₁.data).trans ?_
    rw [printed, List.append_nil]
    exact fun _ _ h => by cases h
  | some (.regular p content) =>
    dsimp only
    rw [bind_of_ok (sendChunks_connected _ hs₁)]
    exact hend _

/-- A file without NUL is sent as it is. -/
theorem executeRetrCommand_sends {path : CStr} (h : Connected s cans)
    (hpath : command.argv.head? = some path) (hW : s.conn.workingDirectory = some W)
    (hopen : s.os.tree.openRead (s.wdFrom W) path ≠ none)
    (hnul : NulFree (readable (s.os.tree.openRead (s.wdFrom W) path))) :
    ∃ items, sentBytes items = readable (s.os.tree.openRead (s.wdFrom W) path) ∧
      executeRetrCommand server cans command s = (.ok .success,
        { s.inDir (s.os.tree.goto (s.wdFrom W) (pathStr server.path)) with
          data := s.data ++ items
          out := s.out ++ s.os.delivers s.conn.clientSockfd .openingBinary ++
            s.os.delivers s.conn.clientSockfd .transferComplete }) := by
  refine ⟨_, ?_, executeRetrCommand_apply h hpath hW hopen⟩
  match hfile : s.os.tree.openRead (s.wdFrom W) path with
  | none => exact absurd hfile hopen
  | some .directory => rfl
  | some (.regular p content) =>
    rw [hfile] at hnul
    exact sentBytes_chunks hnul

/-- Whatever a child runs, it creates no directory and no link. -/
theorem run_later (body : TransferBody) :
    FileTree.Later s.os.tree (body.run server cans command s).2.os.tree := by
  cases body with
  | executeLsCommand =>
    cases hW : s.conn.workingDirectory with
    | none =>
      have hgoto : gotoPath command s = (.error .undefined, s) := by
        rw [gotoPath, conn_bind_apply, hW]
        rfl
      rw [TransferBody.run, executeLsCommand, bind_of_error hgoto]
      exact FileTree.later_refl _
    | some W =>
      rw [TransferBody.run, (executeLsCommand_leaves hW).1]
      exact FileTree.later_refl _
  | executeRetrCommand => exact (executeRetrCommand_silent s).tree
  | executeStorCommand => exact (executeStorCommand_silent s).tree

end MyFtp.Server
