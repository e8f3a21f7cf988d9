import MyFtp.Server.CommandExecutor
import MyFtp.Server.Transfer

/-!
# What the connections share

`Setup` is what `setup_socket` and `setup_signal` leave for the main loop: the
server structure, whose path is the directory the process then stands in.
`World` is everything outside the connection records: the operating system's
state, the children that are still to run, and what has been sent so far.

A child runs in one go, at any time after it was forked. It gets the files as
they are then, and leaves them changed; its directory and its descriptors are
its own.
-/

namespace MyFtp.Server

open MyFtp.Posix

/-! ## Starting -/

/-- The server once it is set up: its path is a directory, and the current
one. -/
structure Setup where
  server : ServerT
  tree : FileTree
  root : tree.isDir server.path = true

theorem isDir_of_getcwd {t : FileTree} {cwd p : Path} (h : t.getcwd cwd = some p) :
    t.isDir p = true := by
  unfold FileTree.getcwd at h
  split at h
  next hd =>
    injection h with h
    rw [← h, hd]
  next => cases h

/-- `setup_socket`, started in the directory `cwd`. -/
def setupSocket (ans : Answers) (tree : FileTree) (cwd : Path) (rawPath : CStr) : Option Setup :=
  match ans.socket with
  | none => none
  | some sockfd =>
    if ans.bind = false then none
    else if ans.listen = false then none
    else
      match h : tree.getcwd ((tree.chdir cwd rawPath).getD cwd) with
      | none => none
      | some path => some ⟨⟨sockfd, ans.port, path⟩, tree, isDir_of_getcwd h⟩

/-- Every `Setup` is one that it returns, when it is started in that directory on `.`. -/
theorem setupSocket_of_setup (u : Setup) :
    setupSocket { Answers.fine u.server.sockfd with port := u.server.port } u.tree u.server.path
      dot = some u := by
  have hstays : (u.tree.chdir u.server.path dot).getD u.server.path = u.server.path := by
    cases hd : u.tree.chdir u.server.path dot with
    | none => rfl
    | some d => exact FileTree.chdir_dot hd
  have hcwd : u.tree.getcwd ((u.tree.chdir u.server.path dot).getD u.server.path) =
      some u.server.path := by
    unfold FileTree.getcwd
    rw [hstays, if_pos u.root]
  unfold setupSocket Answers.fine
  dsimp only
  rw [if_neg (by simp), if_neg (by simp)]
  split
  next hnone => cases hnone.symm.trans hcwd
  next path hpath =>
    obtain rfl := Option.some.inj (hpath.symm.trans hcwd)
    rfl

/-- `setup_signal`. -/
def setupSignal (signals : Signal → Disposition) : Signal → Disposition
  | .sigint | .sigterm => .handler
  | .sigpipe => signals .sigpipe

/-- The operating system's side when the main loop starts. -/
def Setup.os (u : Setup) : Os :=
  { tree := u.tree, cwd := u.server.path
    desc := Function.update (fun _ => none) u.server.sockfd (some .server)
    signals := setupSignal fun _ => .default, hungup := fun _ => false }

/-- The names in the tree of `smallSetup`. -/
def srv : Name := ⟨lit "srv", by decide⟩
def ftp : Name := ⟨lit "ftp", by decide⟩
def ftp2 : Name := ⟨lit "ftp2", by decide⟩
def pub : Name := ⟨lit "pub", by decide⟩

/-- A server on `/srv/ftp`, which has a directory `pub` in it and another one,
`/srv/ftp2`, beside it. -/
def smallSetup : Setup :=
  { server := { sockfd := 3, port := 2121, path := [srv, ftp] }
    tree := (((FileTree.bare.put [] srv (.dir .all)).put [srv] ftp (.dir .all)).put [srv] ftp2
      (.dir .all)).put [srv, ftp] pub (.dir .all)
    root := by decide +kernel }

/-! ## The world -/

/-- Everything outside the connection records. Connections are numbered as they
are accepted. -/
structure World where
  os : Os
  nextId : ConnId
  children : List (ConnId × Child)
  sent : List (ConnId × Reply)
  data : List (ConnId × DataItem)

/-- The world when the main loop starts. -/
def Setup.world (u : Setup) : World :=
  { os := u.os, nextId := 0, children := [], sent := [], data := [] }

/-- The world after something was done for the connection `id`. -/
def World.merge (w : World) (id : ConnId) (s : Ctx) : World :=
  { w with
    os := s.os
    children := w.children ++ s.forked.map (id, ·)
    sent := w.sent ++ s.out
    data := w.data ++ s.data.map (id, ·) }

/-- Run a part of the server for the connection `id`: its result, the record it
leaves and the world it leaves. -/
def World.exec {α : Type} (w : World) (id : ConnId) (c : Connection) (p : M α) :
    Except Halt (α × Connection × World) :=
  match p (Ctx.start w.os c) with
  | (.ok a, s) => .ok (a, s.conn, w.merge id s)
  | (.error e, _) => .error e

/-- Run the `k`-th child. Whatever stops a child stops it alone. -/
def World.runChild (w : World) (server : ServerT) (k : Nat) (cans : ChildAnswers) :
    Except Halt World :=
  match w.children[k]? with
  | none => .error .disabled
  | some (id, child) =>
    let s := (child.body.run server cans child.command
      (Ctx.start { w.os with cwd := child.cwd, desc := child.desc } child.connection)).2
    .ok { w with
      os := { w.os with tree := s.os.tree }
      children := w.children.eraseIdx k
      sent := w.sent ++ s.out
      data := w.data ++ s.data.map (id, ·) }

/-- A client closes or resets its control connection. -/
def World.hangup (w : World) (id : ConnId) : World :=
  { w with os := { w.os with hungup := Function.update w.os.hungup id true } }

/-- A client connects to a data socket that listens. -/
def World.dataConnect (w : World) (fd : Fd) : Except Halt World :=
  match w.os.desc fd with
  | some (.listener pending) => .ok { w with os := { w.os with
      desc := Function.update w.os.desc fd (some (.listener (pending + 1))) } }
  | _ => .error .disabled

/-- `init_connection`. On an open descriptor `fdopen` fails for lack of memory
only. -/
def initConnection (server : ServerT) (clientSockfd : Fd) (clientAddr : SockAddr) : Connection :=
  { clientSockfd, clientAddr, loggedIn := false, user := none
    workingDirectory := some server.path, dataSocket := none, transferMode := .binary }

/-- The first half of `accept_new_connection`: the greeting goes out before a
slot is looked for. -/
def greet (fd : Fd) (id : ConnId) : M Unit := do
  newDesc fd (.control id)
  dprintf fd .serviceReady

/-- Accept the next client on the descriptor `fd`. -/
def World.accept (w : World) (server : ServerT) (fd : Fd) (addr : SockAddr) :
    Except Halt (Connection × World) :=
  match w.exec w.nextId (initConnection server fd addr) (greet fd w.nextId) with
  | .ok (_, c, w') => .ok (c, { w' with nextId := w.nextId + 1 })
  | .error e => .error e

/-- The replies a client got, in order. -/
def World.repliesTo (w : World) (id : ConnId) : List Reply :=
  (w.sent.filter (·.1 == id)).map Prod.snd

theorem repliesTo_append (w : World) (id : ConnId) (l : List (ConnId × Reply)) :
    { w with sent := w.sent ++ l }.repliesTo id =
      w.repliesTo id ++ (l.filter (·.1 == id)).map Prod.snd := by
  simp [World.repliesTo]

/-! ## What each part leaves -/

theorem World.exec_eq_ok {α : Type} {w w' : World} {id : ConnId} {c c' : Connection} {p : M α}
    {a : α} (h : w.exec id c p = .ok (a, c', w')) :
    ∃ s, p (Ctx.start w.os c) = (.ok a, s) ∧ c' = s.conn ∧ w' = w.merge id s := by
  unfold exec at h
  split at h
  next a' s hp =>
    simp only [Except.ok.injEq, Prod.mk.injEq] at h
    obtain ⟨rfl, rfl, rfl⟩ := h
    exact ⟨s, hp, rfl, rfl⟩
  next => cases h

theorem World.exec_of_ok {α : Type} {w : World} {id : ConnId} {c : Connection} {p : M α}
    {a : α} {s : Ctx} (h : p (Ctx.start w.os c) = (.ok a, s)) :
    w.exec id c p = .ok (a, s.conn, w.merge id s) := by
  rw [exec, h]

theorem World.runChild_of_some {w : World} {server : ServerT} {k : Nat} {cans : ChildAnswers}
    {id : ConnId} {child : Child} {s : Ctx} (hk : w.children[k]? = some (id, child))
    (hs : (child.body.run server cans child.command
      (Ctx.start { w.os with cwd := child.cwd, desc := child.desc } child.connection)).2 = s) :
    w.runChild server k cans = .ok { w with
      os := { w.os with tree := s.os.tree }
      children := w.children.eraseIdx k
      sent := w.sent ++ s.out
      data := w.data ++ s.data.map (id, ·) } := by
  rw [runChild, hk]
  dsimp only
  rw [hs]

theorem World.runChild_eq_ok {w w' : World} {server : ServerT} {k : Nat} {cans : ChildAnswers}
    (h : w.runChild server k cans = .ok w') :
    ∃ id child s, w.children[k]? = some (id, child) ∧
      s = (child.body.run server cans child.command
        (Ctx.start { w.os with cwd := child.cwd, desc := child.desc } child.connection)).2 ∧
      w' = { w with
        os := { w.os with tree := s.os.tree }
        children := w.children.eraseIdx k
        sent := w.sent ++ s.out
        data := w.data ++ s.data.map (id, ·) } := by
  unfold runChild at h
  split at h
  next => cases h
  next id child hk =>
    injection h with h
    exact ⟨id, child, _, hk, rfl, h.symm⟩

theorem World.dataConnect_eq_ok {w w' : World} {fd : Fd} (h : w.dataConnect fd = .ok w') :
    ∃ pending, w.os.desc fd = some (.listener pending) ∧
      w' = { w with os := { w.os with
        desc := Function.update w.os.desc fd (some (.listener (pending + 1))) } } := by
  unfold dataConnect at h
  split at h
  next pending hd =>
    injection h with h
    exact ⟨pending, hd, h.symm⟩
  next => cases h

/-- Accepting a client takes a free descriptor, gives the client a fresh record
and greets it if it is still there; it changes nothing else. -/
theorem World.accept_eq_ok {w w' : World} {server : ServerT} {fd : Fd} {addr : SockAddr}
    {c : Connection} (h : w.accept server fd addr = .ok (c, w')) :
    w.os.desc fd = none ∧ c = initConnection server fd addr ∧
      w' = { w with
        os := { w.os with desc := Function.update w.os.desc fd (some (.control w.nextId)) }
        nextId := w.nextId + 1
        sent := w.sent ++ if w.os.hungup w.nextId then [] else [(w.nextId, .serviceReady)] } := by
  unfold accept at h
  split at h
  next u c' w₁ hexec =>
    obtain ⟨s, hp, rfl, rfl⟩ := exec_eq_ok hexec
    simp only [Except.ok.injEq, Prod.mk.injEq] at h
    obtain ⟨rfl, rfl⟩ := h
    obtain ⟨_, s₁, hnew, hp⟩ := Prog.bind_eq_ok hp
    obtain ⟨hfree, rfl⟩ := newDesc_eq_ok hnew
    obtain ⟨-, rfl⟩ := dprintf_eq_ok hp
    refine ⟨hfree, rfl, ?_⟩
    simp only [merge, Ctx.withDesc, Ctx.start, Os.delivers, Function.update_self, List.map_nil,
      List.append_nil, List.nil_append]
    rfl
  next => cases h

end MyFtp.Server
