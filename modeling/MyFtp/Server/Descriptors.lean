import MyFtp.Server.Frame
import MyFtp.Server.Sessions

/-!
# Who owns which descriptor

A connection owns its control descriptor and those of its data socket. The
program never says so: it stores numbers in records and closes them. What keeps
the clients apart is that the system hands out free numbers only, and that the
handlers touch no descriptor but their own connection's and new ones
(`KeepsToItself`).

> `sound_of_run`: in every reachable state each record's descriptors are open
> and what the record takes them for, no two records share a data descriptor,
> `SIGPIPE` still has its default disposition, and a record that is not logged
> in has no data socket.
-/

namespace MyFtp.Server

open MyFtp.Posix
open Prog

/-- The descriptor stands for a data socket or a data connection. -/
def Desc.isData : Desc → Bool
  | .socket | .listener _ => true
  | _ => false

/-- The data descriptors in a record. -/
def Connection.dataFds (c : Connection) : List Fd :=
  match c.dataSocket with
  | none => []
  | some d => d.dataSockfd.toList ++ d.clientSockfd.toList

theorem mem_dataFds {c : Connection} {fd : Fd} :
    fd ∈ c.dataFds ↔
      ∃ d, c.dataSocket = some d ∧ (d.dataSockfd = some fd ∨ d.clientSockfd = some fd) := by
  rw [Connection.dataFds]
  cases hd : c.dataSocket with
  | none => simp
  | some d => simp

/-- The descriptors in the record of the client `id` are open and what the
record takes them for. -/
structure Owns (desc : DescTable) (id : ConnId) (c : Connection) : Prop where
  control : desc c.clientSockfd = some (.control id)
  listens : ∀ d fd, c.dataSocket = some d → d.dataSockfd = some fd →
    ∃ n, desc fd = some (.listener n)
  connects : ∀ d fd, c.dataSocket = some d → d.clientSockfd = some fd → desc fd = some .socket

/-- A data descriptor is open, and no control descriptor. -/
theorem Owns.dataFds {desc : DescTable} {id : ConnId} {c : Connection} (h : Owns desc id c)
    {fd : Fd}
    (hfd : fd ∈ c.dataFds) : desc fd = some .socket ∨ ∃ n, desc fd = some (.listener n) := by
  obtain ⟨d, hd, hl | hc⟩ := mem_dataFds.mp hfd
  · exact .inr (h.listens d fd hd hl)
  · exact .inl (h.connects d fd hd hc)

/-- What a connection's own commands do to the descriptors: what it owns
afterwards it owned before or was free, and the others' are as they were. -/
structure OwnStep (id : ConnId) (s s' : Ctx) : Prop where
  owns : Owns s'.os.desc id s'.conn
  others : ∀ fd, s.os.desc fd ≠ none → fd ∉ s.conn.dataFds → s'.os.desc fd = s.os.desc fd
  taken : ∀ fd ∈ s'.conn.dataFds, fd ∈ s.conn.dataFds ∨ s.os.desc fd = none

/-- Starting with what is its own, the connection keeps to its own. -/
def KeepsToItself (id : ConnId) (s s' : Ctx) : Prop :=
  Owns s.os.desc id s.conn → OwnStep id s s'

theorem keepsToItself_of_same {id : ConnId} {s s' : Ctx} (hdesc : s'.os.desc = s.os.desc)
    (hctl : s'.conn.clientSockfd = s.conn.clientSockfd)
    (hdata : s'.conn.dataSocket = s.conn.dataSocket) : KeepsToItself id s s' := by
  intro h
  refine ⟨⟨?_, ?_, ?_⟩, fun fd _ _ => by rw [hdesc], fun fd hfd => .inl ?_⟩
  · rw [hdesc, hctl]
    exact h.control
  · rw [hdesc, hdata]
    exact h.listens
  · rw [hdesc, hdata]
    exact h.connects
  · rw [mem_dataFds] at hfd ⊢
    rwa [hdata] at hfd

instance (id : ConnId) : Std.Refl (KeepsToItself id) :=
  ⟨fun _ => keepsToItself_of_same rfl rfl rfl⟩

instance (id : ConnId) : IsTrans Ctx (KeepsToItself id) := ⟨by
  intro a b c hab hbc ha
  have h₁ := hab ha
  have h₂ := hbc h₁.owns
  have hnot : ∀ fd, a.os.desc fd ≠ none → fd ∉ a.conn.dataFds → fd ∉ b.conn.dataFds := by
    intro fd hopen hfd hb
    rcases h₁.taken fd hb with h | h
    · exact hfd h
    · exact hopen h
  refine ⟨h₂.owns, ?_, ?_⟩
  · intro fd hopen hfd
    have hb := h₁.others fd hopen hfd
    rw [h₂.others fd (hb ▸ hopen) (hnot fd hopen hfd), hb]
  · intro fd hfd
    by_cases hopen : a.os.desc fd = none
    · exact .inr hopen
    · by_cases hmem : fd ∈ a.conn.dataFds
      · exact .inl hmem
      · rcases h₂.taken fd hfd with h | h
        · exact h₁.taken fd h
        · rw [h₁.others fd hopen hmem] at h
          exact .inr h⟩

/-- Taking a free descriptor touches nobody's. -/
theorem keepsToItself_fresh {id : ConnId} {s : Ctx} {fd : Fd} {d : Option Desc}
    (hfree : s.os.desc fd = none) : KeepsToItself id s (s.withDesc fd d) := by
  intro h
  have hopen : ∀ {fd' : Fd} {d' : Desc}, s.os.desc fd' = some d' →
      (s.withDesc fd d).os.desc fd' = some d' := by
    intro fd' d' h'
    have hne : fd' ≠ fd := by
      rintro rfl
      rw [hfree] at h'
      cases h'
    rw [Ctx.withDesc_desc, Function.update_of_ne hne, h']
  refine ⟨⟨hopen h.control, ?_, fun d' fd' hd' hfd' => hopen (h.connects d' fd' hd' hfd')⟩, ?_,
    fun fd' hfd => .inl hfd⟩
  · intro d' fd' hd' hfd'
    obtain ⟨n, hn⟩ := h.listens d' fd' hd' hfd'
    exact ⟨n, hopen hn⟩
  · intro fd' hne _
    obtain ⟨d', hd'⟩ := Option.ne_none_iff_exists'.mp hne
    rw [hopen hd', hd']

/-- A new data socket with new descriptors replaces the old one. -/
theorem keepsToItself_replace {id : ConnId} {s s' : Ctx} {created : Option DataSocket}
    (hs : KeepsToItself id s s')
    (hnew : ∀ d, created = some d →
      (∀ fd, d.dataSockfd = some fd → s.os.desc fd = none ∧ ∃ n, s'.os.desc fd =
        some (.listener n)) ∧
      ∀ fd, d.clientSockfd = some fd → s.os.desc fd = none ∧ s'.os.desc fd = some .socket) :
    KeepsToItself id s { s' with conn := { s'.conn with dataSocket := created } } := by
  intro h
  have h₁ := hs h
  refine ⟨⟨h₁.owns.control, ?_, ?_⟩, h₁.others, ?_⟩
  · intro d fd hd hfd
    exact ((hnew d hd).1 fd hfd).2
  · intro d fd hd hfd
    exact ((hnew d hd).2 fd hfd).2
  · intro fd hfd
    obtain ⟨d, hd, hl | hc⟩ := mem_dataFds.mp hfd
    · exact .inr ((hnew d hd).1 fd hl).1
    · exact .inr ((hnew d hd).2 fd hc).1

/-! ## Setting up data sockets -/

theorem socket_cases (ans : Answers) (s : Ctx) :
    socket ans s = (.ok none, s) ∨ socket ans s = (.error .disabled, s) ∨
      ∃ fd, s.os.desc fd = none ∧ socket ans s = (.ok (some fd), s.withDesc fd (some .socket)) := by
  rw [socket_apply]
  cases ans.socket with
  | none => exact .inl rfl
  | some fd =>
    dsimp only
    split
    next hfree => exact .inr (.inr ⟨fd, hfree, rfl⟩)
    next => exact .inr (.inl rfl)

/-- A passive data socket listens on a new descriptor; when it cannot be had,
nothing more than a new descriptor is left. -/
theorem setupPassiveDataSocket_cases (ans : Answers) (s : Ctx) :
    setupPassiveDataSocket ans s = (.ok none, s) ∨
      setupPassiveDataSocket ans s = (.error .disabled, s) ∨
      ∃ fd, s.os.desc fd = none ∧
        (setupPassiveDataSocket ans s = (.ok none, s.withDesc fd (some .socket)) ∨
          setupPassiveDataSocket ans s = (.ok (some { initPassiveDataSocket with
            port := ans.port.toNat, dataSockfd := some fd, addr := ⟨inaddrLoopback, 0⟩ }),
              s.withDesc fd (some (.listener 0)))) := by
  unfold setupPassiveDataSocket
  rcases socket_cases ans s with h | h | ⟨fd, hfree, h⟩
  · rw [bind_of_ok h]
    exact .inl rfl
  · rw [bind_of_error h]
    exact .inr (.inl rfl)
  · rw [bind_of_ok h]
    refine .inr (.inr ⟨fd, hfree, ?_⟩)
    dsimp only
    split
    next => exact .inl rfl
    next =>
      split
      next => exact .inl rfl
      next =>
        rw [setDesc_bind_apply, Ctx.withDesc_withDesc]
        exact .inr rfl

theorem setupActiveDataSocket_cases (ans : Answers) (hostPort : List Int) (s : Ctx) :
    setupActiveDataSocket ans hostPort s = (.ok none, s) ∨
      setupActiveDataSocket ans hostPort s = (.error .disabled, s) ∨
      ∃ fd d, s.os.desc fd = none ∧ d.dataSockfd = none ∧ d.clientSockfd = some fd ∧
        setupActiveDataSocket ans hostPort s = (.ok (some d), s.withDesc fd (some .socket)) := by
  unfold setupActiveDataSocket
  rcases socket_cases ans s with h | h | ⟨fd, hfree, h⟩
  · rw [bind_of_ok h]
    exact .inl rfl
  · rw [bind_of_error h]
    exact .inr (.inl rfl)
  · rw [bind_of_ok h]
    exact .inr (.inr ⟨fd, _, hfree, rfl, rfl, rfl⟩)

section

variable {id : ConnId}

theorem keepsToItself_reply (r : Reply) : Keeps (KeepsToItself id) (reply r) :=
  keeps_reply (fun s => Std.Refl.refl s) (fun _ _ => keepsToItself_of_same rfl rfl rfl) r

/-- Storing a new data socket and reporting it. -/
theorem keepsToItself_store {s s' : Ctx} {created : Option DataSocket} {k : M CommandStatus}
    (hs : KeepsToItself id s { s' with conn := { s'.conn with dataSocket := created } })
    (hk : Keeps (KeepsToItself id) k) :
    KeepsToItself id s ((do setDataSocket created; k : M CommandStatus) s').2 :=
  IsTrans.trans _ _ _ hs (hk _)

theorem keepsToItself_passive (ans : Answers) :
    Keeps (KeepsToItself id) (createPassiveDataSocket ans) := by
  have hrefuse := keeps_refuse (R := KeepsToItself id) keepsToItself_reply .localError
  intro s
  unfold createPassiveDataSocket
  rcases setupPassiveDataSocket_cases ans s with h | h | ⟨fd, hfree, h | h⟩
  · rw [bind_of_ok h]
    exact keepsToItself_store (keepsToItself_replace (Std.Refl.refl s) (by simp)) hrefuse
  · rw [bind_of_error h]
    exact Std.Refl.refl s
  · rw [bind_of_ok h]
    exact keepsToItself_store (keepsToItself_replace (keepsToItself_fresh hfree) (by simp)) hrefuse
  · rw [bind_of_ok h]
    refine keepsToItself_store (keepsToItself_replace (keepsToItself_fresh hfree) ?_) ?_
    · rintro d ⟨rfl⟩
      refine ⟨?_, by simp [initPassiveDataSocket]⟩
      rintro fd' ⟨rfl⟩
      exact ⟨hfree, 0, by simp⟩
    · exact (keeps_deref _).bind fun _ =>
        (keepsToItself_reply _).bind fun _ => keeps_pure _

theorem keepsToItself_active (ans : Answers) (arg : CStr) :
    Keeps (KeepsToItself id) (createActiveDataSocket ans arg) := by
  have hrefuse := keeps_refuse (R := KeepsToItself id) keepsToItself_reply
  intro s
  unfold createActiveDataSocket
  cases parseHostPortValues arg with
  | none => exact hrefuse _ s
  | some hostPort =>
    dsimp only
    rcases setupActiveDataSocket_cases ans hostPort s with h | h | ⟨fd, d, hfree, hl, hc, h⟩
    · rw [bind_of_ok h]
      exact keepsToItself_store (keepsToItself_replace (Std.Refl.refl s) (by simp)) (hrefuse _)
    · rw [bind_of_error h]
      exact Std.Refl.refl s
    · rw [bind_of_ok h]
      refine keepsToItself_store (keepsToItself_replace (keepsToItself_fresh hfree) ?_) ?_
      · rintro d' ⟨rfl⟩
        refine ⟨by simp [hl], ?_⟩
        intro fd' hfd'
        rw [hc] at hfd'
        obtain rfl := Option.some.inj hfd'
        exact ⟨hfree, by simp⟩
      · exact (keepsToItself_reply _).bind fun _ => keeps_pure _

/-! ## Transfers -/

/-- Taking one of the connections that wait on a listening data socket. -/
theorem keepsToItself_listen {s : Ctx} {l : Fd} {d : DataSocket} {n m : Nat}
    (hd : s.conn.dataSocket = some d) (hl : d.dataSockfd = some l)
    (hn : s.os.desc l = some (.listener n)) :
    KeepsToItself id s (s.withDesc l (some (.listener m))) := by
  intro h
  refine ⟨⟨?_, ?_, ?_⟩, ?_, fun fd hfd => .inl hfd⟩
  · have hne : s.conn.clientSockfd ≠ l := by
      intro he
      rw [← he, h.control] at hn
      cases hn
    rw [Ctx.withDesc_desc, Ctx.withDesc_conn, Function.update_of_ne hne, h.control]
  · intro d' fd hd' hfd
    by_cases he : fd = l
    · rw [he, Ctx.withDesc_desc, Function.update_self]
      exact ⟨m, rfl⟩
    · rw [Ctx.withDesc_desc, Function.update_of_ne he]
      exact h.listens d' fd hd' hfd
  · intro d' fd hd' hfd
    have hs := h.connects d' fd hd' hfd
    have he : fd ≠ l := by
      intro he
      rw [he, hn] at hs
      cases hs
    rw [Ctx.withDesc_desc, Function.update_of_ne he, hs]
  · intro fd _ hfd
    have he : fd ≠ l := by
      rintro rfl
      exact hfd (mem_dataFds.mpr ⟨d, hd, .inl hl⟩)
    rw [Ctx.withDesc_desc, Function.update_of_ne he]

/-- What `accept` on a data socket can do. -/
theorem acceptData_cases (ans : Answers) (l : Option Fd) (s : Ctx) :
    acceptData ans l s = (.ok none, s) ∨
      (acceptData ans l s = (.error .blocked, s) ∧ ∃ fd, l = some fd ∧ ans.accept ≠ none ∧
        s.os.desc fd = some (.listener 0)) ∨
      ∃ fd pending newFd peer, l = some fd ∧ s.os.desc fd = some (.listener (pending + 1)) ∧
        ans.accept = some (newFd, peer) ∧
        ((s.os.desc newFd ≠ none ∧
            acceptData ans l s = (.error .disabled, s.withDesc fd (some (.listener pending)))) ∨
          (s.os.desc newFd = none ∧ acceptData ans l s = (.ok (some (newFd, peer)),
            (s.withDesc fd (some (.listener pending))).withDesc newFd (some .socket)))) := by
  rw [acceptData_apply]
  split
  next => exact .inl rfl
  next newFd peer fd pending hacc hd =>
    refine .inr (.inr ⟨fd, pending, newFd, peer, rfl, hd, hacc, ?_⟩)
    split
    next hfree => exact .inr ⟨hfree, rfl⟩
    next hopen => exact .inl ⟨hopen, rfl⟩
  next hacc hd =>
    obtain ⟨fd, rfl, hfd⟩ := Option.bind_eq_some_iff.mp hd
    exact .inr (.inl ⟨rfl, fd, rfl, by rw [hacc]; simp, hfd⟩)
  next => exact .inl rfl

/-- Forgetting the descriptor of the data connection. -/
theorem keepsToItself_forget {s : Ctx} {d : DataSocket} (hd : s.conn.dataSocket = some d) :
    KeepsToItself id s
      { s with conn := { s.conn with dataSocket := some { d with clientSockfd := none } } } := by
  intro h
  refine ⟨⟨h.control, ?_, ?_⟩, fun _ _ _ => rfl, ?_⟩
  · rintro d' fd ⟨rfl⟩ hfd
    exact h.listens d fd hd hfd
  · rintro d' fd ⟨rfl⟩ hfd
    cases hfd
  · intro fd hfd
    obtain ⟨d', ⟨rfl⟩, hl | hc⟩ := mem_dataFds.mp hfd
    · exact .inl (mem_dataFds.mpr ⟨d, hd, .inl hl⟩)
    · cases hc

theorem keepsToItself_establish (ans : Answers) :
    Keeps (KeepsToItself id) (establishDataSocketConnection ans) := by
  intro s
  rw [establishDataSocketConnection, conn_bind_apply]
  cases hd : s.conn.dataSocket with
  | none => exact Std.Refl.refl s
  | some d =>
    rw [deref_some, pure_bind_apply]
    cases d.dataSocketMode with
    | active => exact Std.Refl.refl s
    | passive =>
      dsimp only
      rw [acceptConnection]
      rcases acceptData_cases ans d.dataSockfd s with h | ⟨h, -⟩ |
        ⟨l, pending, newFd, peer, hl, hn, -, ⟨-, h⟩ | ⟨hfree, h⟩⟩
      · rw [bind_of_ok h]
        exact keepsToItself_forget hd
      · rw [bind_of_error h]
        exact Std.Refl.refl s
      · rw [bind_of_error h]
        exact keepsToItself_listen hd hl hn
      · rw [bind_of_ok h]
        have hne : newFd ≠ l := by
          rintro rfl
          rw [hfree] at hn
          cases hn
        have hlisten : KeepsToItself id s (s.withDesc l (some (.listener pending))) :=
          keepsToItself_listen hd hl hn
        have hfresh : KeepsToItself id (s.withDesc l (some (.listener pending)))
            ((s.withDesc l (some (.listener pending))).withDesc newFd (some .socket)) :=
          keepsToItself_fresh (by rw [Ctx.withDesc_desc, Function.update_of_ne hne, hfree])
        intro hs
        have h₂ := (IsTrans.trans _ _ _ hlisten hfresh : KeepsToItself id s _) hs
        refine ⟨⟨h₂.owns.control, ?_, ?_⟩, h₂.others, ?_⟩
        · rintro d' fd ⟨rfl⟩ hfd
          exact h₂.owns.listens d fd hd hfd
        · rintro d' fd ⟨rfl⟩ hfd
          obtain rfl : newFd = fd := Option.some.inj hfd
          exact Function.update_self ..
        · intro fd hfd
          obtain ⟨d', ⟨rfl⟩, hl' | hc⟩ := mem_dataFds.mp hfd
          · exact .inl (mem_dataFds.mpr ⟨d, hd, .inl hl'⟩)
          · obtain rfl : newFd = fd := Option.some.inj hc
            exact .inr hfree

/-- Closing the data connection and forgetting the data socket. -/
theorem keepsToItself_destroy (status : CommandStatus) : Keeps (KeepsToItself id) (do
    let c ← conn
    destroyDataSocket c.dataSocket
    setDataSocket none
    return status) := by
  intro s hs
  rw [conn_bind_apply, destroyDataSocket]
  cases hfd : s.conn.dataSocket.bind DataSocket.clientSockfd with
  | none =>
    refine ⟨⟨hs.control, ?_, ?_⟩, fun _ _ _ => rfl, ?_⟩
    · rintro d fd ⟨⟩
    · rintro d fd ⟨⟩
    · intro fd hmem
      obtain ⟨d, ⟨⟩, -⟩ := mem_dataFds.mp hmem
  | some fd =>
    obtain ⟨d, hd, hc⟩ := Option.bind_eq_some_iff.mp hfd
    have hsock := hs.connects d fd hd hc
    refine ⟨⟨?_, ?_, ?_⟩, ?_, ?_⟩
    · have hne : s.conn.clientSockfd ≠ fd := by
        intro he
        rw [← he, hs.control] at hsock
        cases hsock
      exact (Function.update_of_ne hne ..).trans hs.control
    · rintro d fd ⟨⟩
    · rintro d fd ⟨⟩
    · intro fd' _ hfd'
      have hne : fd' ≠ fd := by
        rintro rfl
        exact hfd' (mem_dataFds.mpr ⟨d, hd, .inr hc⟩)
      exact Function.update_of_ne hne ..
    · intro fd' hmem
      obtain ⟨d, ⟨⟩, -⟩ := mem_dataFds.mp hmem

theorem keepsToItself_transfer (ans : Answers) (body : TransferBody) (command : Command) :
    Keeps (KeepsToItself id) (executeDataSocketCommand ans body command) := by
  refine (keepsToItself_establish ans).bind fun _ => Keeps.ite (fun _ => ?_) fun _ => ?_
  · exact (keepsToItself_reply _).bind fun _ => keepsToItself_destroy _
  · have hfork : Keeps (KeepsToItself id) (forkExecution ans body command) :=
      Keeps.ite (fun _ => Keeps.bind (fun _ => keepsToItself_of_same rfl rfl rfl) fun _ =>
        keeps_pure _)
        fun _ => keeps_pure _
    exact hfork.bind fun _ => Keeps.ite
      (fun _ => (keepsToItself_reply _).bind fun _ => keepsToItself_destroy _)
      fun _ => keepsToItself_destroy _

/-- Every line of a client keeps to the client's own descriptors. -/
theorem frame_keepsToItself (id : ConnId) (server : ServerT) (ans : Answers) :
    Frame server ans [] (Keeps (KeepsToItself id)) := by
  have hchdir := keeps_chdir (R := KeepsToItself id) fun _ _ => keepsToItself_of_same rfl rfl rfl
  have hremove := keeps_remove (R := KeepsToItself id)
    (fun _ _ => keepsToItself_of_same rfl rfl rfl) fun s => Std.Refl.refl s
  exact ⟨follows_keeps, keepsToItself_reply, fun _ _ => keepsToItself_of_same rfl rfl rfl,
    keepsToItself_passive ans, keepsToItself_active ans,
    fun body command _ => keepsToItself_transfer ans body command,
    fun _ => follows_keeps.deleteFile keepsToItself_reply hchdir hremove,
    fun _ => follows_keeps.checkFileExists keepsToItself_reply hchdir,
    fun _ => follows_keeps.checkListArgument keepsToItself_reply hchdir⟩

theorem executeCommand_keepsToItself {server : ServerT} {ans : Answers} {parsed : Option Command}
    {s s' : Ctx} {status : CommandStatus}
    (h : executeCommand server ans parsed s = (.ok status, s')) : KeepsToItself id s s' := by
  have hs' : s' = (executeCommand server ans parsed s).2 := by rw [h]
  rcases word_cases parsed with hown | ⟨command, rfl, hdir⟩ | ⟨command, rfl, hlog⟩
  · rw [hs']
    exact (frame_keepsToItself id server ans).executeCommand
      (fun command hc => ⟨hown command hc, by simp⟩) s
  · have hr : Relocates s s' := hs' ▸ executeCommand_relocates hdir s
    exact keepsToItself_of_same (by rw [hr.os]) (by rw [hr.conn]) (by rw [hr.conn])
  · have hr : Logs s s' := hs' ▸ executeCommand_logs hlog s
    exact keepsToItself_of_same (by rw [hr.os]) (by rw [hr.conn]) (by rw [hr.conn])

end

/-! ## Every reachable state -/

/-- What holds of the descriptors in every reachable state. -/
structure Sound (u : Setup) (S : Sessions) : Prop where
  owns : ∀ id c, S.conns id = some c → Owns S.world.os.desc id c
  apart : ∀ id id' c c', id ≠ id' → S.conns id = some c → S.conns id' = some c' →
    ∀ fd ∈ c.dataFds, fd ∉ c'.dataFds
  server : S.world.os.desc u.server.sockfd = some .server
  sigpipe : S.world.os.signals .sigpipe = .default

/-- The descriptors of one client are none of another's. -/
theorem Owns.ne {desc : DescTable} {id id' : ConnId} {c c' : Connection} (h : Owns desc id c)
    (h' : Owns desc id' c') (hne : id ≠ id') (hapart : ∀ fd ∈ c.dataFds, fd ∉ c'.dataFds) {fd : Fd}
    (hfd : fd = c'.clientSockfd ∨ fd ∈ c'.dataFds) : fd ≠ c.clientSockfd ∧ fd ∉ c.dataFds := by
  rcases hfd with rfl | hfd
  · constructor
    · intro he
      have := h'.control
      rw [he, h.control] at this
      exact hne (by cases this; rfl)
    · intro hmem
      rcases h.dataFds hmem with hs | ⟨n, hs⟩ <;> rw [h'.control] at hs <;> cases hs
  · constructor
    · rintro rfl
      rcases h'.dataFds hfd with hs | ⟨n, hs⟩ <;> rw [h.control] at hs <;> cases hs
    · exact fun hmem => hapart fd hmem hfd

/-- A record keeps what it owns when the entries of its descriptors stay. -/
theorem Owns.congr {desc desc' : DescTable} {id : ConnId} {c : Connection} (h : Owns desc id c)
    (heq : ∀ fd, fd = c.clientSockfd ∨ fd ∈ c.dataFds → desc' fd = desc fd) : Owns desc' id c := by
  refine ⟨?_, ?_, ?_⟩
  · rw [heq _ (.inl rfl), h.control]
  · intro d fd hd hfd
    rw [heq _ (.inr (mem_dataFds.mpr ⟨d, hd, .inl hfd⟩))]
    exact h.listens d fd hd hfd
  · intro d fd hd hfd
    rw [heq _ (.inr (mem_dataFds.mpr ⟨d, hd, .inr hfd⟩))]
    exact h.connects d fd hd hfd

/-- Tearing a connection down closes its own descriptors only. -/
theorem tornDown_of_ne {c : Connection} {desc : DescTable} {fd : Fd} (hctl : fd ≠ c.clientSockfd)
    (hfd : fd ∉ c.dataFds) : c.tornDown desc fd = desc fd := by
  rw [Connection.tornDown, Function.update_of_ne hctl]
  cases h : c.dataSocket.bind DataSocket.clientSockfd with
  | none => rfl
  | some fd' =>
    obtain ⟨d, hd, hc⟩ := Option.bind_eq_some_iff.mp h
    refine Function.update_of_ne ?_ ..
    rintro rfl
    exact hfd (mem_dataFds.mpr ⟨d, hd, .inr hc⟩)

theorem signals_of_executeCommand {server : ServerT} {ans : Answers} {parsed : Option Command}
    {s s' : Ctx} {status : CommandStatus}
    (h : executeCommand server ans parsed s = (.ok status, s')) :
    s'.os.signals = s.os.signals ∧ s'.os.hungup = s.os.hungup := by
  have hs' : s' = (executeCommand server ans parsed s).2 := by rw [h]
  rcases word_cases parsed with hown | ⟨command, rfl, hdir⟩ | ⟨command, rfl, hlog⟩
  · have hr : Routine s s' := hs' ▸ executeCommand_routine hown s
    exact ⟨hr.signals, hr.hungup⟩
  · have hr : Relocates s s' := hs' ▸ executeCommand_relocates hdir s
    rw [hr.os]
    exact ⟨rfl, rfl⟩
  · have hr : Logs s s' := hs' ▸ executeCommand_logs hlog s
    rw [hr.os]
    exact ⟨rfl, rfl⟩

/-- An owned descriptor is open. -/
theorem Owns.isOpen {desc : DescTable} {id : ConnId} {c : Connection} (h : Owns desc id c) {fd : Fd}
    (hfd : fd = c.clientSockfd ∨ fd ∈ c.dataFds) : desc fd ≠ none := by
  rcases hfd with rfl | hfd
  · rw [h.control]
    simp
  · rcases h.dataFds hfd with hs | ⟨n, hs⟩ <;> rw [hs] <;> simp

/-- A step that concerns the client `id`: it changes no other record, and no
open descriptor but the client's own. -/
theorem Sound.update {u : Setup} {S S' : Sessions} (hS : Sound u S) (id : ConnId)
    (hconns : ∀ id', id' ≠ id → S'.conns id' = S.conns id')
    (hdesc : ∀ fd, S.world.os.desc fd ≠ none →
      (∀ c, S.conns id = some c → fd ≠ c.clientSockfd ∧ fd ∉ c.dataFds) →
        S'.world.os.desc fd = S.world.os.desc fd)
    (hnew : ∀ c', S'.conns id = some c' → Owns S'.world.os.desc id c' ∧
      ∀ fd ∈ c'.dataFds, S.world.os.desc fd = none ∨ ∃ c, S.conns id = some c ∧ fd ∈ c.dataFds)
    (hsig : S'.world.os.signals = S.world.os.signals) : Sound u S' := by
  have hother : ∀ id' c', id' ≠ id → S.conns id' = some c' → ∀ fd,
      fd = c'.clientSockfd ∨ fd ∈ c'.dataFds → S'.world.os.desc fd = S.world.os.desc fd := by
    intro id' c' hne hc' fd hfd
    refine hdesc fd ((hS.owns id' c' hc').isOpen hfd) fun c hc => ?_
    exact (hS.owns id c hc).ne (hS.owns id' c' hc') hne.symm
      (hS.apart id id' c c' hne.symm hc hc') hfd
  -- a new data descriptor of `id` is nobody else's: it was free, or already its own
  have hapart : ∀ id' c c', id' ≠ id → S'.conns id = some c → S.conns id' = some c' →
      ∀ fd ∈ c.dataFds, fd ∉ c'.dataFds := by
    intro id' c c' hne hc hc' fd hfd hfd'
    rcases (hnew c hc).2 fd hfd with hfree | ⟨c₀, hc₀, hmem⟩
    · exact (hS.owns id' c' hc').isOpen (.inr hfd') hfree
    · exact hS.apart id id' c₀ c' hne.symm hc₀ hc' fd hmem hfd'
  refine ⟨?_, ?_, ?_, by rw [hsig, hS.sigpipe]⟩
  · intro id' c' hc'
    by_cases hid : id' = id
    · subst hid
      exact (hnew c' hc').1
    · rw [hconns id' hid] at hc'
      exact (hS.owns id' c' hc').congr (hother id' c' hid hc')
  · intro id₁ id₂ c₁ c₂ hne h₁ h₂ fd hfd hfd'
    by_cases hid₁ : id₁ = id
    · subst hid₁
      rw [hconns id₂ hne.symm] at h₂
      exact hapart id₂ c₁ c₂ hne.symm h₁ h₂ fd hfd hfd'
    · rw [hconns id₁ hid₁] at h₁
      by_cases hid₂ : id₂ = id
      · subst hid₂
        exact hapart id₁ c₂ c₁ hid₁ h₂ h₁ fd hfd' hfd
      · rw [hconns id₂ hid₂] at h₂
        exact hS.apart id₁ id₂ c₁ c₂ hne h₁ h₂ fd hfd hfd'
  · rw [hdesc _ (by rw [hS.server]; simp), hS.server]
    intro c hc
    constructor
    · intro he
      have := (hS.owns id c hc).control
      rw [← he, hS.server] at this
      cases this
    · intro hmem
      rcases (hS.owns id c hc).dataFds hmem with hs | ⟨n, hs⟩ <;> rw [hS.server] at hs <;> cases hs

/-- A connection that arrives on a listening data socket. -/
theorem Sound.dataConnect {u : Setup} {S S' : Sessions} (hS : Sound u S) {fd : Fd} {n m : Nat}
    (hfd : S.world.os.desc fd = some (.listener n)) (hconns : S'.conns = S.conns)
    (hdesc : S'.world.os.desc = Function.update S.world.os.desc fd (some (.listener m)))
    (hsig : S'.world.os.signals = S.world.os.signals) : Sound u S' := by
  have hne : ∀ {fd' : Fd} {d : Desc}, S.world.os.desc fd' = some d → d ≠ .listener n →
      S'.world.os.desc fd' = some d := by
    intro fd' d hd hdn
    have : fd' ≠ fd := by
      rintro rfl
      rw [hfd] at hd
      exact hdn (Option.some.inj hd).symm
    rw [hdesc, Function.update_of_ne this, hd]
  refine ⟨?_, by rw [hconns]; exact hS.apart, hne hS.server (by simp), by rw [hsig, hS.sigpipe]⟩
  intro id c hc
  rw [hconns] at hc
  have h := hS.owns id c hc
  refine ⟨hne h.control (by simp), ?_, fun d fd' hd hfd' =>
    hne (h.connects d fd' hd hfd') (by simp)⟩
  intro d fd' hd hfd'
  by_cases he : fd' = fd
  · exact ⟨m, by rw [he, hdesc, Function.update_self]⟩
  · obtain ⟨k, hk⟩ := h.listens d fd' hd hfd'
    exact ⟨k, by rw [hdesc, Function.update_of_ne he, hk]⟩

theorem Sound.congr {u : Setup} {S S' : Sessions} (hS : Sound u S) (hconns : S'.conns = S.conns)
    (hdesc : S'.world.os.desc = S.world.os.desc)
    (hsig : S'.world.os.signals = S.world.os.signals) : Sound u S' :=
  ⟨by rw [hconns, hdesc]; exact hS.owns, by rw [hconns]; exact hS.apart, by rw [hdesc, hS.server],
    by rw [hsig, hS.sigpipe]⟩

theorem Sound.step {u : Setup} {S S' : Sessions} {e : SessionEvent} (hS : Sound u S)
    (h : S.step u.server e = .ok S') : Sound u S' := by
  cases e with
  | accept fd addr served =>
    obtain ⟨⟨c, w⟩, hacc, rfl⟩ := map_eq_ok h
    obtain ⟨hfree, rfl, rfl⟩ := World.accept_eq_ok hacc
    have hopen : ∀ fd', S.world.os.desc fd' ≠ none →
        Function.update S.world.os.desc fd (some (.control S.world.nextId)) fd' =
          S.world.os.desc fd' := by
      intro fd' hne
      exact Function.update_of_ne (by rintro rfl; exact hne hfree) ..
    refine hS.update S.world.nextId ?_ (fun fd' hne _ => hopen fd' hne) ?_ rfl
    · intro id' hid
      dsimp only
      split
      next => rw [Function.update_of_ne hid]
      next => rfl
    · intro c' hc'
      dsimp only at hc'
      split at hc'
      next =>
        rw [Function.update_self] at hc'
        obtain rfl := Option.some.inj hc'
        refine ⟨⟨Function.update_self .., ?_, ?_⟩, ?_⟩
        · rintro d fd' ⟨⟩
        · rintro d fd' ⟨⟩
        · intro fd' hfd'
          obtain ⟨d, ⟨⟩, -⟩ := mem_dataFds.mp hfd'
      next =>
        have hown := hS.owns _ c' hc'
        exact ⟨hown.congr fun fd' hfd' => hopen fd' (hown.isOpen hfd'),
          fun fd' hfd' => .inr ⟨c', hc', hfd'⟩⟩
  | line id line ans =>
    obtain ⟨c, parsed, hc, -, ⟨status, s, hx, -, rfl⟩ | ⟨command, -, -, rfl⟩⟩ := handleLine_eq_ok h
    · have hown : OwnStep id (Ctx.start S.world.os c) s :=
        executeCommand_keepsToItself hx (hS.owns id c hc)
      refine hS.update id (fun id' hid => Function.update_of_ne hid ..) ?_ ?_
        (signals_of_executeCommand hx).1
      · exact fun fd hne hnot => hown.others fd hne (hnot c hc).2
      · intro c' hc'
        obtain rfl : s.conn = c' := by simpa [Sessions.handled] using hc'
        exact ⟨hown.owns, fun fd hfd => (hown.taken fd hfd).symm.imp_right fun hmem =>
          ⟨c, hc, hmem⟩⟩
    · refine hS.update id (fun id' hid => Function.update_of_ne hid ..) ?_ ?_ rfl
      · exact fun fd _ hnot => tornDown_of_ne (hnot c hc).1 (hnot c hc).2
      · intro c' hc'
        simp [Sessions.handled] at hc'
  | child k cans =>
    obtain ⟨w, hw, rfl⟩ := map_eq_ok h
    obtain ⟨id, child, s, -, -, rfl⟩ := World.runChild_eq_ok hw
    exact hS.congr rfl rfl rfl
  | hangup id =>
    injection h with h
    subst h
    exact hS.congr rfl rfl rfl
  | dataConnect fd =>
    obtain ⟨w, hw, rfl⟩ := map_eq_ok h
    obtain ⟨pending, hfd, rfl⟩ := World.dataConnect_eq_ok hw
    exact hS.dataConnect hfd rfl rfl rfl

/-- What a line of one client leaves another client: its record, and the
descriptors in it. -/
theorem others_of_handleLine {u : Setup} {S S' : Sessions} {a b : ConnId} {line : CStr}
    {ans : Answers} {c : Connection} (hS : Sound u S) (hab : b ≠ a) (hc : S.conns b = some c)
    (h : S.handleLine u.server a line ans = .ok S') :
    S'.conns b = some c ∧ S'.world.os.signals = S.world.os.signals ∧
      S'.world.os.hungup = S.world.os.hungup ∧
        ∀ fd, fd = c.clientSockfd ∨ fd ∈ c.dataFds → S'.world.os.desc fd = S.world.os.desc fd := by
  have hown := hS.owns b c hc
  obtain ⟨c₀, parsed, hc₀, -, ⟨status, s, hx, -, rfl⟩ | ⟨command, -, -, rfl⟩⟩ := handleLine_eq_ok h
  · have hstep : OwnStep a (Ctx.start S.world.os c₀) s :=
      executeCommand_keepsToItself hx (hS.owns a c₀ hc₀)
    obtain ⟨hsig, hhup⟩ := signals_of_executeCommand hx
    refine ⟨(Function.update_of_ne hab ..).trans hc, hsig, hhup, fun fd hfd => ?_⟩
    have hne := (hS.owns a c₀ hc₀).ne hown hab.symm (hS.apart a b c₀ c hab.symm hc₀ hc) hfd
    exact hstep.others fd (hown.isOpen hfd) hne.2
  · refine ⟨(Function.update_of_ne hab ..).trans hc, rfl, rfl, fun fd hfd => ?_⟩
    have hne := (hS.owns a c₀ hc₀).ne hown hab.symm (hS.apart a b c₀ c hab.symm hc₀ hc) hfd
    exact tornDown_of_ne hne.1 hne.2

theorem sound_of_run {u : Setup} {events : List SessionEvent} {S : Sessions}
    (h : (sessions u).run events = .ok S) : Sound u S := by
  refine Machine.run_invariant (m := sessions u) (I := fun _ S => Sound u S) ?_
    (fun _ _ _ _ hS hstep => hS.step hstep) events S h
  refine ⟨?_, ?_, ?_, rfl⟩
  · rintro id c ⟨⟩
  · rintro id id' c c' - ⟨⟩
  · show Function.update (fun _ => none) u.server.sockfd (some Desc.server) u.server.sockfd = _
    rw [Function.update_self]

end MyFtp.Server
