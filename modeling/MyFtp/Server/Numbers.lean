import MyFtp.Server.Children
import MyFtp.Server.Descriptors

/-!
# The numbers the system picks

The system picks the numbers of new descriptors and the port of a passive data
socket. The program stores these numbers, prints the port and hands the
descriptors back to the system, and does nothing else with them:

> `executeCommand_alongside`: from two states that differ in such numbers only,
> with answers of the system that differ in such numbers only, a line is
> handled the same way.

> `run_alongside`: so does a child.
-/

namespace MyFtp.Server

open MyFtp.Posix
open Prog

/-! ## Forgetting numbers -/

/-- The data socket without the numbers the system picked for it. -/
def DataSocket.unnumbered (d : DataSocket) : DataSocket :=
  { d with
    dataSockfd := d.dataSockfd.map fun _ => 0
    port := if d.dataSocketMode = .passive then 0 else d.port
    clientSockfd := d.clientSockfd.map fun _ => 0 }

/-- The record without these numbers. -/
def Connection.unnumbered (c : Connection) : Connection :=
  { c with dataSocket := c.dataSocket.map DataSocket.unnumbered }

/-- The reply without the number of the port. -/
def Reply.unnumbered : Reply → Reply
  | .enteringPassive addr _ _ => .enteringPassive addr 0 0
  | r => r

/-- Who got which reply, but for the numbers. -/
def unnumberedReplies (l : List (ConnId × Reply)) : List (ConnId × Reply) :=
  l.map fun e => (e.1, e.2.unnumbered)

/-- The answers agree in everything the system does not pick freely. -/
structure SameAnswers (ans ans' : Answers) : Prop where
  socket : ans'.socket.isSome = ans.socket.isSome
  bind : ans'.bind = ans.bind
  listen : ans'.listen = ans.listen
  accept : ans'.accept.map Prod.snd = ans.accept.map Prod.snd
  connect : ans'.connect = ans.connect
  fork : ans'.fork = ans.fork

/-- What the record's listening descriptor stands for. -/
def Connection.listening (c : Connection) (desc : DescTable) : Option Desc :=
  (c.dataSocket.bind DataSocket.dataSockfd).bind desc

/-- Two records of one client that differ in numbers only, each with the
descriptors it says it has. -/
structure Kin (id : ConnId) (desc desc' : DescTable) (c c' : Connection) : Prop where
  owns : Owns desc id c
  owns' : Owns desc' id c'
  conn : c'.unnumbered = c.unnumbered
  listening : c'.listening desc' = c.listening desc

/-- Two children that differ in numbers only. -/
structure SameChild (id : ConnId) (child child' : Child) : Prop where
  body : child'.body = child.body
  command : child'.command = child.command
  cwd : child'.cwd = child.cwd
  kin : Kin id child.desc child'.desc child.connection child'.connection

/-- Two states that differ in numbers only, as far as the client can tell. -/
structure Sim (id : ConnId) (s t : Ctx) : Prop where
  tree : t.os.tree = s.os.tree
  cwd : t.os.cwd = s.os.cwd
  signals : t.os.signals = s.os.signals
  hungup : t.os.hungup id = s.os.hungup id
  kin : Kin id s.os.desc t.os.desc s.conn t.conn
  out : unnumberedReplies t.out = unnumberedReplies s.out
  data : t.data = s.data
  forked : List.Forall₂ (SameChild id) s.forked t.forked

/-- The two programs do the same from such states, unless one of them stops for
a reason in `X`. -/
def Alongside (X : Halt → Prop) (id : ConnId) {α : Type} (p q : M α) : Prop :=
  Agree X (Sim id) (fun a b : α => a = b) p q

section

variable {X : Halt → Prop} {id : ConnId} {α : Type}

theorem Sim.conn {s t : Ctx} (h : Sim id s t) : t.conn.unnumbered = s.conn.unnumbered := h.kin.conn

theorem loggedIn_of_unnumbered {c c' : Connection} (h : c'.unnumbered = c.unnumbered) :
    c'.loggedIn = c.loggedIn := by
  have := congrArg Connection.loggedIn h
  exact this

theorem user_of_unnumbered {c c' : Connection} (h : c'.unnumbered = c.unnumbered) :
    c'.user = c.user := by
  have := congrArg Connection.user h
  exact this

theorem workingDirectory_of_unnumbered {c c' : Connection} (h : c'.unnumbered = c.unnumbered) :
    c'.workingDirectory = c.workingDirectory := by
  have := congrArg Connection.workingDirectory h
  exact this

theorem dataSocket_of_unnumbered {c c' : Connection} (h : c'.unnumbered = c.unnumbered) :
    c'.dataSocket.map DataSocket.unnumbered = c.dataSocket.map DataSocket.unnumbered :=
  congrArg Connection.dataSocket h

theorem dataSocket_eq_none_iff {c c' : Connection} (h : c'.unnumbered = c.unnumbered) :
    c.dataSocket = none ↔ c'.dataSocket = none := by
  have := dataSocket_of_unnumbered h
  cases hd : c.dataSocket <;> cases hd' : c'.dataSocket <;> simp_all

/-! ## Reading and printing -/

theorem alongside_pure (a : α) : Alongside X id (pure a : M α) (pure a) := agree_pure rfl

theorem alongside_deref {a b : Option α} (h : b = a) : Alongside X id (deref a) (deref b) := by
  subst h
  cases b with
  | none => exact agree_fail _
  | some a => exact agree_pure rfl

theorem Alongside.bind {β : Type} {p q : M α} {k l : α → M β} (h : Alongside X id p q)
    (hk : ∀ a, Alongside X id (k a) (l a)) : Alongside X id (p >>= k) (q >>= l) :=
  Agree.bind h fun a b hab => by subst hab; exact hk a

/-- Reading the record: the two differ in numbers only. -/
theorem alongside_conn_bind {k l : Connection → M α}
    (h : ∀ c c', c'.unnumbered = c.unnumbered → Alongside X id (k c) (l c')) :
    Alongside X id (conn >>= k) (conn >>= l) :=
  Agree.bind (V := fun c c' => Connection.unnumbered c' = Connection.unnumbered c)
    (agree_gets fun _ _ hst => hst.conn) h

/-- Reading the files from the current directory. -/
theorem alongside_files (f : FileTree → Path → α) :
    Alongside X id (gets (fun s => f s.os.tree s.os.cwd) : M α)
      (gets fun s => f s.os.tree s.os.cwd) :=
  agree_gets fun s t hst => by rw [hst.tree, hst.cwd]

/-- A reply reaches the client in both cases or in none. -/
theorem alongside_reply {r r' : Reply} (hr : r'.unnumbered = r.unnumbered) :
    Alongside X id (reply r) (reply r') := by
  intro s t hst
  right
  right
  rw [reply_apply, dprintf_apply, reply_apply, dprintf_apply, kills_eq hst.kin.owns.control,
    kills_eq hst.kin.owns'.control, hst.signals, hst.hungup]
  split
  next => exact ⟨rfl, hst⟩
  next =>
    refine ⟨rfl, { hst with out := ?_ }⟩
    show unnumberedReplies (t.out ++ _) = unnumberedReplies (s.out ++ _)
    rw [unnumberedReplies, List.map_append, ← unnumberedReplies, hst.out, unnumberedReplies,
      unnumberedReplies, List.map_append, delivers_control hst.kin.owns.control,
      delivers_control hst.kin.owns'.control, hst.hungup]
    split
    next => rfl
    next => rw [List.map_singleton, List.map_singleton, hr]

theorem alongside_refuse (r : Reply) : Alongside X id (refuse r) (refuse r) :=
  (alongside_reply rfl).bind fun _ => alongside_pure _

/-- Say one thing and end with a result. -/
theorem alongside_answer (r : Reply) (a : α) :
    Alongside X id (do reply r; return a) (do reply r; return a) :=
  (alongside_reply rfl).bind fun _ => alongside_pure _

theorem alongside_ite {c d : Prop} [Decidable c] [Decidable d] {p p' q q' : M α} (hcd : c ↔ d)
    (ht : c → Alongside X id p q) (hf : ¬ c → Alongside X id p' q') :
    Alongside X id (if c then p else p') (if d then q else q') :=
  agree_ite hcd ht hf

/-! ## Moving and changing files -/

/-- Changing the record in anything but its descriptors and its data socket. -/
theorem alongside_modifyConn {f : Connection → Connection}
    (hf : ∀ c, (f c).unnumbered = f c.unnumbered) (hctl : ∀ c, (f c).clientSockfd = c.clientSockfd)
    (hdata : ∀ c, (f c).dataSocket = c.dataSocket) :
    Alongside X id (modifyConn f) (modifyConn f) := by
  have hkeep : ∀ s : Ctx, KeepsToItself id s { s with conn := f s.conn } :=
    fun s => keepsToItself_of_same rfl (hctl _) (hdata _)
  intro s t hst
  refine .inr (.inr ⟨rfl, { hst with kin := ?_ }⟩)
  refine ⟨(hkeep s hst.kin.owns).owns, (hkeep t hst.kin.owns').owns, ?_, ?_⟩
  · show (f t.conn).unnumbered = (f s.conn).unnumbered
    rw [hf, hf, hst.conn]
  · show (f t.conn).listening t.os.desc = (f s.conn).listening s.os.desc
    rw [Connection.listening, Connection.listening, hdata, hdata]
    exact hst.kin.listening

theorem alongside_chdir (path : CStr) : Alongside X id (chdir path) (chdir path) := by
  intro s t hst
  right
  right
  rw [chdir_apply, chdir_apply, hst.tree, hst.cwd]
  exact ⟨rfl, { hst with cwd := rfl }⟩

theorem alongside_remove (path : CStr) : Alongside X id (remove path) (remove path) := by
  intro s t hst
  right
  right
  rw [remove, remove, hst.tree, hst.cwd]
  cases s.os.tree.remove s.os.cwd path with
  | none => exact ⟨rfl, hst⟩
  | some tree => exact ⟨rfl, { hst with tree := rfl }⟩

theorem alongside_fopenWrite (path : CStr) : Alongside X id (fopenWrite path)
    (fopenWrite path) := by
  intro s t hst
  right
  right
  rw [fopenWrite, fopenWrite, hst.tree, hst.cwd]
  cases s.os.tree.openWrite s.os.cwd path with
  | none => exact ⟨rfl, hst⟩
  | some target => exact ⟨rfl, { hst with tree := rfl }⟩

theorem alongside_fwriteAll (target : FileTree.Target) (content : List Byte) :
    Alongside X id (fwriteAll target content) (fwriteAll target content) := by
  intro s t hst
  refine .inr (.inr ⟨rfl, { hst with tree := ?_ }⟩)
  show FileTree.store t.os.tree target content = FileTree.store s.os.tree target content
  rw [hst.tree]

/-! ## Data sockets -/

/-- Both states get data sockets that differ in numbers only. -/
theorem Sim.withData {s t : Ctx} {desc desc' : DescTable} {d d' : Option DataSocket}
    (hst : Sim id s t) (howns : Owns desc id { s.conn with dataSocket := d })
    (howns' : Owns desc' id { t.conn with dataSocket := d' })
    (hnum : d'.map DataSocket.unnumbered = d.map DataSocket.unnumbered)
    (hlisten : (d'.bind DataSocket.dataSockfd).bind desc' =
      (d.bind DataSocket.dataSockfd).bind desc) :
    Sim id (s.withData desc d) (t.withData desc' d') := by
  refine { hst with kin := ⟨howns, howns', ?_, hlisten⟩ }
  have := hst.conn
  simp only [Connection.unnumbered, Connection.mk.injEq, Ctx.withData] at this ⊢
  exact ⟨this.1, this.2.1, this.2.2.1, this.2.2.2.1, this.2.2.2.2.1, hnum, this.2.2.2.2.2.2⟩

/-- Both states take a free descriptor and store a data socket made with it. -/
theorem Sim.fresh {s t : Ctx} {fd fd' : Fd} {x : Desc} {created created' : Option DataSocket}
    (hst : Sim id s t) (hfree : s.os.desc fd = none) (hfree' : t.os.desc fd' = none)
    (hnum : created'.map DataSocket.unnumbered = created.map DataSocket.unnumbered)
    (hnew : ∀ d, created = some d →
      (∀ k, d.dataSockfd = some k → k = fd ∧ ∃ n, x = .listener n) ∧
        ∀ k, d.clientSockfd = some k → k = fd ∧ x = .socket)
    (hnew' : ∀ d, created' = some d →
      (∀ k, d.dataSockfd = some k → k = fd' ∧ ∃ n, x = .listener n) ∧
        ∀ k, d.clientSockfd = some k → k = fd' ∧ x = .socket) :
    Sim id
      { s.withDesc fd (some x) with conn := { s.conn with dataSocket := created } }
      { t.withDesc fd' (some x) with conn := { t.conn with dataSocket := created' } } := by
  have howns : ∀ {s : Ctx} {fd : Fd} {created : Option DataSocket}, s.os.desc fd = none →
      (∀ d, created = some d →
        (∀ k, d.dataSockfd = some k → k = fd ∧ ∃ n, x = .listener n) ∧
          ∀ k, d.clientSockfd = some k → k = fd ∧ x = .socket) →
      KeepsToItself id s
        { s.withDesc fd (some x) with conn := { s.conn with dataSocket := created } } := by
    intro s fd created hfree hnew
    refine keepsToItself_replace (keepsToItself_fresh hfree) fun d hd => ⟨?_, ?_⟩
    · intro k hk
      obtain ⟨rfl, n, rfl⟩ := (hnew d hd).1 k hk
      exact ⟨hfree, n, Function.update_self ..⟩
    · intro k hk
      obtain ⟨rfl, rfl⟩ := (hnew d hd).2 k hk
      exact ⟨hfree, Function.update_self ..⟩
  refine hst.withData (howns hfree hnew hst.kin.owns).owns (howns hfree' hnew' hst.kin.owns').owns
    hnum ?_
  cases created with
  | none =>
    cases created' with
    | none => rfl
    | some d' => cases hnum
  | some d =>
    cases created' with
    | none => cases hnum
    | some d' =>
      have hfds := congrArg DataSocket.dataSockfd (Option.some.inj hnum)
      simp only [DataSocket.unnumbered] at hfds
      rw [Option.bind_some, Option.bind_some]
      cases hd : d.dataSockfd with
      | none =>
        cases hd' : d'.dataSockfd with
        | none => rfl
        | some k' => rw [hd, hd'] at hfds; cases hfds
      | some k =>
        cases hd' : d'.dataSockfd with
        | none => rw [hd, hd'] at hfds; cases hfds
        | some k' =>
          rw [((hnew d rfl).1 k hd).1, ((hnew' d' rfl).1 k' hd').1, Option.bind_some,
            Option.bind_some, Function.update_self, Function.update_self]

/-- The two sides' new sockets: none on either, or one on each. -/
theorem SameAnswers.socket_cases {ans ans' : Answers} (h : SameAnswers ans ans') :
    (ans.socket = none ∧ ans'.socket = none) ∨
      ∃ fd fd', ans.socket = some fd ∧ ans'.socket = some fd' := by
  have := h.socket
  cases hs : ans.socket with
  | none =>
    cases hs' : ans'.socket with
    | none => exact .inl ⟨rfl, rfl⟩
    | some fd' => rw [hs, hs'] at this; cases this
  | some fd =>
    cases hs' : ans'.socket with
    | none => rw [hs, hs'] at this; cases this
    | some fd' => exact .inr ⟨fd, fd', rfl, rfl⟩

theorem SameAnswers.accept_cases {ans ans' : Answers} (h : SameAnswers ans ans') :
    (ans.accept = none ∧ ans'.accept = none) ∨
      ∃ fd fd' peer, ans.accept = some (fd, peer) ∧ ans'.accept = some (fd', peer) := by
  have := h.accept
  cases hs : ans.accept with
  | none =>
    cases hs' : ans'.accept with
    | none => exact .inl ⟨rfl, rfl⟩
    | some r' => rw [hs, hs'] at this; cases this
  | some r =>
    cases hs' : ans'.accept with
    | none => rw [hs, hs'] at this; cases this
    | some r' =>
      rw [hs, hs'] at this
      refine .inr ⟨r.1, r'.1, r.2, rfl, ?_⟩
      rw [← Option.some.inj this]

/-- What is stored and what is printed about a new data socket. -/
theorem alongside_store {created created' : Option DataSocket} {k l : M CommandStatus}
    {s t s₁ t₁ : Ctx}
    (h : Sim id { s₁ with conn := { s.conn with dataSocket := created } }
      { t₁ with conn := { t.conn with dataSocket := created' } })
    (hs : s₁.conn = s.conn) (ht : t₁.conn = t.conn) (hkl : Alongside X id k l) :
    (∃ e, X e ∧ ((do setDataSocket created; k : M CommandStatus) s₁).1 = .error e) ∨
      (∃ e, X e ∧ ((do setDataSocket created'; l : M CommandStatus) t₁).1 = .error e) ∨
        (SameEnd (fun a b : CommandStatus => a = b)
          ((do setDataSocket created; k : M CommandStatus) s₁).1
          ((do setDataSocket created'; l : M CommandStatus) t₁).1 ∧
        Sim id ((do setDataSocket created; k : M CommandStatus) s₁).2
          ((do setDataSocket created'; l : M CommandStatus) t₁).2) := by
  refine hkl { s₁ with conn := { s₁.conn with dataSocket := created } }
    { t₁ with conn := { t₁.conn with dataSocket := created' } } ?_
  rw [hs, ht]
  exact h

/-- Nothing was taken and the data socket is gone. -/
theorem Sim.dropped {s t : Ctx} (hst : Sim id s t) :
    Sim id { s with conn := { s.conn with dataSocket := none } }
      { t with conn := { t.conn with dataSocket := none } } := by
  have howns : ∀ {s : Ctx}, KeepsToItself id s
      { s with conn := { s.conn with dataSocket := none } } :=
    fun {s} => keepsToItself_replace (Std.Refl.refl s) (by simp)
  exact hst.withData (howns hst.kin.owns).owns (howns hst.kin.owns').owns rfl rfl

variable {ans ans' : Answers}

theorem alongside_passive (hX : X .disabled) (h : SameAnswers ans ans') :
    Alongside X id (createPassiveDataSocket ans) (createPassiveDataSocket ans') := by
  intro s t hst
  have hs := setupPassiveDataSocket_apply ans s
  have ht := setupPassiveDataSocket_apply ans' t
  unfold createPassiveDataSocket
  rcases h.socket_cases with ⟨hn, hn'⟩ | ⟨fd, fd', hfd, hfd'⟩
  · rw [hn] at hs
    rw [hn'] at ht
    rw [bind_of_ok hs, bind_of_ok ht]
    exact alongside_store hst.dropped rfl rfl (alongside_refuse _)
  · rw [hfd] at hs
    rw [hfd'] at ht
    dsimp only at hs ht
    by_cases hfree : s.os.desc fd = none
    · by_cases hfree' : t.os.desc fd' = none
      · rw [if_pos hfree] at hs
        rw [if_pos hfree', h.bind, h.listen] at ht
        by_cases hfail : ans.bind = false ∨ ans.listen = false
        · rw [if_pos hfail] at hs ht
          rw [bind_of_ok hs, bind_of_ok ht]
          exact alongside_store (hst.fresh hfree hfree' rfl (by simp) (by simp)) rfl rfl
            (alongside_refuse _)
        · rw [if_neg hfail] at hs ht
          rw [bind_of_ok hs, bind_of_ok ht]
          refine alongside_store (hst.fresh hfree hfree' rfl ?_ ?_) rfl rfl ?_
          · rintro d ⟨rfl⟩
            exact ⟨fun k hk => ⟨(Option.some.inj hk).symm, 0, rfl⟩, fun k hk => by cases hk⟩
          · rintro d ⟨rfl⟩
            exact ⟨fun k hk => ⟨(Option.some.inj hk).symm, 0, rfl⟩, fun k hk => by cases hk⟩
          · have hp : splitPort (passiveSocket ans fd).port = some _ := splitPort_port ans.port
            have hp' : splitPort (passiveSocket ans' fd').port = some _ := splitPort_port ans'.port
            dsimp only
            rw [hp, hp', deref_some, deref_some, pure_bind, pure_bind]
            exact Alongside.bind (alongside_reply (by rfl)) fun _ => alongside_pure _
      · rw [if_neg hfree'] at ht
        exact .inr (.inl ⟨.disabled, hX, by rw [bind_of_error ht]⟩)
    · rw [if_neg hfree] at hs
      exact .inl ⟨.disabled, hX, by rw [bind_of_error hs]⟩

theorem alongside_active (hX : X .disabled) (h : SameAnswers ans ans') (arg : CStr) :
    Alongside X id (createActiveDataSocket ans arg) (createActiveDataSocket ans' arg) := by
  unfold createActiveDataSocket
  cases parseHostPortValues arg with
  | none => exact alongside_refuse _
  | some hostPort =>
    intro s t hst
    have hs := setupActiveDataSocket_apply ans hostPort s
    have ht := setupActiveDataSocket_apply ans' hostPort t
    dsimp only
    rcases h.socket_cases with ⟨hn, hn'⟩ | ⟨fd, fd', hfd, hfd'⟩
    · rw [hn] at hs
      rw [hn'] at ht
      rw [bind_of_ok hs, bind_of_ok ht]
      exact alongside_store hst.dropped rfl rfl (alongside_refuse _)
    · rw [hfd] at hs
      rw [hfd'] at ht
      dsimp only at hs ht
      by_cases hfree : s.os.desc fd = none
      · by_cases hfree' : t.os.desc fd' = none
        · rw [if_pos hfree] at hs
          rw [if_pos hfree'] at ht
          rw [bind_of_ok hs, bind_of_ok ht]
          refine alongside_store (hst.fresh hfree hfree' rfl ?_ ?_) rfl rfl (alongside_answer _ _)
          · rintro d ⟨rfl⟩
            exact ⟨fun k hk => (by cases hk), fun k hk => ⟨(Option.some.inj hk).symm, rfl⟩⟩
          · rintro d ⟨rfl⟩
            exact ⟨fun k hk => (by cases hk), fun k hk => ⟨(Option.some.inj hk).symm, rfl⟩⟩
        · rw [if_neg hfree'] at ht
          exact .inr (.inl ⟨.disabled, hX, by rw [bind_of_error ht]⟩)
      · rw [if_neg hfree] at hs
        exact .inl ⟨.disabled, hX, by rw [bind_of_error hs]⟩

/-! ## Transfers -/

/-- The two data sockets, when there is one. -/
theorem Sim.dataSocket_cases {s t : Ctx} (hst : Sim id s t) :
    (s.conn.dataSocket = none ∧ t.conn.dataSocket = none) ∨
      ∃ d d', s.conn.dataSocket = some d ∧ t.conn.dataSocket = some d' ∧
        d'.unnumbered = d.unnumbered ∧
          d'.dataSockfd.bind t.os.desc = d.dataSockfd.bind s.os.desc := by
  have hdata := dataSocket_of_unnumbered hst.conn
  have hlisten := hst.kin.listening
  rw [Connection.listening, Connection.listening] at hlisten
  cases hd : s.conn.dataSocket with
  | none =>
    cases hd' : t.conn.dataSocket with
    | none => exact .inl ⟨rfl, rfl⟩
    | some d' => rw [hd, hd'] at hdata; cases hdata
  | some d =>
    cases hd' : t.conn.dataSocket with
    | none => rw [hd, hd'] at hdata; cases hdata
    | some d' =>
      rw [hd, hd'] at hdata hlisten
      exact .inr ⟨d, d', rfl, rfl, Option.some.inj hdata, hlisten⟩

/-- `accept` on two listening sockets with equally many connections waiting. -/
theorem acceptData_alongside (h : SameAnswers ans ans') {s t : Ctx} {l l' : Option Fd}
    (hl : l'.map (fun _ => 0) = l.map fun _ => 0) (hd : l'.bind t.os.desc = l.bind s.os.desc) :
    (acceptData ans l s).1 = .error .disabled ∨ (acceptData ans' l' t).1 = .error .disabled ∨
      (acceptData ans l s = (.ok none, s) ∧ acceptData ans' l' t = (.ok none, t)) ∨
      (acceptData ans l s = (.error .blocked, s) ∧ acceptData ans' l' t = (.error .blocked, t)) ∨
      ∃ fd fd' peer desc desc', l'.bind desc' = l.bind desc ∧
        acceptData ans l s = (.ok (some (fd, peer)), { s with os := { s.os with desc } }) ∧
        acceptData ans' l' t =
          (.ok (some (fd', peer)), { t with os := { t.os with desc := desc' } }) := by
  have ha := acceptData_apply ans l s
  have ha' := acceptData_apply ans' l' t
  rcases h.accept_cases with ⟨hn, hn'⟩ | ⟨fd, fd', peer, hfd, hfd'⟩
  · rw [hn] at ha
    rw [hn'] at ha'
    exact .inr (.inr (.inl ⟨ha, ha'⟩))
  rw [hfd] at ha
  rw [hfd', hd] at ha'
  cases l with
  | none =>
    cases l' with
    | none => exact .inr (.inr (.inl ⟨ha, ha'⟩))
    | some l' => cases hl
  | some l =>
    cases l' with
    | none => cases hl
    | some l' =>
      rw [Option.bind_some] at ha ha' hd
      rw [Option.bind_some] at hd
      match hx : s.os.desc l with
      | some (.listener (pending + 1)) =>
        rw [hx] at ha ha' hd
        dsimp only at ha ha'
        by_cases hfree : s.os.desc fd = none
        · by_cases hfree' : t.os.desc fd' = none
          · rw [if_pos hfree] at ha
            rw [if_pos hfree'] at ha'
            refine .inr (.inr (.inr (.inr ⟨fd, fd', peer, _, _, ?_, ha, ha'⟩)))
            have hne : l ≠ fd := by
              rintro rfl
              rw [hx] at hfree
              cases hfree
            have hne' : l' ≠ fd' := by
              rintro rfl
              rw [hd] at hfree'
              cases hfree'
            simp only [Option.bind_some, Ctx.withDesc, Function.update_of_ne hne,
              Function.update_of_ne hne', Function.update_self]
          · rw [if_neg hfree'] at ha'
            exact .inr (.inl (by rw [ha']))
        · rw [if_neg hfree] at ha
          exact .inl (by rw [ha])
      | some (.listener 0) =>
        rw [hx] at ha ha'
        exact .inr (.inr (.inr (.inl ⟨ha, ha'⟩)))
      | none | some .server | some (.control _) | some .socket =>
        rw [hx] at ha ha'
        exact .inr (.inr (.inl ⟨ha, ha'⟩))

theorem alongside_establish (hX : X .disabled) (h : SameAnswers ans ans') :
    Alongside X id (establishDataSocketConnection ans) (establishDataSocketConnection ans') := by
  intro s t hst
  have howns := (keepsToItself_establish ans s hst.kin.owns).owns
  have howns' := (keepsToItself_establish ans' t hst.kin.owns').owns
  rw [establishDataSocketConnection, conn_bind_apply] at howns howns' ⊢
  rw [establishDataSocketConnection, conn_bind_apply]
  rcases hst.dataSocket_cases with ⟨hd, hd'⟩ | ⟨d, d', hd, hd', hnum, hlisten⟩
  · rw [hd, hd']
    exact .inr (.inr ⟨rfl, hst⟩)
  rw [hd, deref_some, pure_bind_apply] at howns ⊢
  rw [hd', deref_some, pure_bind_apply] at howns' ⊢
  have hmode : d'.dataSocketMode = d.dataSocketMode := by
    have := congrArg DataSocket.dataSocketMode hnum
    exact this
  have hfds : d'.dataSockfd.map (fun _ => 0) = d.dataSockfd.map fun _ => 0 := by
    have := congrArg DataSocket.dataSockfd hnum
    exact this
  rw [hmode] at howns' ⊢
  cases hm : d.dataSocketMode with
  | active =>
    refine .inr (.inr ⟨?_, hst⟩)
    show ans.connect = ans'.connect
    rw [h.connect]
  | passive =>
    rw [hm] at howns howns'
    dsimp only at howns howns' ⊢
    have hunnumbered : ∀ (fd fd' : Option Fd) (peer : Option SockAddr),
        fd'.map (fun _ => (0 : Fd)) = fd.map (fun _ => 0) →
        { d' with clientSockfd := fd', addr := peer.getD d'.addr }.unnumbered =
          { d with clientSockfd := fd, addr := peer.getD d.addr }.unnumbered := by
      intro fd fd' peer hfd
      have := hnum
      simp only [DataSocket.unnumbered, DataSocket.mk.injEq] at this ⊢
      exact ⟨this.1, this.2.1, by rw [this.2.2.1], this.2.2.2.1, this.2.2.2.2.1, hfd⟩
    rcases acceptData_alongside h hfds hlisten with
      he | he | ⟨ha, ha'⟩ | ⟨ha, ha'⟩ | ⟨fd, fd', peer, desc, desc', hsame, ha, ha'⟩
    · exact .inl ⟨.disabled, hX, by rw [acceptConnection, bind_of_error (Prod.ext he rfl)]⟩
    · exact .inr (.inl ⟨.disabled, hX, by rw [acceptConnection, bind_of_error (Prod.ext he rfl)]⟩)
    · have hs := acceptConnection_of_none ha
      have ht := acceptConnection_of_none ha'
      rw [hs] at howns ⊢
      rw [ht] at howns' ⊢
      exact .inr (.inr ⟨rfl, hst.withData howns howns'
        (congrArg some (hunnumbered none none none rfl)) hlisten⟩)
    · rw [acceptConnection, bind_of_error ha, acceptConnection, bind_of_error ha']
      exact .inr (.inr ⟨rfl, hst⟩)
    · have hs := acceptConnection_of_some ha
      have ht := acceptConnection_of_some ha'
      rw [hs] at howns ⊢
      rw [ht] at howns' ⊢
      exact .inr (.inr ⟨rfl, hst.withData howns howns'
        (congrArg some (hunnumbered (some fd) (some fd') (some peer) rfl)) hsame⟩)

/-- The data socket is destroyed on both sides. -/
theorem alongside_destroy (status : CommandStatus) :
    Alongside X id (do
        let c ← conn
        destroyDataSocket c.dataSocket
        setDataSocket none
        return status)
      (do
        let c ← conn
        destroyDataSocket c.dataSocket
        setDataSocket none
        return status) := by
  have hrun : ∀ s : Ctx, ∃ desc, (do
      let c ← conn
      destroyDataSocket c.dataSocket
      setDataSocket none
      return status : M CommandStatus) s = (.ok status, s.withData desc none) := by
    intro s
    rw [conn_bind_apply, destroyDataSocket]
    cases s.conn.dataSocket.bind DataSocket.clientSockfd with
    | none => exact ⟨s.os.desc, rfl⟩
    | some fd => exact ⟨Function.update s.os.desc fd none, rfl⟩
  intro s t hst
  have howns := (keepsToItself_destroy status s hst.kin.owns).owns
  have howns' := (keepsToItself_destroy status t hst.kin.owns').owns
  obtain ⟨desc, hs⟩ := hrun s
  obtain ⟨desc', ht⟩ := hrun t
  rw [hs] at howns ⊢
  rw [ht] at howns' ⊢
  exact .inr (.inr ⟨rfl, hst.withData howns howns' rfl rfl⟩)

theorem alongside_fork (h : SameAnswers ans ans') (body : TransferBody) (command : Command) :
    Alongside X id (forkExecution ans body command) (forkExecution ans' body command) := by
  refine alongside_ite (by rw [h.fork]) (fun _ => ?_) fun _ => alongside_pure _
  refine Alongside.bind ?_ fun _ => alongside_pure _
  intro s t hst
  refine .inr (.inr ⟨rfl, { hst with forked := ?_ }⟩)
  exact List.rel_append hst.forked (.cons ⟨rfl, rfl, hst.cwd, hst.kin⟩ .nil)

theorem alongside_transfer (hX : X .disabled) (h : SameAnswers ans ans') (body : TransferBody)
    (command : Command) : Alongside X id (executeDataSocketCommand ans body command)
      (executeDataSocketCommand ans' body command) := by
  refine (alongside_establish hX h).bind fun established => alongside_ite Iff.rfl (fun _ => ?_)
    fun _ => ?_
  · exact (alongside_reply rfl).bind fun _ => alongside_destroy _
  · refine (alongside_fork h body command).bind fun status => alongside_ite Iff.rfl (fun _ => ?_)
      fun _ => alongside_destroy _
    exact (alongside_reply rfl).bind fun _ => alongside_destroy _

/-! ## Lines -/

/-- The test every handler but three begins with. -/
theorem alongside_loggedIn {p q : Connection → M CommandStatus}
    (h : ∀ c c', c'.unnumbered = c.unnumbered → Alongside X id (p c) (q c')) :
    Alongside X id
      (do let c ← conn; if c.loggedIn = false then refuse .pleaseLogin else p c)
      (do let c ← conn; if c.loggedIn = false then refuse .pleaseLogin else q c) :=
  alongside_conn_bind fun c c' hc => alongside_ite (by rw [loggedIn_of_unnumbered hc])
    (fun _ => alongside_refuse _) fun _ => h c c' hc

/-- A test on the command alone. -/
theorem alongside_guard {c : Prop} [Decidable c] {p q : M CommandStatus} (r : Reply)
    (h : Alongside X id p q) :
    Alongside X id (if c then refuse r else p) (if c then refuse r else q) :=
  alongside_ite Iff.rfl (fun _ => alongside_refuse _) fun _ => h

theorem alongside_user (command : Command) :
    Alongside X id (userCommand command) (userCommand command) := by
  refine alongside_conn_bind fun c c' hc => alongside_ite (by rw [loggedIn_of_unnumbered hc])
    (fun _ => alongside_refuse _) fun _ => ?_
  exact Alongside.bind (alongside_modifyConn (by intro c; rfl) (by intro c; rfl) (by intro c; rfl))
    fun _ => alongside_answer _ _

theorem alongside_pass (command : Command) :
    Alongside X id (passCommand command) (passCommand command) := by
  refine Alongside.bind ?_ fun status => alongside_ite Iff.rfl
    (fun _ => alongside_pure _) fun _ => ?_
  · refine alongside_conn_bind fun c c' hc => alongside_ite (by rw [loggedIn_of_unnumbered hc])
      (fun _ => alongside_refuse _) fun _ => alongside_ite (by rw [user_of_unnumbered hc])
        (fun _ => alongside_refuse _) fun _ => alongside_pure _
  · refine alongside_conn_bind fun c c' hc =>
      (alongside_deref (user_of_unnumbered hc)).bind fun user =>
        alongside_ite Iff.rfl (fun _ => ?_) fun _ => ?_
    · exact (alongside_reply rfl).bind fun _ => Alongside.bind
        (alongside_modifyConn (by intro c; rfl) (by intro c; rfl) (by intro c; rfl))
        fun _ => alongside_pure _
    · exact Alongside.bind
        (alongside_modifyConn (by intro c; rfl) (by intro c; rfl) (by intro c; rfl))
        fun _ => alongside_refuse _

theorem alongside_checkExists (failed : Reply) (path : CStr) :
    Alongside X id (checkExists failed path) (checkExists failed path) :=
  (alongside_files fun tree cwd => tree.access cwd path).bind fun _ =>
    alongside_ite Iff.rfl (fun _ => alongside_answer _ _) fun _ => alongside_pure _

theorem alongside_getcwd : Alongside X id getcwd getcwd :=
  alongside_files fun tree cwd => tree.getcwd cwd

/-- Taking over a directory. -/
theorem alongside_setDirectory (d : Option Path) :
    Alongside X id (modifyConn fun c => { c with workingDirectory := d })
      (modifyConn fun c => { c with workingDirectory := d }) :=
  alongside_modifyConn (fun _ => rfl) (fun _ => rfl) fun _ => rfl

theorem alongside_changeDir (server : ServerT) (path : CStr) :
    Alongside X id (changeDir server path) (changeDir server path) := by
  refine (alongside_checkExists _ _).bind fun _ => alongside_ite Iff.rfl
    (fun _ => alongside_pure _) fun _ => ?_
  refine (alongside_files fun tree cwd => tree.opendir cwd path).bind fun directory => ?_
  refine Alongside.bind ?_ fun _ => alongside_ite Iff.rfl (fun _ => alongside_pure _) fun _ => ?_
  · exact alongside_ite Iff.rfl (fun _ => alongside_pure _) fun _ => alongside_answer _ _
  refine alongside_conn_bind fun c c' hc =>
    (alongside_deref (workingDirectory_of_unnumbered hc)).bind fun _ => ?_
  refine (alongside_chdir _).bind fun _ => (alongside_chdir _).bind fun _ =>
    alongside_getcwd.bind fun _ => (alongside_setDirectory _).bind fun _ =>
      (alongside_chdir _).bind fun _ => Alongside.bind ?_ fun _ => alongside_answer _ _
  refine alongside_conn_bind fun c c' hc =>
    (alongside_deref (workingDirectory_of_unnumbered hc)).bind fun _ =>
      alongside_ite Iff.rfl (fun _ => ?_) fun _ => alongside_pure _
  exact alongside_getcwd.bind fun _ => alongside_setDirectory _

theorem alongside_deleteFile (path : CStr) :
    Alongside X id (deleteFile path) (deleteFile path) := by
  refine alongside_conn_bind fun c c' hc =>
    (alongside_deref (workingDirectory_of_unnumbered hc)).bind fun _ => ?_
  exact (alongside_chdir _).bind fun _ => (alongside_remove _).bind fun _ =>
    alongside_guard _ (alongside_answer _ _)

theorem alongside_checkFileExists (server : ServerT) (path : CStr) :
    Alongside X id (checkFileExists server path) (checkFileExists server path) := by
  refine alongside_conn_bind fun c c' hc =>
    (alongside_deref (workingDirectory_of_unnumbered hc)).bind fun _ => ?_
  refine (alongside_chdir _).bind fun _ =>
    (alongside_files fun tree cwd => tree.openRead cwd path).bind fun _ =>
      (alongside_chdir _).bind fun _ =>
        alongside_ite Iff.rfl (fun _ => ?_) fun _ => alongside_pure _
  exact (alongside_files fun tree cwd => tree.accessRead cwd path).bind fun _ =>
    alongside_ite Iff.rfl (fun _ => alongside_answer _ _) fun _ => alongside_answer _ _

theorem alongside_checkListArgument (server : ServerT) (path : CStr) :
    Alongside X id (checkListArgument server path) (checkListArgument server path) := by
  refine (alongside_checkExists _ _).bind fun _ => alongside_ite Iff.rfl
    (fun _ => alongside_pure _) fun _ => ?_
  refine alongside_conn_bind fun c c' hc =>
    (alongside_deref (workingDirectory_of_unnumbered hc)).bind fun _ => ?_
  refine (alongside_chdir _).bind fun _ => (alongside_chdir _).bind fun _ =>
    alongside_ite Iff.rfl (fun _ => alongside_answer _ _) fun _ => ?_
  refine alongside_getcwd.bind fun _ => (alongside_deref rfl).bind fun _ =>
    (alongside_chdir _).bind fun _ =>
      alongside_ite Iff.rfl (fun _ => alongside_answer _ _) fun _ => alongside_pure _

theorem alongside_type (command : Command) :
    Alongside X id (typeCommand command) (typeCommand command) := by
  refine alongside_loggedIn fun _ _ _ => alongside_guard _ ((alongside_deref rfl).bind fun _ => ?_)
  refine alongside_ite Iff.rfl (fun _ => ?_) fun _ => alongside_ite Iff.rfl (fun _ => ?_)
    fun _ => alongside_refuse _
  · exact Alongside.bind
      (alongside_modifyConn (by intro c; rfl) (by intro c; rfl) (by intro c; rfl))
      fun _ => alongside_answer _ _
  · exact Alongside.bind
      (alongside_modifyConn (by intro c; rfl) (by intro c; rfl) (by intro c; rfl))
      fun _ => alongside_answer _ _

/-- A handler that needs a data socket. -/
theorem alongside_needsData {c c' : Connection} (hc : c'.unnumbered = c.unnumbered)
    {p q : M CommandStatus} (h : Alongside X id p q) :
    Alongside X id (if c.dataSocket = none then refuse .usePasvOrPort else p)
      (if c'.dataSocket = none then refuse .usePasvOrPort else q) :=
  alongside_ite (dataSocket_eq_none_iff hc) (fun _ => alongside_refuse _) fun _ => h

/-- Every handler. -/
theorem alongside_handler (hX : X .disabled) (h : SameAnswers ans ans') (server : ServerT)
    {name : CStr} {handler : Handler} (hmem : (name, handler) ∈ commandHandlers)
    (command : Command) :
    Alongside X id (handler server ans command) (handler server ans' command) := by
  simp only [commandHandlers, List.mem_cons, Prod.mk.injEq, List.not_mem_nil, or_false] at hmem
  rcases hmem with h₁ | h₁ | h₁ | h₁ | h₁ | h₁ | h₁ | h₁ | h₁ | h₁ | h₁ | h₁ | h₁ | h₁ | h₁ <;>
    obtain ⟨rfl, rfl⟩ := h₁
  · exact alongside_user command
  · exact alongside_pass command
  · exact alongside_loggedIn fun _ _ _ => alongside_guard _ <|
      (alongside_deref rfl).bind fun _ => alongside_changeDir server _
  · exact alongside_loggedIn fun _ _ _ => alongside_changeDir server _
  · exact alongside_pure _
  · exact alongside_loggedIn fun _ _ _ => alongside_guard _ <|
      (alongside_deref rfl).bind fun _ => alongside_deleteFile _
  · exact alongside_loggedIn fun _ _ hc =>
      (alongside_deref (workingDirectory_of_unnumbered hc)).bind fun _ => alongside_answer _ _
  · exact alongside_loggedIn fun _ _ _ => alongside_passive hX h
  · exact alongside_loggedIn fun _ _ _ => alongside_guard _ <|
      (alongside_deref rfl).bind fun _ => alongside_active hX h _
  · exact alongside_loggedIn fun _ _ _ => (alongside_reply rfl).bind fun _ =>
      (alongside_reply rfl).bind fun _ => alongside_answer _ _
  · exact alongside_loggedIn fun _ _ _ => alongside_answer _ _
  · exact alongside_loggedIn fun _ _ hc => alongside_needsData hc <| alongside_guard _ <|
      (alongside_deref rfl).bind fun _ => (alongside_checkFileExists server _).bind fun _ =>
        alongside_ite Iff.rfl (fun _ => alongside_pure _) fun _ => alongside_transfer hX h _ _
  · exact alongside_loggedIn fun _ _ hc => alongside_needsData hc <| alongside_guard _ <|
      alongside_transfer hX h _ _
  · refine alongside_loggedIn fun _ _ hc => alongside_needsData hc ?_
    cases command.argv.head? with
    | none => exact alongside_transfer hX h _ _
    | some path =>
      exact (alongside_checkListArgument server _).bind fun _ =>
        alongside_ite Iff.rfl (fun _ => alongside_pure _) fun _ => alongside_transfer hX h _ _
  · exact alongside_type command

/-- The handling of a line does not depend on the numbers. -/
theorem executeCommand_alongside (hX : X .disabled) (h : SameAnswers ans ans') (server : ServerT)
    (parsed : Option Command) :
    Alongside X id (executeCommand server ans parsed) (executeCommand server ans' parsed) := by
  have hunknown : Alongside X id (executeCommand server ans none)
      (executeCommand server ans' none) := by
    refine Alongside.bind ?_ fun _ => alongside_pure _
    refine alongside_conn_bind fun c c' hc => ?_
    rw [loggedIn_of_unnumbered hc]
    exact alongside_reply rfl
  cases parsed with
  | none => exact hunknown
  | some command =>
    cases hh : getCommandHandler command with
    | none =>
      rw [executeCommand_of_none hh, executeCommand_of_none hh]
      exact hunknown
    | some handler =>
      have hmem := getCommandHandler_mem hh
      rw [executeCommand_of_mem hmem, executeCommand_of_mem hmem]
      exact alongside_handler hX h server hmem command

/-! ## Children -/

theorem alongside_dataDprintf (cans : ChildAnswers) (item : DataItem) :
    Alongside X id (dataDprintf cans item) (dataDprintf cans item) := by
  intro s t hst
  right
  right
  rw [dataDprintf, conn_bind_apply, conn_bind_apply]
  rcases hst.dataSocket_cases with ⟨hd, hd'⟩ | ⟨d, d', hd, hd', hnum, -⟩
  · rw [hd, hd']
    exact ⟨rfl, hst⟩
  rw [hd, hd', deref_some, deref_some, pure_bind_apply, pure_bind_apply]
  have hfds : d'.clientSockfd.map (fun _ => 0) = d.clientSockfd.map fun _ => 0 := by
    have := congrArg DataSocket.clientSockfd hnum
    exact this
  cases hl : d.clientSockfd with
  | none =>
    cases hl' : d'.clientSockfd with
    | none => exact ⟨rfl, hst⟩
    | some l' => rw [hl, hl'] at hfds; cases hfds
  | some l =>
    cases hl' : d'.clientSockfd with
    | none => rw [hl, hl'] at hfds; cases hfds
    | some l' =>
      dsimp only
      rw [hst.data]
      split
      next => exact ⟨rfl, hst⟩
      next => exact ⟨rfl, { hst with data := rfl }⟩

theorem alongside_sendChunks (cans : ChildAnswers) (l : List (List Byte)) :
    Alongside X id (sendChunks cans l) (sendChunks cans l) := by
  induction l with
  | nil => exact alongside_pure _
  | cons chunk rest ih => exact (alongside_dataDprintf cans _).bind fun _ => ih

/-- What a child runs does not depend on the numbers. -/
theorem run_alongside (server : ServerT) (cans : ChildAnswers) (command : Command)
    (body : TransferBody) :
    Alongside X id (body.run server cans command) (body.run server cans command) := by
  cases body with
  | executeLsCommand =>
    refine Alongside.bind ?_ fun _ => alongside_ite Iff.rfl (fun _ => alongside_pure _) fun _ =>
      Alongside.bind ?_ fun _ => alongside_ite Iff.rfl (fun _ => alongside_pure _) fun _ =>
        (alongside_chdir _).bind fun _ => alongside_answer _ _
    · exact alongside_conn_bind fun c c' hc =>
        (alongside_deref (workingDirectory_of_unnumbered hc)).bind fun _ =>
          (alongside_chdir _).bind fun _ => (alongside_chdir _).bind fun _ =>
            alongside_guard _ (alongside_pure _)
    · refine alongside_guard _ ((alongside_reply rfl).bind fun _ => ?_)
      have hlist : Alongside X id (do
            let item ← gets fun s => DataItem.listing s.os.cwd s.os.tree
            dataDprintf cans item
            return CommandStatus.success)
          (do
            let item ← gets fun s => DataItem.listing s.os.cwd s.os.tree
            dataDprintf cans item
            return CommandStatus.success) :=
        (alongside_files fun tree cwd => DataItem.listing cwd tree).bind fun _ =>
          (alongside_dataDprintf cans _).bind fun _ => alongside_pure _
      exact hlist
  | executeRetrCommand =>
    refine (alongside_reply rfl).bind fun _ => alongside_conn_bind fun c c' hc =>
      (alongside_deref (workingDirectory_of_unnumbered hc)).bind fun _ =>
        (alongside_chdir _).bind fun _ => (alongside_deref rfl).bind fun path =>
          (alongside_files fun tree cwd => tree.openRead cwd path).bind fun fp =>
            (alongside_chdir _).bind fun _ => ?_
    match fp with
    | none => exact alongside_refuse _
    | some .directory => exact alongside_answer _ _
    | some (.regular _ content) =>
      exact (alongside_sendChunks cans _).bind fun _ => alongside_answer _ _
  | executeStorCommand =>
    refine (alongside_deref rfl).bind fun path => (alongside_fopenWrite path).bind fun file =>
      (alongside_reply rfl).bind fun _ => ?_
    match file with
    | none => exact alongside_refuse _
    | some target =>
      exact (alongside_fwriteAll target _).bind fun _ => (alongside_reply rfl).bind fun _ =>
        alongside_ite Iff.rfl (fun _ => (alongside_fwriteAll target _).bind fun _ =>
          alongside_pure _) fun _ => alongside_pure _

end

end MyFtp.Server
