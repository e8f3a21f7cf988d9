import MyFtp.Server.FinalReply

/-!
# What 226 says of an upload

`transfer_file_data` returns what its last `getline` returned: -1, at the end of the stream
and after an error alike. `execute_stor_command` does not look at it, nor at what `fwrite`
returned, and prints 226 before it closes the file.

> `storedContent_eq_iff`: the file holds what the client sent, and the connection ended
> as it should, exactly when no call fell short.

> `stor_reports_iff`: the child's reply tells that apart if and only if there is nothing to
> tell: no call fell short, or the file could not be opened.
-/

namespace MyFtp.Server

open MyFtp.Posix
open Prog

/-- The other end of a data connection: what the client sends on it, and whether it ends
there, or a `read` on it fails before. -/
structure Sender (cans : ChildAnswers) where
  sent : List Byte
  eof : Bool
  arrives : cans.received <+: sent
  whole : eof = true → cans.received = sent

/-- No call of the child falls short. -/
structure Unfailing (cans : ChildAnswers) (sender : Sender cans) : Prop where
  eof : sender.eof = true
  opened : cans.fdopen = true ∨ sender.sent = []
  written : ∀ i line, (chunks cans.received.length cans.received)[i]? = some line →
    line.length ≤ cans.fwrite i line.length
  flushed : cans.fclose = true ∨ cans.received.length ≤ cans.flushed

/-! ## What ends up in the file -/

section

variable {cans : ChildAnswers}

theorem length_storeLines_le (cans : ChildAnswers) (lines : List (List Byte)) :
    ∀ i, (storeLines cans i lines).length ≤ lines.flatten.length := by
  induction lines with
  | nil => exact fun _ => Nat.le_refl 0
  | cons line rest ih =>
    intro i
    rw [storeLines, List.flatten_cons, List.length_append, List.length_append]
    exact Nat.add_le_add (List.length_take_le' ..) (ih (i + 1))

/-- The loop writes all it reads exactly when each `fwrite` writes the whole line. -/
theorem storeLines_eq_iff (cans : ChildAnswers) (lines : List (List Byte)) :
    ∀ i, storeLines cans i lines = lines.flatten ↔
      ∀ j line, lines[j]? = some line → line.length ≤ cans.fwrite (i + j) line.length := by
  induction lines with
  | nil => exact fun i => iff_of_true rfl fun j line h => by cases h
  | cons line rest ih =>
    intro i
    rw [storeLines, List.flatten_cons]
    have hrest : (∀ j line', rest[j]? = some line' →
        line'.length ≤ cans.fwrite (i + 1 + j) line'.length) ↔
          ∀ j line', (line :: rest)[j + 1]? = some line' →
            line'.length ≤ cans.fwrite (i + (j + 1)) line'.length := by
      refine forall_congr' fun j => ?_
      rw [List.getElem?_cons_succ, Nat.add_right_comm i 1 j, Nat.add_assoc i j 1]
    constructor
    · intro h
      -- neither part is longer than what was read, so both are as long
      have hlength := congrArg List.length h
      rw [List.length_append, List.length_append] at hlength
      have hline := List.length_take_le (cans.fwrite i line.length) line
      have htake := List.length_take_le' (cans.fwrite i line.length) line
      have hle := length_storeLines_le cans rest (i + 1)
      obtain ⟨-, hsame⟩ := List.append_inj h (by omega)
      intro j line' hj
      cases j with
      | zero =>
        cases hj
        rw [Nat.add_zero]
        omega
      | succ j => exact hrest.mp ((ih (i + 1)).mp hsame) j line' hj
    · intro h
      have hline : line.length ≤ cans.fwrite i line.length := h 0 line rfl
      rw [List.take_of_length_le hline,
        (ih (i + 1)).mpr (hrest.mpr fun j line' hj => h (j + 1) line' hj)]

/-- Reading with room for everything loses nothing, even when there is nothing. -/
theorem flatten_chunks_length (l : List Byte) : (chunks l.length l).flatten = l := by
  by_cases hnil : l = []
  · rw [hnil]
    rfl
  · exact flatten_chunks (List.length_pos_of_ne_nil hnil) l

/-- What the loop writes of a connection that is read. -/
theorem transferFileData_eq_iff (hopen : cans.fdopen = true) :
    (transferFileData cans).length ≤ cans.received.length ∧
      (transferFileData cans = cans.received ↔
        ∀ i line, (chunks cans.received.length cans.received)[i]? = some line →
          line.length ≤ cans.fwrite i line.length) := by
  have hle := length_storeLines_le cans (chunks cans.received.length cans.received) 0
  have hiff := storeLines_eq_iff cans (chunks cans.received.length cans.received) 0
  simp only [flatten_chunks_length, Nat.zero_add] at hle hiff
  unfold transferFileData
  rw [if_neg (by simp [hopen])]
  exact ⟨hle, hiff⟩

/-- What is left of what the loop wrote once the file is closed. -/
theorem storedContent_eq_of_length {content : List Byte}
    (hle : (transferFileData cans).length ≤ content.length) :
    storedContent cans false = content ↔
      transferFileData cans = content ∧ (cans.fclose = true ∨ content.length ≤ cans.flushed) := by
  unfold storedContent
  rw [if_neg (by simp)]
  cases cans.fclose with
  | true => simp
  | false =>
    rw [if_neg (by simp)]
    constructor
    · intro h
      -- nothing can be missing: what was written is no longer than the whole
      have hlength := congrArg List.length h
      rw [List.length_take] at hlength
      have hall : (transferFileData cans).take cans.flushed = transferFileData cans :=
        List.take_of_length_le (by omega)
      exact ⟨hall.symm.trans h, .inr (by omega)⟩
    · rintro ⟨hsame, hflushed⟩
      have hflushed : content.length ≤ cans.flushed := hflushed.resolve_left (by simp)
      rw [hsame, List.take_of_length_le hflushed]

/-- **What makes an upload complete.** The file holds what the client sent and the data
connection ended as it should, exactly when no call fell short. -/
theorem storedContent_eq_iff (sender : Sender cans) :
    storedContent cans false = sender.sent ∧ sender.eof = true ↔ Unfailing cans sender := by
  by_cases hopen : cans.fdopen = true
  · obtain ⟨hle, hwritten⟩ := transferFileData_eq_iff hopen
    constructor
    · rintro ⟨hstored, heof⟩
      rw [← sender.whole heof, storedContent_eq_of_length hle, hwritten] at hstored
      exact ⟨heof, .inl hopen, hstored.1, hstored.2⟩
    · intro h
      rw [← sender.whole h.eof, storedContent_eq_of_length hle, hwritten]
      exact ⟨⟨h.written, h.flushed⟩, h.eof⟩
  · have hnothing : storedContent cans false = [] := by
      unfold storedContent transferFileData
      simp [hopen]
    rw [hnothing]
    constructor
    · rintro ⟨hsent, heof⟩
      have hreceived : cans.received = [] := (sender.whole heof).trans hsent.symm
      refine ⟨heof, .inr hsent.symm, fun i line h => ?_, .inr ?_⟩
      · rw [hreceived] at h
        cases h
      · rw [hreceived]
        exact Nat.zero_le _
    · exact fun h => ⟨(h.opened.resolve_left hopen).symm, h.eof⟩

end

/-! ## The child -/

/-- `execute_stor_command`, when its client is there to the end. -/
theorem executeStorCommand_apply (cans : ChildAnswers) {command : Command} {s : Ctx} {id : ConnId}
    {path : CStr} (hctl : s.os.desc s.conn.clientSockfd = some (.control id))
    (hup : s.os.hungup id = false) (hpath : command.argv.head? = some path) :
    ∃ status s', executeStorCommand cans command s = (.ok status, s') ∧
      s'.out = s.out ++ [(id, .openingBinary), (id,
        if (s.os.tree.openWrite s.os.cwd path).isSome then .transferComplete else
          .localError)] := by
  have hreply : ∀ (t : FileTree) (r : Reply), Os.delivers { s.os with tree := t }
      s.conn.clientSockfd r = [(id, r)] := fun _ r => delivers_of_control hctl hup r
  have halive : ∀ t : FileTree, Os.kills { s.os with tree := t } s.conn.clientSockfd = false :=
    fun _ => kills_of_control hctl hup
  have hwrite : ∀ (target : FileTree.Target) (l : List Byte) (s₁ : Ctx), fwriteAll target l s₁ =
      (.ok (), { s₁ with os := { s₁.os with tree := s₁.os.tree.store target l } }) :=
    fun _ _ _ => rfl
  rw [executeStorCommand, hpath, deref_some, pure_bind_apply]
  cases hopen : s.os.tree.openWrite s.os.cwd path with
  | none =>
    have hfile : fopenWrite path s = (.ok none, s) := by rw [fopenWrite, hopen]
    rw [bind_of_ok hfile, reply_bind_apply, dprintf_bind_apply, halive s.os.tree, hreply s.os.tree]
    refine ⟨_, _, refuse_of_alive (by exact halive s.os.tree) _, ?_⟩
    show s.out ++ [(id, .openingBinary)] ++ Os.delivers s.os s.conn.clientSockfd .localError = _
    rw [hreply s.os.tree, List.append_assoc]
    rfl
  | some target =>
    have hfile : fopenWrite path s =
        (.ok (some target), { s with os := { s.os with tree := s.os.tree.store target [] } }) := by
      rw [fopenWrite, hopen]
    rw [bind_of_ok hfile, reply_bind_apply, dprintf_bind_apply, halive, hreply]
    dsimp only
    rw [if_neg (by simp), bind_of_ok (hwrite _ _ _), reply_bind_apply, dprintf_bind_apply]
    dsimp only
    rw [halive, hreply, if_neg (by simp)]
    cases cans.fclose with
    | true =>
      rw [if_pos rfl, bind_of_ok (hwrite _ _ _)]
      exact ⟨_, _, rfl, List.append_assoc _ _ _⟩
    | false => exact ⟨_, _, rfl, List.append_assoc _ _ _⟩

/-! ## What it reports -/

/-- The file the child opened holds what the client sent, and the data connection ended
by end of file. -/
def Uploaded {cans : ChildAnswers} (S S' : Sessions) (child : Child)
    (sender : Sender cans) : Prop :=
  (∃ path target perm, child.command.argv.head? = some path ∧
    S.world.os.tree.openWrite child.cwd path = some target ∧
    S'.world.os.tree.lookup target.path = some (.file perm sender.sent)) ∧ sender.eof = true

/-- The child of a `STOR` sends 226 for a complete upload and no other; for any other it
sends a reply of class 4 or 5. -/
def ReportsUpload {cans : ChildAnswers} (S S' : Sessions) (id : ConnId) (child : Child)
    (sender : Sender cans) : Prop :=
  ∃ l : List Reply, S'.world.sent = S.world.sent ++ l.map (id, ·) ∧
    ((∃ r ∈ l, r.code = some 226) ↔ Uploaded S S' child sender) ∧
    (¬ Uploaded S S' child sender → ∃ r ∈ l, ∃ code, r.code = some code ∧ 400 ≤ code ∧ code < 600)

/-- The report, when the replies are known. -/
theorem reportsUpload_iff {cans : ChildAnswers} {S S' : Sessions} {id : ConnId} {child : Child}
    {sender : Sender cans} {r : Reply}
    (hsent : S'.world.sent = S.world.sent ++ [.openingBinary, r].map (id, ·))
    (hr : r = .transferComplete ∨ r = .localError) :
    ReportsUpload S S' id child sender ↔
      (r = .transferComplete ↔ Uploaded S S' child sender) := by
  constructor
  · rintro ⟨l, hl, hreport, -⟩
    have hsame := List.append_cancel_left (hsent.symm.trans hl)
    obtain rfl := List.map_injective_iff.mpr (Prod.mk_right_injective id) hsame
    rw [← hreport]
    rcases hr with rfl | rfl
    · decide
    · decide
  · intro h
    refine ⟨_, hsent, ?_, fun hnot => ?_⟩
    · rw [← h]
      rcases hr with rfl | rfl
      · decide
      · decide
    · obtain rfl : r = .localError := hr.resolve_left fun hr => hnot (h.mp hr)
      exact ⟨.localError, by simp, 451, by decide, by decide, by decide⟩

/-- **When 226 can be believed.** A child of a `STOR` whose client is there runs, whatever
arrives and whatever its calls come to. Its reply is right if and only if the file could not
be opened, or no call fell short. -/
theorem stor_reports_iff (u : Setup) (events : List SessionEvent) (S : Sessions) (id : ConnId)
    (k : Nat) (child : Child) (cans : ChildAnswers) (sender : Sender cans)
    (hrun : (sessions u).run events = .ok S) (hk : S.world.children[k]? = some (id, child))
    (hbody : child.body = .executeStorCommand) (hup : S.world.os.hungup id = false) :
    ∃ S', S.step u.server (.child k cans) = .ok S' ∧
      (ReportsUpload S S' id child sender ↔
        (child.command.argv.head?.bind (S.world.os.tree.openWrite child.cwd)) = none ∨
          Unfailing cans sender) := by
  have hready := ready_of_run hrun id child (List.mem_of_getElem? hk)
  obtain ⟨path, hpath⟩ := hready.file (by simp [hbody])
  -- the child's own view: its directory, its descriptors, the record it got
  let s : Ctx :=
    Ctx.start { S.world.os with cwd := child.cwd, desc := child.desc } child.connection
  have hctl : s.os.desc s.conn.clientSockfd = some (.control id) := hready.control
  obtain ⟨status, s', hstor, hout⟩ :=
    executeStorCommand_apply cans (s := s) hctl hup hpath
  have htree : (executeStorCommand cans child.command s).2.os.tree = _ :=
    executeStorCommand_tree hpath
  rw [hstor, kills_of_control hctl hup] at htree
  have hran : (child.body.run u.server cans child.command s).2 = s' := by
    rw [hbody]
    exact congrArg Prod.snd hstor
  have hstep : S.step u.server (.child k cans) = .ok { S with world := { S.world with
      os := { S.world.os with tree := s'.os.tree }
      children := S.world.children.eraseIdx k
      sent := S.world.sent ++ s'.out
      data := S.world.data ++ s'.data.map (id, ·) } } := by
    show (S.world.runChild u.server k cans).map _ = _
    rw [World.runChild_of_some hk hran]
    rfl
  refine ⟨_, hstep, ?_⟩
  have hopened : child.command.argv.head?.bind (S.world.os.tree.openWrite child.cwd) =
      S.world.os.tree.openWrite child.cwd path := by rw [hpath, Option.bind_some]
  have hcwd : s.os.tree.openWrite s.os.cwd path = S.world.os.tree.openWrite child.cwd path := rfl
  rw [hcwd] at hout htree
  rw [hopened]
  cases hopen : S.world.os.tree.openWrite child.cwd path with
  | none =>
    rw [hopen] at hout
    rw [reportsUpload_iff (congrArg (S.world.sent ++ ·) hout) (.inr rfl)]
    refine iff_of_true (iff_of_false (by simp) ?_) (.inl rfl)
    rintro ⟨⟨path', target, perm, hpath', hopen', -⟩, -⟩
    cases hpath.symm.trans hpath'
    cases hopen.symm.trans hopen'
  | some target =>
    rw [hopen] at hout htree
    have hlookup : s'.os.tree.lookup target.path =
        some (.file target.perm (storedContent cans false)) := by
      rw [htree]
      exact (FileTree.written_store hopen _).2
    rw [reportsUpload_iff (congrArg (S.world.sent ++ ·) hout) (.inl rfl), iff_true_left rfl,
      or_iff_right (by simp), ← storedContent_eq_iff]
    refine and_congr_left fun _ => ?_
    constructor
    · rintro ⟨path', target', perm, hpath', hopen', hlookup'⟩
      cases hpath.symm.trans hpath'
      cases hopen.symm.trans hopen'
      exact (Entry.file.inj (Option.some.inj (hlookup.symm.trans hlookup'))).2
    · intro hsame
      exact ⟨path, target, target.perm, hpath, hopen, by rw [← hsame]; exact hlookup⟩

/-- A client that sent `STOR a` over a data connection it brings up. -/
def storing : List SessionEvent :=
  oneClient ["USER anonymous", "PASS", "PORT 127,0,0,1,4,7", "STOR a"]

/-- What the client sends in the runs below, whether `fclose` can write it or not. -/
def wholeSender (fclose : Bool) : Sender { ChildAnswers.fine (lit "data\n") with fclose } :=
  { sent := lit "data\n", eof := true, arrives := List.prefix_refl _, whole := fun _ => rfl }

/-- A small upload, in which nothing fails. -/
theorem stor_reports_iff_small : ∃ S S' child,
    (sessions smallSetup).run storing = .ok S ∧ S.world.children[0]? = some (0, child) ∧
      S.step smallSetup.server (.child 0 (.fine (lit "data\n"))) = .ok S' ∧
      ReportsUpload S S' 0 child (wholeSender true) := by
  obtain ⟨S, hrun, hchild, hup⟩ := Machine.exists_of_run (m := sessions smallSetup) (l := storing)
    (P := fun S => S.world.children[0]?.map (fun child => (child.1, child.2.body)) =
      some (0, .executeStorCommand) ∧ S.world.os.hungup 0 = false) (by decide +kernel)
  obtain ⟨⟨id, child⟩, hk, hsame⟩ := Option.map_eq_some_iff.mp hchild
  obtain ⟨rfl, hbody⟩ := Prod.mk.inj hsame
  obtain ⟨S', hstep, hiff⟩ := stor_reports_iff smallSetup storing S 0 0 child
    (.fine (lit "data\n")) (wholeSender true) hrun hk hbody hup
  refine ⟨S, S', child, hrun, hk, hstep, hiff.mpr (.inr ?_)⟩
  exact ⟨rfl, .inl rfl, fun _ _ _ => Nat.le_refl _, .inl rfl⟩

/-- The name `a`. -/
def nameA : Name := ⟨lit "a", by decide⟩

/-- The disk is full: the upload is still in the buffer of the stream when it is closed, `fclose`
fails to write it, and the reply is 226. -/
theorem stor_disk_full :
    let full := .child 0 { ChildAnswers.fine (lit "data\n") with fclose := false }
    ∃ S S' child, (sessions smallSetup).Took (storing ++ [full]) S full S' ∧
      S.world.children[0]? = some (0, child) ∧
      S'.world.sent = S.world.sent ++ [(0, .openingBinary), (0, .transferComplete)] ∧
      S'.world.os.tree.lookup [srv, ftp, nameA] = some (.file .rw []) ∧
      ¬ ReportsUpload S S' 0 child (wholeSender false) := by
  intro full
  obtain ⟨S, S', htook, hopen, hsent, hlookup⟩ :=
    Machine.exists_of_step (m := sessions smallSetup) (l := storing) (i := full)
      (P := fun S S' => (S.world.children[0]?.bind fun child =>
          (child.2.command.argv.head?.bind (S.world.os.tree.openWrite child.2.cwd)).map
            fun target => (child.1, target.path)) = some (0, [srv, ftp, nameA]) ∧
        S'.world.sent = S.world.sent ++ [(0, .openingBinary), (0, .transferComplete)] ∧
        S'.world.os.tree.lookup [srv, ftp, nameA] = some (.file .rw [])) (by decide +kernel)
  obtain ⟨⟨id, child⟩, hk, hopen⟩ := Option.bind_eq_some_iff.mp hopen
  obtain ⟨target, hopen, hplace⟩ := Option.map_eq_some_iff.mp hopen
  obtain ⟨path, hpath, hopen⟩ := Option.bind_eq_some_iff.mp hopen
  obtain ⟨rfl, hpath₀⟩ := Prod.mk.inj hplace
  refine ⟨S, S', child, htook, hk, hsent, hlookup, fun hreports => ?_⟩
  -- the file that was opened is empty
  obtain ⟨⟨path', target', perm, hpath', hopen', hlookup'⟩, -⟩ :=
    ((reportsUpload_iff hsent (.inl rfl)).mp hreports).mp rfl
  cases hpath.symm.trans hpath'
  cases hopen.symm.trans hopen'
  rw [hpath₀, hlookup] at hlookup'
  cases hlookup'

end MyFtp.Server
