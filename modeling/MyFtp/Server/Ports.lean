import MyFtp.Posix.Scanf
import MyFtp.Server.FinalReply

/-!
# What `PORT` accepts

`parse_host_port_values` takes the first six tokens `strtok` yields and gives each of
them to `atoi`. Tokens are not empty, so commas side by side count as one; what comes
behind the sixth token is not looked at; and `atoi` turns what is no number into one.
`merge_port` tests the last two of the six numbers, but nobody tests its result.

> `parseHostPortValues_eq`: there is a result exactly when the argument has six
> tokens.

> `port_exact_iff`: the answer to an argument is the one the documentation gives if and
> only if the argument is `h1,h2,h3,h4,p1,p2` with numbers up to 255, or has too few
> tokens to be taken for it.
-/

namespace MyFtp.Server

open MyFtp.Posix
open Prog

/-! ## The grammar -/

/-- The pieces between the commas of an argument, the empty ones too. -/
def fields (arg : CStr) : List CStr := arg.splitOnP comma

/-- A decimal number up to 255. -/
def IsOctet (field : CStr) : Prop :=
  field ≠ [] ∧ field.all isdigit = true ∧ digits field ≤ 255

/-- `h1,h2,h3,h4,p1,p2`. -/
def IsHostPort (arg : CStr) : Prop :=
  (fields arg).length = 6 ∧ ∀ field ∈ fields arg, IsOctet field

instance (field : CStr) : Decidable (IsOctet field) := inferInstanceAs (Decidable (_ ∧ _ ∧ _))

instance (arg : CStr) : Decidable (IsHostPort arg) := inferInstanceAs (Decidable (_ ∧ _))

example : (["127,0,0,1,4,007", "127,0,0,1,4", "127,0,0,1,4,1,9", "127,0,,0,1,4,1", "127,0,0,1,4,+1",
    "127,0,0,1,4,256"].map fun s => decide (IsHostPort (lit s))) =
      [true, false, false, false, false, false] := by
  decide

/-! ## What the decoder yields -/

/-- The decoder on the tokens of the argument. -/
theorem hostPortFields_eq : ∀ (n : Nat) (arg : CStr), hostPortFields n arg =
    if n ≤ (runs comma arg).length then some (((runs comma arg).take n).map atoi) else none
  | 0, arg => by
    rw [if_pos (Nat.zero_le _)]
    rfl
  | n + 1, arg => by
    rw [hostPortFields]
    cases h : strtok comma arg with
    | none =>
      rw [runs_of_strtok_none h]
      rfl
    | some token =>
      obtain ⟨token, rest⟩ := token
      have ih := hostPortFields_eq n rest
      dsimp only
      rw [ih, runs_of_strtok h, List.length_cons]
      by_cases hn : n ≤ (runs comma rest).length
      · rw [if_pos hn, if_pos (Nat.succ_le_succ hn)]
        rfl
      · rw [if_neg hn, if_neg fun h => hn (Nat.le_of_succ_le_succ h)]
        rfl

/-- Six tokens or more are taken, whatever they are. -/
theorem parseHostPortValues_eq (arg : CStr) : parseHostPortValues arg =
    if 6 ≤ (runs comma arg).length then some (((runs comma arg).take 6).map atoi) else none :=
  hostPortFields_eq 6 arg

/-- The decoder turns six octets into their values. -/
theorem parseHostPortValues_of_isHostPort {arg : CStr} (h : IsHostPort arg) :
    parseHostPortValues arg = some ((fields arg).map fun field => (digits field : Int)) := by
  have hruns : runs comma arg = fields arg := by
    refine List.filter_eq_self.mpr fun field hfield => ?_
    simpa using (h.2 field hfield).1
  have hatoi : (fields arg).map atoi = (fields arg).map fun field => (digits field : Int) := by
    refine List.map_congr_left fun field hfield => ?_
    obtain ⟨hne, hdigit, hle⟩ := h.2 field hfield
    exact atoi_of_digit hne (List.all_eq_true.mp hdigit _ (List.head_mem hne)) (by omega)
  rw [parseHostPortValues_eq, hruns, h.1, if_pos (Nat.le_refl 6),
    List.take_of_length_le (by rw [h.1]),
    hatoi]

/-! ## The handler -/

section

variable {id : ConnId} {s : Ctx} {ans : Answers} {fd : Fd}

/-- The state in which the handler has set up a data socket and said so. -/
def Ctx.withActive (s : Ctx) (id : ConnId) (hostPort : List Int) (fd : Fd) : Ctx :=
  { s.withDesc fd (some .socket) with
    conn := { s.conn with dataSocket := some (activeSocket hostPort fd) }
    out := s.out ++ [(id, .portSuccessful)] }

/-- Storing a data socket and answering a client that is there. -/
theorem setDataSocket_answer_apply {created : Option DataSocket} {r : Reply}
    {status : CommandStatus} (hctl : s.os.desc s.conn.clientSockfd = some (.control id))
    (hup : s.os.hungup id = false) :
    (do setDataSocket created; reply r; return status : M CommandStatus) s =
      (.ok status, { s with
        conn := { s.conn with dataSocket := created }, out := s.out ++ [(id, r)] }) := by
  unfold setDataSocket
  rw [modifyConn_bind_apply, reply_bind_apply, dprintf_bind_apply]
  dsimp only
  rw [kills_of_control hctl hup, delivers_of_control hctl hup]
  rfl

/-- `create_active_data_socket`, when the client is there and a socket is to be had. -/
theorem createActiveDataSocket_apply (hctl : s.os.desc s.conn.clientSockfd = some (.control id))
    (hup : s.os.hungup id = false) (hsocket : ans.socket = some fd) (hfree : s.os.desc fd = none)
    (arg : CStr) : createActiveDataSocket ans arg s =
      match parseHostPortValues arg with
      | none => (.ok .failure, { s with out := s.out ++ [(id, .illegalPort)] })
      | some hostPort => (.ok .success, s.withActive id hostPort fd) := by
  unfold createActiveDataSocket
  cases parseHostPortValues arg with
  | none =>
    show refuse .illegalPort s = _
    rw [refuse_of_alive (kills_of_control hctl hup), delivers_of_control hctl hup]
  | some hostPort =>
    have hsetup := setupActiveDataSocket_apply ans hostPort s
    rw [hsocket] at hsetup
    dsimp only at hsetup
    rw [if_pos hfree] at hsetup
    -- the new descriptor is not the one of the control connection
    have hne : s.conn.clientSockfd ≠ fd := by
      intro h
      rw [h, hfree] at hctl
      cases hctl
    have hctl' : (s.withDesc fd (some .socket)).os.desc s.conn.clientSockfd =
        some (.control id) := (Function.update_of_ne hne _ _).trans hctl
    dsimp only
    rw [bind_of_ok hsetup]
    exact setDataSocket_answer_apply hctl' hup

/-- `PORT` with one argument. -/
theorem portCommand_apply {command : Command} {arg : CStr} (hlog : s.conn.loggedIn = true)
    (harg : command.argv = [arg]) : portCommand ans command s =
      createActiveDataSocket ans arg s := by
  have hargc : command.argc = 1 := by rw [Command.argc, harg, List.length_singleton]
  unfold portCommand
  rw [conn_bind_apply, if_neg (by simp [hlog]), if_neg (not_not.mpr hargc), harg, List.head?_cons,
    deref_some, pure_bind_apply]

/-- The line of a client that is logged in and there, when a socket is to be had. -/
theorem port_step {u : Setup} {events : List SessionEvent} {S : Sessions} {c : Connection}
    {line : CStr} {command : Command} {arg : CStr} (hrun : (sessions u).run events = .ok S)
    (hc : S.conns id = some c) (hlog : c.loggedIn = true) (hup : S.world.os.hungup id = false)
    (hparse : parseBuffer line = .ok (some command)) (hword : command.word = lit "PORT")
    (harg : command.argv = [arg]) (hsocket : ans.socket = some fd)
    (hfree : S.world.os.desc fd = none) :
    ∃ S', S.step u.server (.line id line ans) = .ok S' ∧
      match parseHostPortValues arg with
      | none => S'.conns = S.conns ∧ S'.world.sent = S.world.sent ++ [(id, .illegalPort)]
      | some hostPort =>
        S'.conns id = some { c with dataSocket := some (activeSocket hostPort fd) } ∧
          S'.world.sent = S.world.sent ++ [(id, .portSuccessful)] := by
  have hctl : (Ctx.start S.world.os c).os.desc c.clientSockfd = some (.control id) :=
    (speaks_of_run hrun hc).1.owns.control
  have hquit : ∀ command', some command = some command' → command'.word ≠ lit "QUIT" := by
    rintro command' ⟨rfl⟩
    rw [hword]
    decide
  have hstep : S.step u.server (.line id line ans) = _ :=
    handleLine_of_executeCommand hc hparse hquit
  rw [executeCommand_of_mem (by rw [hword]; exact List.mem_of_getElem? (i := 8) rfl)] at hstep
  have hport : portCommand ans command (Ctx.start S.world.os c) = _ :=
    (portCommand_apply hlog harg).trans (createActiveDataSocket_apply hctl hup hsocket hfree arg)
  rw [hport] at hstep
  cases hvalues : parseHostPortValues arg with
  | none =>
    rw [hvalues] at hstep
    refine ⟨_, hstep, ?_, rfl⟩
    show Function.update S.conns id (some c) = S.conns
    rw [← hc, Function.update_eq_self]
  | some hostPort =>
    rw [hvalues] at hstep
    exact ⟨_, hstep, handled_stays .., rfl⟩

/-- The handler says something else than 200, or the data socket is the one for the first
six tokens. -/
theorem port_says (server : ServerT) {command : Command} {arg : CStr} {status : CommandStatus}
    {s' : Ctx} (hs : Speaks id s) (hword : command.word = lit "PORT")
    (harg : command.argv = [arg]) (h : portCommand ans command s = (.ok status, s')) :
    (∃ r, r ≠ .portSuccessful ∧ s'.out = s.out ++ [(id, r)]) ∨
      ∃ hostPort fd, parseHostPortValues arg = some hostPort ∧
        s'.conn = { s.conn with dataSocket := some (activeSocket hostPort fd) } := by
  have hpasv : command.word ≠ lit "PASV" := by
    rw [hword]
    decide
  have hout : Outcome server ans id (some command) status s s' := port_outcome hs hword h
  cases hout with
  | answered l hstatus hfinal htold hnot => exact absurd hword (hnot command rfl).2.1
  | quit command' hparsed hquit =>
    cases hparsed
    rw [hword] at hquit
    exact absurd hquit (by decide)
  | declined command' r hparsed hword' hstatus hr htold =>
    refine .inl ⟨r, ?_, (htold.sent hs).1⟩
    rcases hr with rfl | rfl
    · decide
    · decide
  | setUp command' hparsed hword' hstatus hlog hoffer hup hset =>
    cases hparsed
    cases hset with
    | offered fd d x r hsocket hfree hoffer =>
      unfold offer at hoffer
      rw [if_neg hpasv, if_pos ⟨hword, by rw [Command.argc, harg, List.length_singleton]⟩, harg,
        List.head?_cons, Option.bind_some] at hoffer
      obtain ⟨hostPort, hvalues, hd⟩ := Option.map_eq_some_iff.mp hoffer
      cases hd
      exact .inr ⟨hostPort, fd, hvalues, rfl⟩
    | noSocket => exact .inl ⟨.localError, by decide, rfl⟩
    | deaf => exact .inl ⟨.localError, by decide, rfl⟩
  | transfer command' body cwd hparsed hbody =>
    cases hparsed
    rw [transferOf_of_word (by rw [hword]; decide)] at hbody
    cases hbody

/-- After an answer 200 the data socket is the one for the first six tokens. -/
theorem port_accepted {u : Setup} {events : List SessionEvent} {S S' : Sessions} {line : CStr}
    {command : Command} {arg : CStr} (hrun : (sessions u).run events = .ok S)
    (hparse : parseBuffer line = .ok (some command)) (hword : command.word = lit "PORT")
    (harg : command.argv = [arg]) (hstep : S.step u.server (.line id line ans) = .ok S')
    (hsent : S'.world.sent = S.world.sent ++ [(id, .portSuccessful)]) :
    ∃ (c : Connection) (hostPort : List Int) (fd : Fd), parseHostPortValues arg = some hostPort ∧
      S'.conns id = some { c with dataSocket := some (activeSocket hostPort fd) } := by
  obtain ⟨c, parsed, hc, hparse', ⟨status, s, hx, -, rfl⟩ | ⟨command', rfl, hquit, -⟩⟩ :=
    handleLine_eq_ok hstep
  · cases hparse.symm.trans hparse'
    rw [executeCommand_of_mem (by rw [hword]; exact List.mem_of_getElem? (i := 8) rfl)] at hx
    rcases port_says u.server (speaks_of_run hrun hc).1 hword harg hx with
      ⟨r, hr, hout⟩ | ⟨hostPort, fd, hvalues, hconn⟩
    · have hsent : S.world.sent ++ s.out = S.world.sent ++ [(id, .portSuccessful)] := hsent
      rw [hout] at hsent
      have hsame := List.append_cancel_left hsent
      rw [Ctx.start, List.nil_append] at hsame
      cases hsame
      exact absurd rfl hr
    · exact ⟨c, hostPort, fd, hvalues, by rw [handled_stays, hconn]; rfl⟩
  · cases hparse.symm.trans hparse'
    rw [hword] at hquit
    exact absurd hquit (by decide)

end

/-! ## When the answer is right -/

/-- What `PORT` is for, between the states before and after the line. -/
def ObeysPort (arg : CStr) (id : ConnId) (S S' : Sessions) : Prop :=
  (IsHostPort arg → S'.world.sent = S.world.sent ++ [(id, .portSuccessful)] ∧
    ∃ c d, S.conns id = some c ∧ S'.conns id = some { c with dataSocket := some d } ∧
      ∃ h₁ h₂ h₃ h₄ p₁ p₂ : Nat, (fields arg).map digits = [h₁, h₂, h₃, h₄, p₁, p₂] ∧
        d.address = some [(h₁ : Int), (h₂ : Int), (h₃ : Int), (h₄ : Int)] ∧
        d.port = p₁ * 256 + p₂) ∧
    (¬ IsHostPort arg →
      S'.world.sent = S.world.sent ++ [(id, .illegalPort)] ∧ S'.conns = S.conns)

theorem six_of_length {α : Type} : ∀ {l : List α}, l.length = 6 →
    ∃ a b c d e f, l = [a, b, c, d, e, f]
  | [_, _, _, _, _, _], _ => ⟨_, _, _, _, _, _, rfl⟩

/-- The data socket for six octets. -/
theorem activeSocket_octets (h₁ h₂ h₃ h₄ : Nat) {p₁ p₂ : Nat} (hp₁ : p₁ ≤ 255) (hp₂ : p₂ ≤ 255)
    (fd : Fd) :
    let d := activeSocket ([h₁, h₂, h₃, h₄, p₁, p₂].map fun n : Nat => (n : Int)) fd
    d.address = some [(h₁ : Int), (h₂ : Int), (h₃ : Int), (h₄ : Int)] ∧ d.port = p₁ * 256 + p₂ := by
  refine ⟨rfl, ?_⟩
  show mergePort p₁ p₂ = _
  unfold mergePort
  exact if_neg (by omega)

/-- **When `PORT` is right.** A client that is logged in sends `PORT` with one argument,
and a socket is to be had. The argument is taken when it is in the grammar, with the
numbers in it, and refused when it is not, if and only if it is in the grammar or has
fewer than six non-empty fields. -/
theorem port_exact_iff (u : Setup) (events : List SessionEvent) (S : Sessions) (id : ConnId)
    (c : Connection) (line : CStr) (command : Command) (arg : CStr) (ans : Answers) (fd : Fd)
    (hrun : (sessions u).run events = .ok S) (hc : S.conns id = some c) (hlog : c.loggedIn = true)
    (hup : S.world.os.hungup id = false) (hparse : parseBuffer line = .ok (some command))
    (hword : command.word = lit "PORT") (harg : command.argv = [arg])
    (hsocket : ans.socket = some fd) (hfree : S.world.os.desc fd = none) :
    ∃ S', S.step u.server (.line id line ans) = .ok S' ∧
      (ObeysPort arg id S S' ↔ IsHostPort arg ∨ (runs comma arg).length < 6) := by
  obtain ⟨S', hstep, hvalues⟩ :=
    port_step hrun hc hlog hup hparse hword harg hsocket hfree
  refine ⟨S', hstep, ?_⟩
  by_cases hgrammar : IsHostPort arg
  · refine iff_of_true ⟨fun _ => ?_, absurd hgrammar⟩ (.inl hgrammar)
    rw [parseHostPortValues_of_isHostPort hgrammar] at hvalues
    obtain ⟨hconn, hsent⟩ := hvalues
    refine ⟨hsent, c, _, hc, hconn, ?_⟩
    obtain ⟨hlength, hoctets⟩ := hgrammar
    obtain ⟨f₁, f₂, f₃, f₄, f₅, f₆, hfields⟩ := six_of_length hlength
    rw [hfields] at hoctets ⊢
    obtain ⟨haddress, hport⟩ := activeSocket_octets (digits f₁) (digits f₂) (digits f₃) (digits f₄)
      (hoctets f₅ (by simp)).2.2 (hoctets f₆ (by simp)).2.2 fd
    exact ⟨_, _, _, _, _, _, rfl, haddress, hport⟩
  · rw [parseHostPortValues_eq] at hvalues
    by_cases hfew : (runs comma arg).length < 6
    · refine iff_of_true ⟨fun h => absurd h hgrammar, fun _ => ?_⟩ (.inr hfew)
      rw [if_neg (Nat.not_le_of_lt hfew)] at hvalues
      exact ⟨hvalues.2, hvalues.1⟩
    · refine iff_of_false (fun hobeys => ?_) (not_or.mpr ⟨hgrammar, hfew⟩)
      -- it is taken, and the answer says so
      rw [if_pos (Nat.le_of_not_lt hfew)] at hvalues
      have hrefused := (hobeys.2 hgrammar).1
      rw [hvalues.2] at hrefused
      cases List.append_cancel_left hrefused

/-- The example of the documentation. -/
theorem port_exact_iff_documented : ∃ S S',
    (sessions smallSetup).run (oneClient ["USER anonymous", "PASS"]) = .ok S ∧
      S.step smallSetup.server (.line 0 (lit "PORT 127,0,0,1,156,124") (.fine 7)) = .ok S' ∧
      ObeysPort (lit "127,0,0,1,156,124") 0 S S' := by
  obtain ⟨S', hstep, hiff⟩ := port_exact_iff smallSetup (oneClient ["USER anonymous", "PASS"]) _ 0 _
    (lit "PORT 127,0,0,1,156,124") ⟨lit "PORT", [lit "127,0,0,1,156,124"]⟩ (lit "127,0,0,1,156,124")
    (.fine 7) 7 rfl rfl rfl rfl (by decide) rfl rfl rfl rfl
  exact ⟨_, S', rfl, hstep, hiff.mpr (.inl (by decide))⟩

/-- 256 is not a part of a port. `PORT` is answered with 200 all the same, and the port of
the data socket is -1. -/
theorem port_out_of_range :
    let line := lit "PORT 127,0,0,1,256,1"
    let events := oneClient ["USER anonymous", "PASS"] ++ [.line 0 line (.fine 7)]
    ∃ S S', (sessions smallSetup).Took events S (.line 0 line (.fine 7)) S' ∧
      (S'.world.sent = S.world.sent ++ [(0, .portSuccessful)] ∧
        ((S'.conns 0).bind (·.dataSocket)).map (·.port) = some (-1)) ∧
      ¬ ObeysPort (lit "127,0,0,1,256,1") 0 S S' := by
  intro line events
  obtain ⟨S, S', htook, htaken⟩ := Machine.exists_of_step (m := sessions smallSetup)
    (P := fun S S' => S'.world.sent = S.world.sent ++ [(0, .portSuccessful)] ∧
      ((S'.conns 0).bind (·.dataSocket)).map (·.port) = some (-1))
    (l := oneClient ["USER anonymous", "PASS"]) (i := .line 0 line (.fine 7)) (by decide +kernel)
  refine ⟨S, S', htook, htaken, fun hobeys => ?_⟩
  have hrefused := (hobeys.2 (by decide)).1
  rw [htaken.1] at hrefused
  cases List.append_cancel_left hrefused

end MyFtp.Server
