import MyFtp.Posix.Scanf
import MyFtp.Server.World

/-!
# The client's data socket

`bonus/src/data_socket.c`: how the client reads the answer to `PASV`, and the
socket address it makes of it. The server reads the same text, without the words
around it, as the argument of `PORT`.

> `hostPort_decodes`: for every address and every port, both of them get back
> what `PASV` printed.
-/

namespace MyFtp.Client

open MyFtp.Posix
open MyFtp.Server (Fd SockAddr Halt Reply Answers Ctx initSockin splitPort showInt inetNtoa
  replaceDotsWithCommas comma hostPortFields parseHostPortValues setupActiveDataSocket
  setupActiveDataSocket_apply activeSocket splitPort_port)

/-- `data_socket_t` of the client. -/
structure DataSocket where
  sockfd : Fd
  addr : SockAddr
  address : List Int
  port : Int
  deriving DecidableEq

/-- `init_data_socket_sockin`, word for word the `init_sockin` of the server's
`active_data_socket.c`. -/
def initDataSocketSockin (address : List Int) (port : Int) : SockAddr := initSockin address port

/-- `parse_pasv_response`: the six integers, where `sscanf` stored one. The others
are as `malloc` left them. -/
def parsePasvResponse (response : CStr) : List (Option Int) :=
  let stored := sscanf (lit "227 Entering Passive Mode (%d,%d,%d,%d,%d,%d)") response
  (List.range 6).map (stored[·]?)

/-- `merge_port` of the client's `utils.c`, word for word that of the server. It looks at
the second number only if the first one is a byte. -/
def mergePort (p₀ p₁ : Option Int) : Except Halt Int :=
  match p₀ with
  | none => .error .undefined
  | some p₀ =>
    if p₀ < 0 ∨ p₀ > 255 then .ok (-1)
    else
      match p₁ with
      | none => .error .undefined
      | some p₁ => .ok (Server.mergePort p₀ p₁)

/-- `setup_data_socket`, given the descriptor `socket` returns. The port is computed in
any case, and the address only if there is a socket. -/
def setupDataSocket (sockfd : Option Fd) (hostPort : List (Option Int)) :
    Except Halt (Option DataSocket) :=
  match mergePort (hostPort.getD 4 none) (hostPort.getD 5 none), sockfd with
  | .error e, _ => .error e
  | .ok _, none => .ok none
  | .ok port, some sockfd =>
    match (hostPort.take 4).mapM id with
    | none => .error .undefined
    | some address =>
      .ok (some { sockfd, addr := initDataSocketSockin address port, address, port })

/-- The text between the first parenthesis and the next closing one. -/
def betweenParentheses (text : CStr) : CStr :=
  ((text.dropWhile (· ≠ 40)).drop 1).takeWhile (· ≠ 41)

/-! ## The text -/

/-- The four numbers of a dotted address. -/
def octets (addr : UInt32) : List Nat :=
  [addr.toNat / 2 ^ 24, addr.toNat / 2 ^ 16 % 256, addr.toNat / 2 ^ 8 % 256, addr.toNat % 256]

/-- The six numbers for an address and a port. -/
def hostPortNumbers (addr : UInt32) (port : UInt16) : List Nat :=
  octets addr ++ [port.toNat / 256, port.toNat % 256]

theorem showInt_natCast (n : Nat) : showInt n = lit (toString n) := rfl

/-- There is no dot in a number to be replaced. -/
theorem replaceDots_number (n : Nat) :
    replaceDotsWithCommas (lit (toString n)) = lit (toString n) := by
  unfold replaceDotsWithCommas
  refine (List.map_congr_left fun c hc => ?_).trans (List.map_id _)
  have hdot : c ≠ 46 := by
    rintro rfl
    exact absurd (isdigit_toString 46 hc) (by decide)
  exact if_neg hdot

/-- The dotted address with commas is four numbers with commas between them. -/
theorem replaceDots_inetNtoa (addr : UInt32) :
    replaceDotsWithCommas (inetNtoa addr) = numbers 44 (octets addr) := by
  have happend : ∀ s t, replaceDotsWithCommas (s ++ t) =
      replaceDotsWithCommas s ++ replaceDotsWithCommas t := fun s t => List.map_append
  have hdot : replaceDotsWithCommas (lit ".") = [44] := by decide
  unfold inetNtoa octets
  simp only [happend, hdot, showInt_natCast, replaceDots_number, numbers_cons_cons,
    numbers_singleton, List.append_assoc, List.singleton_append]

/-- What `PASV` prints, with the numbers in one piece. -/
theorem enteringPassive_text (addr : UInt32) (port : UInt16) :
    (Reply.enteringPassive addr (port.toNat / 256 : Nat) (port.toNat % 256 : Nat)).text =
      lit "227 Entering Passive Mode (" ++ (numbers 44 (hostPortNumbers addr port) ++
        lit ").\r\n") := by
  unfold hostPortNumbers
  rw [Reply.text, replaceDots_inetNtoa]
  unfold octets
  simp only [List.cons_append, List.nil_append, numbers_cons_cons, numbers_singleton,
    showInt_natCast, List.append_assoc]
  rfl

theorem hostPortNumbers_lt {addr : UInt32} {port : UInt16} :
    ∀ n ∈ hostPortNumbers addr port, n < 256 := by
  have haddr : addr.toNat < 2 ^ 32 := addr.toNat_lt
  have hport : port.toNat < 2 ^ 16 := port.toNat_lt
  intro n hn
  simp only [hostPortNumbers, octets, List.cons_append, List.nil_append, List.mem_cons,
    List.not_mem_nil, or_false] at hn
  omega

/-! ## Reading it -/

theorem parsePasvResponse_text (addr : UInt32) (port : UInt16) :
    parsePasvResponse
        (Reply.enteringPassive addr (port.toNat / 256 : Nat) (port.toNat % 256 : Nat)).text =
      (hostPortNumbers addr port).map fun n : Nat => some (n : Int) := by
  have hformat : lit "227 Entering Passive Mode (%d,%d,%d,%d,%d,%d)" =
      lit "227 Entering Passive Mode (" ++
        (numbersFormat 44 (hostPortNumbers addr port).length ++ lit ")") := by
    show _ = lit "227 Entering Passive Mode (" ++ (numbersFormat 44 6 ++ lit ")")
    decide
  have hwords : ∀ format rest, sscanf (lit "227 Entering Passive Mode (" ++ format)
      (lit "227 Entering Passive Mode (" ++ rest) = sscanf format rest := fun _ _ => rfl
  have hclose : sscanf (lit ")") (lit ").\r\n") = [] := by decide
  have hsmall : ∀ n ∈ hostPortNumbers addr port, n < 2 ^ 31 := by
    intro n hn
    have := hostPortNumbers_lt n hn
    omega
  have hrest : NoDigit (lit ").\r\n") := by
    intro c hc
    have hparen : (lit ").\r\n").head? = some 41 := rfl
    rw [hparen, Option.mem_some_iff] at hc
    rw [← hc]
    rfl
  unfold parsePasvResponse
  rw [enteringPassive_text, hformat, hwords,
    sscanf_numbers (by decide) (by decide) (by decide) hsmall hrest, hclose]
  rfl

/-- Nothing but the numbers is between the parentheses. -/
theorem betweenParentheses_text (addr : UInt32) (port : UInt16) :
    betweenParentheses
        (Reply.enteringPassive addr (port.toNat / 256 : Nat) (port.toNat % 256 : Nat)).text =
      numbers 44 (hostPortNumbers addr port) := by
  have hopen : ∀ rest, ((lit "227 Entering Passive Mode (" ++ rest).dropWhile (· ≠ 40)).drop 1 =
      rest := fun _ => rfl
  have hnumbers : ∀ c ∈ numbers 44 (hostPortNumbers addr port), decide (c ≠ 41) = true := by
    intro c hc
    rw [decide_eq_true_iff]
    rintro rfl
    rcases mem_numbers 41 hc with h | h
    · exact absurd h (by decide)
    · exact absurd h (by decide)
  unfold betweenParentheses
  rw [enteringPassive_text, hopen, List.takeWhile_append_of_pos hnumbers]
  exact List.append_nil _

/-- The first number comes off as a token. -/
theorem strtok_number (n : Nat) (rest : CStr) :
    strtok comma (lit (toString n) ++ 44 :: rest) = some (lit (toString n), rest) ∧
      strtok comma (lit (toString n)) = some (lit (toString n), []) := by
  match h : lit (toString n) with
  | [] => exact absurd h (toString_ne_nil n)
  | c :: t =>
    have hdigit : ∀ b ∈ c :: t, comma b = false := by
      intro b hb
      have hb : isdigit b = true := isdigit_toString b (by rw [h]; exact hb)
      unfold comma
      rw [beq_eq_false_iff_ne]
      rintro rfl
      exact absurd hb (by decide)
    have hpos : ∀ b ∈ c :: t, (! comma b) = true := by
      intro b hb
      rw [hdigit b hb]
      rfl
    have hkeep : ∀ rest : CStr, (c :: t ++ rest).dropWhile comma = c :: (t ++ rest) := by
      intro rest
      rw [List.cons_append, List.dropWhile_cons, hdigit c List.mem_cons_self]
      rfl
    refine ⟨?_, ?_⟩
    · unfold strtok
      rw [hkeep]
      dsimp only
      rw [← List.cons_append, List.takeWhile_append_of_pos hpos, List.dropWhile_append_of_pos hpos]
      simp [comma]
    · have hkeep := hkeep []
      rw [List.append_nil, List.append_nil] at hkeep
      unfold strtok
      rw [hkeep]
      dsimp only
      rw [List.takeWhile_eq_self_iff.mpr hpos, List.dropWhile_eq_nil_iff.mpr hpos]
      rfl

/-- The fields of a PORT argument are the numbers that were printed. -/
theorem hostPortFields_numbers {l : List Nat} (hl : ∀ n ∈ l, n < 2 ^ 31) :
    hostPortFields l.length (numbers 44 l) = some (l.map fun n : Nat => (n : Int)) := by
  induction l with
  | nil => rfl
  | cons n l ih =>
    have hatoi : atoi (lit (toString n)) = n := by
      have hnone : NoDigit [] := by
        unfold NoDigit
        simp
      have h := atoi_toString (hl n List.mem_cons_self) hnone
      rwa [List.append_nil] at h
    have ih := ih fun m hm => hl m (List.mem_cons_of_mem n hm)
    rw [List.length_cons, hostPortFields]
    cases l with
    | nil =>
      rw [numbers_singleton, (strtok_number n []).2]
      dsimp only
      rw [hatoi]
      rfl
    | cons m l =>
      rw [numbers_cons_cons, (strtok_number n _).1]
      dsimp only
      rw [ih, hatoi]
      rfl

/-! ## The address -/

theorem mergePort_some (p₀ p₁ : Int) :
    mergePort (some p₀) (some p₁) = .ok (Server.mergePort p₀ p₁) := by
  unfold mergePort
  dsimp only
  by_cases h : p₀ < 0 ∨ p₀ > 255
  · rw [if_pos h, Server.mergePort, if_pos (by omega)]
  · rw [if_neg h]

theorem mapM_id_map_some (l : List Int) : (l.map some).mapM id = some l := by
  induction l with
  | nil => rfl
  | cons a l ih =>
    rw [List.map_cons, List.mapM_cons, ih]
    rfl

/-- From six numbers the socket gets its address and its port. -/
theorem setupDataSocket_numbers {address : List Int} (haddress : address.length = 4) (p q : Int)
    (sockfd : Option Fd) :
    setupDataSocket sockfd ((address ++ [p, q]).map some) = .ok (sockfd.map fun sockfd =>
      ⟨sockfd, initDataSocketSockin address (Server.mergePort p q), address,
        Server.mergePort p q⟩) := by
  have hport : mergePort (((address ++ [p, q]).map some).getD 4 none)
      (((address ++ [p, q]).map some).getD 5 none) = .ok (Server.mergePort p q) := by
    match address, haddress with
    | [_, _, _, _], _ => exact mergePort_some p q
  have haddress' : (((address ++ [p, q]).map some).take 4).mapM id = some address := by
    rw [List.map_append, List.take_left' (by rw [List.length_map, haddress]), mapM_id_map_some]
  unfold setupDataSocket
  rw [hport]
  cases sockfd with
  | none => rfl
  | some sockfd =>
    dsimp only
    rw [haddress']
    rfl

/-- The six numbers make up the address and the port again. -/
theorem initSockin_numbers (addr : UInt32) (port : UInt16) :
    initSockin (((hostPortNumbers addr port).map fun n : Nat => (n : Int)).take 4)
        (Server.mergePort ((port.toNat / 256 : Nat) : Int) ((port.toNat % 256 : Nat) : Int)) =
      ⟨addr, port⟩ := by
  have haddr : addr.toNat < 2 ^ 32 := addr.toNat_lt
  have hport : port.toNat < 2 ^ 16 := port.toNat_lt
  have hmerge : Server.mergePort ((port.toNat / 256 : Nat) : Int)
      ((port.toNat % 256 : Nat) : Int) = (port.toNat : Int) := by
    unfold Server.mergePort
    rw [if_neg (by omega)]
    omega
  have hsum : ((addr.toNat / 2 ^ 24 : Nat) : Int) * 2 ^ 24 +
      ((addr.toNat / 2 ^ 16 % 256 : Nat) : Int) * 2 ^ 16 +
      ((addr.toNat / 2 ^ 8 % 256 : Nat) : Int) * 2 ^ 8 + ((addr.toNat % 256 : Nat) : Int) =
        (addr.toNat : Int) := by
    omega
  unfold initSockin
  rw [hmerge]
  congr 1
  · show UInt32.ofInt (((addr.toNat / 2 ^ 24 : Nat) : Int) * 2 ^ 24 +
      ((addr.toNat / 2 ^ 16 % 256 : Nat) : Int) * 2 ^ 16 +
      ((addr.toNat / 2 ^ 8 % 256 : Nat) : Int) * 2 ^ 8 + ((addr.toNat % 256 : Nat) : Int)) = addr
    have hmod : ((addr.toNat : Int) % 2 ^ 32).toNat = addr.toNat := by omega
    rw [hsum, UInt32.ofInt, hmod, UInt32.ofNat_toNat]
  · have hmod : ((port.toNat : Int) % 2 ^ 16).toNat = port.toNat := by omega
    rw [UInt16.ofInt, hmod, UInt16.ofNat_toNat]

/-- What `PASV` prints for an address and a port, the client and the server's
`PORT` turn into that address and that port. -/
theorem hostPort_decodes (addr : UInt32) (port : UInt16) (sockfd fd : Fd) (ans : Answers) (s : Ctx)
    (hsocket : ans.socket = some fd) (hfree : s.os.desc fd = none) :
    ∃ p : Int × Int, splitPort port.toNat = some p ∧
      let text := (Reply.enteringPassive addr p.1 p.2).text
      (∃ d, setupDataSocket (some sockfd) (parsePasvResponse text) = .ok (some d) ∧
        d.addr = ⟨addr, port⟩) ∧
      ∃ hostPort d s', parseHostPortValues (betweenParentheses text) = some hostPort ∧
        setupActiveDataSocket ans hostPort s = (.ok (some d), s') ∧ d.addr = ⟨addr, port⟩ := by
  have hsmall : ∀ n ∈ hostPortNumbers addr port, n < 2 ^ 31 := by
    intro n hn
    have := hostPortNumbers_lt n hn
    omega
  have hactive : ∀ hostPort, setupActiveDataSocket ans hostPort s =
      (.ok (some (activeSocket hostPort fd)), s.withDesc fd (some .socket)) := by
    intro hostPort
    rw [setupActiveDataSocket_apply, hsocket]
    exact if_pos hfree
  refine ⟨_, splitPort_port port, ?_⟩
  dsimp only
  rw [parsePasvResponse_text, betweenParentheses_text]
  constructor
  · have hsetup := @setupDataSocket_numbers
      (((hostPortNumbers addr port).map fun n : Nat => (n : Int)).take 4) rfl
      ((port.toNat / 256 : Nat) : Int) ((port.toNat % 256 : Nat) : Int) (some sockfd)
    exact ⟨_, hsetup, initSockin_numbers addr port⟩
  · have hfields : parseHostPortValues (numbers 44 (hostPortNumbers addr port)) =
        some ((hostPortNumbers addr port).map fun n : Nat => (n : Int)) :=
          hostPortFields_numbers hsmall
    exact ⟨_, _, _, hfields, hactive _, initSockin_numbers addr port⟩

/-- The address 192.168.0.255 and the port 51234. -/
theorem hostPort_decodes_far :
    ∃ p : Int × Int, splitPort (51234 : UInt16).toNat = some p ∧
      let text := (Reply.enteringPassive 0xc0a800ff p.1 p.2).text
      (∃ d, setupDataSocket (some 5) (parsePasvResponse text) = .ok (some d) ∧
        d.addr = ⟨0xc0a800ff, 51234⟩) ∧
      ∃ hostPort d s', parseHostPortValues (betweenParentheses text) = some hostPort ∧
        setupActiveDataSocket (.fine 7) hostPort
          (Ctx.start Server.smallSetup.os
            (Server.initConnection Server.smallSetup.server 4 ⟨0, 0⟩)) =
            (.ok (some d), s') ∧ d.addr = ⟨0xc0a800ff, 51234⟩ :=
  hostPort_decodes 0xc0a800ff 51234 5 7 (.fine 7) _ rfl rfl

end MyFtp.Client
