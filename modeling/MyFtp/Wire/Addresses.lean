import MyFtp.Client.DataSocket
import MyFtp.Posix.SignedInt
import MyFtp.Server.Ports

/-!
# The address from its four numbers

`init_sockin` of the server and `init_data_socket_sockin` of the client put the address
together with shifts and sums of `int`s. `assembleAddress` is that expression as the
language defines it. The numbers come from the network: the server takes whatever
`atoi` made of six tokens, the client whatever `sscanf` stored.

> `assembleAddress_eq_some`: when the expression is defined, and its value.

> `address_within_iff`: which numbers the server and the client can put together. A first
> number above 127 is shifted into the sign.
-/

namespace MyFtp.Wire

open MyFtp.Posix
open MyFtp.Client (parsePasvResponse setupDataSocket setupDataSocket_numbers)
open MyFtp.Server

/-- `(address[0] << 24) + (address[1] << 16) + (address[2] << 8) + address[3]`, for
`int`s of 32 bits. -/
def assembleAddress (address : List Int) : Option Int := do
  let first ← shiftLeft 31 (address.getD 0 0) 24
  let second ← shiftLeft 31 (address.getD 1 0) 16
  let two ← add 31 first second
  let third ← shiftLeft 31 (address.getD 2 0) 8
  let three ← add 31 two third
  add 31 three (address.getD 3 0)

/-- Where the expression is defined, it is the address the model computes with. -/
theorem sinAddr_of_assembleAddress {address : List Int} {v port : Int}
    (h : assembleAddress address = some v) :
    (initSockin address port).sinAddr = UInt32.ofInt v := by
  unfold assembleAddress at h
  simp only [Option.bind_eq_bind, Option.bind_eq_some_iff, shiftLeft_eq_some, add_eq_some] at h
  obtain ⟨first, ⟨-, rfl⟩, second, ⟨-, rfl⟩, two, ⟨-, rfl⟩, third, ⟨-, rfl⟩, three, ⟨-, rfl⟩, -,
    rfl⟩ := h
  rfl

/-- When the address can be put together, and its value. -/
theorem assembleAddress_eq_some {h₁ h₂ h₃ h₄ v : Int} (hint : InRange 31 h₄) :
    assembleAddress [h₁, h₂, h₃, h₄] = some v ↔
      (0 ≤ h₁ ∧ 0 ≤ h₂ ∧ 0 ≤ h₃ ∧
        h₁ * 2 ^ 24 + h₂ * 2 ^ 16 + h₃ * 2 ^ 8 + max h₄ 0 < 2 ^ 31) ∧
      v = h₁ * 2 ^ 24 + h₂ * 2 ^ 16 + h₃ * 2 ^ 8 + h₄ := by
  unfold assembleAddress InRange at *
  simp only [List.getD_cons_zero, List.getD_cons_succ, Option.bind_eq_bind, Option.bind_eq_some_iff,
    shiftLeft_eq_some, add_eq_some, InRange]
  constructor
  · rintro ⟨first, ⟨hfirst, rfl⟩, second, ⟨hsecond, rfl⟩, two, ⟨htwo, rfl⟩, third, ⟨hthird, rfl⟩,
      three, ⟨hthree, rfl⟩, hsum, rfl⟩
    exact ⟨by omega, rfl⟩
  · rintro ⟨hsmall, rfl⟩
    refine ⟨_, ⟨by omega, rfl⟩, _, ⟨by omega, rfl⟩, _, ⟨by omega, rfl⟩, _, ⟨by omega, rfl⟩, _,
      ⟨by omega, rfl⟩, by omega, rfl⟩

/-! ## What the two programs make of it -/

/-- The six numbers the address and the port can be computed from. -/
def WithinInt : List Int → Prop
  | [h₁, h₂, h₃, h₄, p₁, p₂] =>
    (0 ≤ h₁ ∧ 0 ≤ h₂ ∧ 0 ≤ h₃ ∧ h₁ * 2 ^ 24 + h₂ * 2 ^ 16 + h₃ * 2 ^ 8 + max h₄ 0 < 2 ^ 31) ∧
      (0 ≤ p₁ ∧ p₁ ≤ 255) ∧ 0 ≤ p₂ ∧ p₂ ≤ 255
  | _ => False

/-- The address of a data socket is computed within `int` and is the sum, and its port is
one: both stand in the socket address as they are. -/
def StaysWithin (address : List Int) (port : Int) (addr : SockAddr) : Prop :=
  (∃ h₁ h₂ h₃ h₄, address = [h₁, h₂, h₃, h₄] ∧
    assembleAddress address = some (h₁ * 2 ^ 24 + h₂ * 2 ^ 16 + h₃ * 2 ^ 8 + h₄) ∧
    addr.sinAddr = UInt32.ofInt (h₁ * 2 ^ 24 + h₂ * 2 ^ 16 + h₃ * 2 ^ 8 + h₄)) ∧
  (0 ≤ port ∧ port ≤ 65535) ∧ (addr.sinPort.toNat : Int) = port

theorem mergePort_within_iff {p₁ p₂ : Int} :
    (0 ≤ mergePort p₁ p₂ ∧ mergePort p₁ p₂ ≤ 65535) ↔ (0 ≤ p₁ ∧ p₁ ≤ 255) ∧ 0 ≤ p₂ ∧ p₂ ≤ 255 := by
  unfold mergePort
  split
  next h => exact iff_of_false (by omega) (by omega)
  next h => exact iff_of_true (by omega) (by omega)

/-- `htons` keeps a port that is one. -/
theorem sinPort_initSockin {address : List Int} {port : Int} (h : 0 ≤ port ∧ port ≤ 65535) :
    ((initSockin address port).sinPort.toNat : Int) = port := by
  show ((UInt16.ofInt port).toNat : Int) = port
  rw [UInt16.ofInt, UInt16.toNat_ofNat']
  omega

/-- The address and the port that both programs compute from six numbers. -/
theorem staysWithin_iff {h₁ h₂ h₃ h₄ p₁ p₂ : Int} (hint : InRange 31 h₄) :
    StaysWithin [h₁, h₂, h₃, h₄] (mergePort p₁ p₂)
        (initSockin [h₁, h₂, h₃, h₄] (mergePort p₁ p₂)) ↔
      WithinInt [h₁, h₂, h₃, h₄, p₁, p₂] := by
  unfold StaysWithin WithinInt
  refine and_congr ?_ ?_
  · constructor
    · rintro ⟨a, b, c, d, hlist, hsome, -⟩
      cases hlist
      exact ((assembleAddress_eq_some hint).mp hsome).1
    · intro hsmall
      have hsome := (assembleAddress_eq_some hint).mpr ⟨hsmall, rfl⟩
      exact ⟨h₁, h₂, h₃, h₄, rfl, hsome, sinAddr_of_assembleAddress hsome⟩
  · rw [← mergePort_within_iff]
    exact ⟨fun h => h.1, fun h => ⟨h, sinPort_initSockin h⟩⟩

theorem inRange_atoi (s : CStr) : InRange 31 (atoi s) := by
  unfold InRange atoi
  have hle := Int.le_bmod (x := strtol s) (m := 2 ^ 32) (by decide)
  have hlt := Int.bmod_lt (x := strtol s) (m := 2 ^ 32) (by decide)
  omega

theorem octets_within_iff {h₁ h₂ h₃ h₄ p₁ p₂ : Int}
    (hoctets : ∀ n ∈ [h₁, h₂, h₃, h₄], 0 ≤ n ∧ n ≤ 255) :
    WithinInt [h₁, h₂, h₃, h₄, p₁, p₂] ↔ h₁ ≤ 127 ∧ ∀ p ∈ [p₁, p₂], 0 ≤ p ∧ p ≤ 255 := by
  have h₁_octet := hoctets h₁ (by simp)
  have h₂_octet := hoctets h₂ (by simp)
  have h₃_octet := hoctets h₃ (by simp)
  have h₄_octet := hoctets h₄ (by simp)
  unfold WithinInt
  refine and_congr ?_ (by simp)
  constructor
  · intro h
    omega
  · intro h
    omega

/-- **When the address can be computed.** The server answered a `PORT` with 200: the
address and the port of the new data socket are computed within `int` if and only if the
numbers of its first six tokens are `WithinInt`. The client read six numbers in an answer
to `PASV`, and those of the address are octets: it computes within `int` if and only if the
first one is at most 127 and those of the port are octets too. -/
theorem address_within_iff (u : Setup) (events : List SessionEvent) (S : Sessions)
    (hrun : (sessions u).run events = .ok S) :
    (∀ (S' : Sessions) (id : ConnId) (line : CStr) (ans : Answers) (command : Command) (arg : CStr),
      parseBuffer line = .ok (some command) → command.word = lit "PORT" → command.argv = [arg] →
      S.step u.server (.line id line ans) = .ok S' →
      S'.world.sent = S.world.sent ++ [(id, .portSuccessful)] →
      ∃ c d address, S'.conns id = some c ∧ c.dataSocket = some d ∧ d.address = some address ∧
        (StaysWithin address d.port d.addr ↔ WithinInt (((runs comma arg).take 6).map atoi))) ∧
    ∀ (response : CStr) (sockfd : Fd) (hostPort : List Int),
      parsePasvResponse response = hostPort.map some →
      (∀ n ∈ hostPort.take 4, 0 ≤ n ∧ n ≤ 255) →
      ∃ d, setupDataSocket (some sockfd) (parsePasvResponse response) = .ok (some d) ∧
        (StaysWithin d.address d.port d.addr ↔
          hostPort.getD 0 0 ≤ 127 ∧ ∀ p ∈ hostPort.drop 4, 0 ≤ p ∧ p ≤ 255) := by
  constructor
  · intro S' id line ans command arg hparse hword harg hstep hsent
    obtain ⟨c, hostPort, fd, hvalues, hconn⟩ := port_accepted hrun hparse hword harg hstep hsent
    rw [parseHostPortValues_eq, Option.ite_none_right_eq_some, Option.some.injEq] at hvalues
    obtain ⟨hsix, hvalues⟩ := hvalues
    refine ⟨_, _, _, hconn, rfl, rfl, ?_⟩
    obtain ⟨t₁, t₂, t₃, t₄, t₅, t₆, htokens⟩ :=
      six_of_length (l := (runs comma arg).take 6) (by rw [List.length_take]; omega)
    rw [htokens] at hvalues ⊢
    subst hvalues
    exact staysWithin_iff (inRange_atoi t₄)
  · intro response sockfd hostPort hresponse hoctets
    have hlength : hostPort.length = 6 := by
      have h := congrArg List.length hresponse
      rw [List.length_map] at h
      rw [← h]
      rfl
    obtain ⟨h₁, h₂, h₃, h₄, p₁, p₂, rfl⟩ := six_of_length hlength
    have h₄_octet := hoctets h₄ (by simp)
    rw [hresponse]
    refine ⟨_, @setupDataSocket_numbers [h₁, h₂, h₃, h₄] rfl p₁ p₂ (some sockfd), ?_⟩
    refine Iff.trans ?_ (octets_within_iff hoctets)
    exact staysWithin_iff (by unfold InRange; omega)

/-- The loopback address, in a `PORT` and in an answer to `PASV`. -/
theorem address_within_loopback :
    (∃ S S' : Sessions, (sessions smallSetup).Took
        (oneClient ["USER anonymous", "PASS"] ++ [.line 0 (lit "PORT 127,0,0,1,4,1") (.fine 7)])
        S (.line 0 (lit "PORT 127,0,0,1,4,1") (.fine 7)) S' ∧
      ∃ c d address, S'.conns 0 = some c ∧ c.dataSocket = some d ∧ d.address = some address ∧
        StaysWithin address d.port d.addr) ∧
    ∃ d, setupDataSocket (some 5)
        (parsePasvResponse (lit "227 Entering Passive Mode (127,0,0,1,4,1).")) = .ok (some d) ∧
      StaysWithin d.address d.port d.addr := by
  obtain ⟨S, S', htook, hsent⟩ := Machine.exists_of_step (m := sessions smallSetup)
    (P := fun S S' => S'.world.sent = S.world.sent ++ [(0, .portSuccessful)])
    (l := oneClient ["USER anonymous", "PASS"])
    (i := .line 0 (lit "PORT 127,0,0,1,4,1") (.fine 7)) (by decide +kernel)
  obtain ⟨l₁, l₂, -, hrun, hstep⟩ := id htook
  obtain ⟨hserver, hclient⟩ := address_within_iff smallSetup l₁ S hrun
  constructor
  · obtain ⟨c, d, address, hc, hd, haddress, hiff⟩ :=
      hserver S' 0 _ _ ⟨lit "PORT", [lit "127,0,0,1,4,1"]⟩ _ (by decide) rfl rfl hstep hsent
    have hnumbers : ((runs comma (lit "127,0,0,1,4,1")).take 6).map atoi =
        [127, 0, 0, 1, 4, 1] := by
      decide
    refine ⟨S, S', htook, c, d, address, hc, hd, haddress, hiff.mpr ?_⟩
    rw [hnumbers]
    exact ⟨by omega, by omega, by omega⟩
  · obtain ⟨d, hsetup, hiff⟩ := hclient (lit "227 Entering Passive Mode (127,0,0,1,4,1).") 5
      [127, 0, 0, 1, 4, 1] (by decide) (by decide)
    exact ⟨d, hsetup, hiff.mpr (by decide)⟩

/-- A private address: `PORT` is answered with 200, and the shift of its first number is
undefined. It is undefined in the client too. -/
theorem address_into_sign :
    let line := lit "PORT 192,168,0,1,4,1"
    let events := oneClient ["USER anonymous", "PASS"] ++ [.line 0 line (.fine 7)]
    (∃ S S' : Sessions, (sessions smallSetup).Took events S (.line 0 line (.fine 7)) S' ∧
      S'.world.sent = S.world.sent ++ [(0, .portSuccessful)] ∧
      ((S'.conns 0).bind (·.dataSocket)).bind (·.address) = some [192, 168, 0, 1] ∧
      shiftLeft 31 192 24 = none ∧
      ¬ ∃ port addr, StaysWithin [192, 168, 0, 1] port addr) ∧
    parsePasvResponse (lit "227 Entering Passive Mode (192,168,0,1,4,1).") =
      [192, 168, 0, 1, 4, 1].map some := by
  intro line events
  refine ⟨?_, by decide⟩
  obtain ⟨S, S', htook, hsent, haddress⟩ := Machine.exists_of_step (m := sessions smallSetup)
    (P := fun S S' => S'.world.sent = S.world.sent ++ [(0, .portSuccessful)] ∧
      ((S'.conns 0).bind (·.dataSocket)).bind (·.address) = some [192, 168, 0, 1])
    (l := oneClient ["USER anonymous", "PASS"]) (i := .line 0 line (.fine 7)) (by decide +kernel)
  refine ⟨S, S', htook, hsent, haddress, by decide, ?_⟩
  rintro ⟨port, addr, ⟨h₁, h₂, h₃, h₄, -, hsome, -⟩, -⟩
  have hnone : assembleAddress [192, 168, 0, 1] = none := by decide
  rw [hnone] at hsome
  cases hsome

end MyFtp.Wire
