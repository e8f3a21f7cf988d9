import MyFtp.Client.Commands
import MyFtp.Wire.Scripts

/-!
# A transfer over the wire

The client, the server's parent and whoever answers for the server, and between
them the two directions of the control connection and the data connection: three
channels with room for so many bytes each. A write waits while its channel is full,
a read while it is empty and may still be written to.

Each party goes through its text one byte at a time where it writes, and takes what
`read` returns where it reads. The moves of the parties come in any order.

> `readResponse_of_reads`: a line that is put together from reads is the one
> `read_response` returns.

The data connection is there from the beginning, since the client connects before it
sends its request, and so are the three channels. The control connection stays open.
-/

namespace MyFtp.Wire

open MyFtp.Posix
open MyFtp.Server
open MyFtp.Client (hasCode commandLine)

/-! ## What happens -/

/-- The command the client executes. `opens` tells whether it gets its streams over the
data connection and the local file, which holds `content`. -/
inductive Action
  | get (opens : Bool)
  | ls (opens : Bool)
  | put (opens : Bool) (content : List Byte)
  deriving DecidableEq

/-- The word of the request. -/
def Action.word : Action → CStr
  | .get _ => lit "RETR"
  | .ls _ => lit "LIST"
  | .put _ _ => lit "STOR"

/-- What the server's child runs for it. -/
def Action.body : Action → TransferBody
  | .get _ => .executeRetrCommand
  | .ls _ => .executeLsCommand
  | .put _ _ => .executeStorCommand

/-- How the server comes to answer: the parent refuses, as `transferTests_refuses` and
`transferReplies_refuse` say, or a child is forked. -/
inductive Answer
  | refused (r : Reply) (h : r ∈ refusals)
  | forked (ls : Path → FileTree → List Byte) (cans : ChildAnswers) (command : Command) (s : Ctx)
    (W : Path) (path : CStr)

/-- Whether there is a child. -/
def Answer.forks : Answer → Bool
  | .refused _ _ => false
  | .forked _ _ _ _ _ _ => true

/-- One transfer: the command, the name in its request, the answer, and how much the
channels hold. -/
structure Exchange where
  action : Action
  name : CStr
  answer : Answer
  upRoom : Nat
  downRoom : Nat
  dataRoom : Nat
  typed : newline ∉ name
  up_pos : 0 < upRoom
  down_pos : 0 < downRoom
  data_pos : 0 < dataRoom

/-- What the client prints on the control connection. -/
def Exchange.request (x : Exchange) : List Byte := commandLine x.action.word x.name

/-- What the server does about it. -/
def Exchange.script (x : Exchange) : Script :=
  match x.answer with
  | .refused r _ => .refusal r
  | .forked ls cans command s W path => childScript ls cans command s W path x.action.body

/-! ## The parties -/

/-- Where the client is: what is left of the request or of the file, or what it has of a
reply. -/
inductive ClientPhase
  | request (left : List Byte)
  | opening (taken : List Byte)
  | upload (left : List Byte)
  | closing (taken : List Byte)
  | download
  | done
  deriving DecidableEq

/-- Where the server's parent is. Between `fork` and `done` it still holds the data
connection. -/
inductive ParentPhase
  | reading (taken : List Byte)
  | forked
  | done
  deriving DecidableEq

/-- Where the one that answers is. -/
inductive AnswerPhase
  | waiting
  | opening (left : List Byte)
  | sending (left : List Byte)
  | receiving
  | closing (left : List Byte)
  | done
  deriving DecidableEq

/-- The parties and what is on its way between them. `dataOpen` tells whether the client
still holds the data connection. -/
structure Net where
  up : List Byte
  down : List Byte
  data : List Byte
  client : ClientPhase
  parent : ParentPhase
  answer : AnswerPhase
  dataOpen : Bool
  deriving DecidableEq

/-- One party goes on. Where it reads, `n` bytes are returned. -/
inductive Move
  | client (n : Nat)
  | parent (n : Nat)
  | answer (n : Nat)
  deriving DecidableEq

/-- `read` may return `n` bytes of what has arrived. -/
def Arrived (n : Nat) (l : List Byte) : Prop := 0 < n ∧ n ≤ l.length

instance (n : Nat) (l : List Byte) : Decidable (Arrived n l) :=
  inferInstanceAs (Decidable (0 < n ∧ n ≤ l.length))

/-- The server holds the data connection no longer. -/
def Net.Exited (S : Net) : Prop := S.parent = .done ∧ S.answer = .done

instance (S : Net) : Decidable S.Exited :=
  inferInstanceAs (Decidable (S.parent = .done ∧ S.answer = .done))

/-- The exchange is over for everyone. -/
def Net.Finished (S : Net) : Prop := S.client = .done ∧ S.Exited

instance (S : Net) : Decidable S.Finished := inferInstanceAs (Decidable (_ ∧ _))

/-- The client goes on to a phase. At the end it closes the data connection. -/
def Net.goto (S : Net) (client : ClientPhase) : Net :=
  { S with client, dataOpen := S.dataOpen && client ≠ .done }

/-- After the first reply: `get` and `ls` want the second one, `put` sends its file. -/
def Action.afterOpening (action : Action) (line : List Byte) : ClientPhase :=
  if hasCode (cstr line) "150" then
    match action with
    | .get _ => .closing []
    | .ls _ => .closing []
    | .put opens content => if opens then .upload content else .closing []
  else .done

/-- After the second reply: `get` and `ls` read the data. -/
def Action.afterClosing (action : Action) (line : List Byte) : ClientPhase :=
  if hasCode (cstr line) "226" then
    match action with
    | .get opens => if opens then .download else .done
    | .ls opens => if opens then .download else .done
    | .put _ _ => .done
  else .done

/-- A read of `read_response` has returned `n` bytes. When its line is complete, what was
read beyond it is lost. -/
def Net.hear (S : Net) (n : Nat) (taken : List Byte) (more next : List Byte → ClientPhase) : Net :=
  let got := taken ++ S.down.take n
  { S with down := S.down.drop n }.goto
    (if newline ∈ got then next (takeLine got.length got).1 else more got)

/-- A move of the client. When the server has closed the data connection, a write may still
succeed, or it is the end of the client, which handles no `SIGPIPE`. -/
def Exchange.clientStep (x : Exchange) (S : Net) (n : Nat) : Option Net :=
  match S.client with
  | .request [] => some (S.goto (.opening []))
  | .request (b :: left) =>
    if S.up.length < x.upRoom then some { S with up := S.up ++ [b], client := .request left }
    else none
  | .opening taken =>
    if Arrived n S.down then some (S.hear n taken .opening x.action.afterOpening) else none
  | .upload [] => some { S with client := .closing [], dataOpen := false }
  | .upload (b :: left) =>
    if S.Exited then some (S.goto (if n = 0 then .done else .upload left))
    else if S.data.length < x.dataRoom then
      some { S with data := S.data ++ [b], client := .upload left }
    else none
  | .closing taken =>
    if Arrived n S.down then some (S.hear n taken .closing x.action.afterClosing) else none
  | .download =>
    if Arrived n S.data then some { S with data := S.data.drop n }
    else if S.Exited ∧ S.data = [] then some (S.goto .done)
    else none
  | .done => none

/-- Where an answer begins. -/
def Script.start (script : Script) : AnswerPhase :=
  match script.opening with
  | none => .closing script.closing.text
  | some opening => .opening opening.text

/-- Where it goes on after the opening line. -/
def Script.transfer (script : Script) : AnswerPhase :=
  match script.middle with
  | .sends bytes => .sending bytes
  | .receives => .receiving

/-- A move of the parent: it reads the request, answers or forks, and closes its side of the
data connection. -/
def Exchange.parentStep (x : Exchange) (S : Net) (n : Nat) : Option Net :=
  match S.parent with
  | .reading taken =>
    if Arrived n S.up then
      let got := taken ++ S.up.take n
      if newline ∈ got then
        some { S with
          up := S.up.drop n
          parent := if x.answer.forks then .forked else .done
          answer := x.script.start }
      else some { S with up := S.up.drop n, parent := .reading got }
    else none
  | .forked => some { S with parent := .done }
  | .done => none

/-- A move of the one that answers. Writing on a data connection that the client has closed
ends a child, which handles no `SIGPIPE` either. -/
def Exchange.answerStep (x : Exchange) (S : Net) (n : Nat) : Option Net :=
  match S.answer with
  | .waiting => none
  | .opening [] => some { S with answer := x.script.transfer }
  | .opening (b :: left) =>
    if S.down.length < x.downRoom then
      some { S with down := S.down ++ [b], answer := .opening left }
    else none
  | .sending [] => some { S with answer := .closing x.script.closing.text }
  | .sending (b :: left) =>
    if S.dataOpen = false then some { S with answer := .done }
    else if S.data.length < x.dataRoom then
      some { S with data := S.data ++ [b], answer := .sending left }
    else none
  | .receiving =>
    if Arrived n S.data then some { S with data := S.data.drop n }
    else if S.dataOpen = false ∧ S.data = [] then
      some { S with answer := .closing x.script.closing.text }
    else none
  | .closing [] => some { S with answer := .done }
  | .closing (b :: left) =>
    if S.down.length < x.downRoom then
      some { S with down := S.down ++ [b], answer := .closing left }
    else none
  | .done => none

/-- A move. -/
def Exchange.move (x : Exchange) (S : Net) : Move → Option Net
  | .client n => x.clientStep S n
  | .parent n => x.parentStep S n
  | .answer n => x.answerStep S n

/-- Nothing is sent yet. -/
def Exchange.start (x : Exchange) : Net :=
  { up := [], down := [], data := [], client := .request x.request, parent := .reading []
    answer := .waiting, dataOpen := true }

/-- The exchange, as a machine that is told which party moves. -/
def Exchange.net (x : Exchange) : Machine Net Move Unit where
  init := x.start
  step S m := (x.move S m).elim (.error ()) .ok

/-- Someone can go on. -/
def Exchange.Enabled (x : Exchange) (S : Net) : Prop := ∃ m S', x.net.step S m = .ok S'

variable {x : Exchange}

theorem net_step_eq_ok {S S' : Net} {m : Move} :
    x.net.step S m = .ok S' ↔ x.move S m = some S' := by
  show ((x.move S m).elim (.error ()) .ok : Except Unit Net) = .ok S' ↔ _
  cases x.move S m with
  | none => simp
  | some S₁ => simp

theorem enabled_of_move {S : Net} (m : Move) (h : (x.move S m).isSome = true) : x.Enabled S :=
  ⟨m, _, net_step_eq_ok.mpr (Option.some_get h).symm⟩

/-! ## The client's reads -/

/-- The client reads a reply. -/
def ClientPhase.hears : ClientPhase → Bool
  | .opening _ => true
  | .closing _ => true
  | _ => false

/-- The client does not read beyond a line. -/
def ReadsLines (S : Net) : Move → Prop
  | .client n => S.client.hears = true → newline ∉ (S.down.take n).dropLast
  | _ => True

instance : ∀ (S : Net) (m : Move), Decidable (ReadsLines S m)
  | S, .client n =>
    inferInstanceAs (Decidable (S.client.hears = true → newline ∉ (S.down.take n).dropLast))
  | _, .parent _ => isTrue trivial
  | _, .answer _ => isTrue trivial

/-- What `hear` puts together is what `read_response` returns, and what it forgets. -/
theorem readResponse_of_reads {reads : List (List Byte)} (h : ∀ read ∈ reads, newline ∉ read)
    {last : List Byte} (hlast : newline ∈ last) (more : List (List Byte)) :
    let got := reads.flatten ++ last
    Client.readResponse (reads ++ last :: more) = (some (takeLine got.length got).1, more) := by
  have hfrom : ∀ taken buffer : List Byte, newline ∉ buffer →
      (∀ read ∈ reads, newline ∉ read) →
        getlineFrom taken buffer (reads ++ last :: more) =
          (taken ++ buffer ++ reads.flatten ++ (takeLine last.length last).1,
            ⟨(takeLine last.length last).2, more⟩) := by
    clear h
    induction reads with
    | nil =>
      intro taken buffer hbuffer _
      rw [List.nil_append, getlineFrom, if_neg hbuffer, List.flatten_nil, List.append_nil]
      cases more with
      | nil => rw [getlineFrom, if_pos hlast]
      | cons _ _ => rw [getlineFrom, if_pos hlast]
    | cons read reads ih =>
      intro taken buffer hbuffer hreads
      rw [List.forall_mem_cons] at hreads
      rw [List.cons_append, getlineFrom, if_neg hbuffer, ih _ _ hreads.1 hreads.2,
        List.flatten_cons]
      simp only [List.append_assoc]
  intro got
  have hnone : newline ∉ reads.flatten := by
    intro hmem
    obtain ⟨read, hread, hmem⟩ := List.mem_flatten.mp hmem
    exact h read hread hmem
  have hgot : (takeLine got.length got).1 = reads.flatten ++ (takeLine last.length last).1 := by
    rw [List.length_append, takeLine_of_notMem hnone]
  have hline : (Stream.fresh (reads ++ last :: more)).getline = _ :=
    hfrom [] [] List.not_mem_nil h
  rw [List.nil_append, List.nil_append, ← hgot] at hline
  have hne : (takeLine got.length got).1 ≠ [] := by
    obtain ⟨text, rest, -, -, htake⟩ := first_line (l := got) (List.mem_append_right _ hlast)
    rw [htake]
    simp
  rw [Client.readResponse, hline]
  dsimp only
  rw [if_neg hne]

end MyFtp.Wire
