import MyFtp.Client.Commands
import MyFtp.Client.Responses

/-!
# The working directory on its way to the client

The server prints the directory between quotation marks, as it is. `pwd` and
`cd` of the client show what is between the first quotation mark and the next
one.

> `pathname_decodes_iff`: they show the directory exactly when there is no
> quotation mark in it.

Directories are any components here, not only the names of a tree of the model:
whatever a file system allows in a name.
-/

namespace MyFtp.Wire

open MyFtp.Posix
open MyFtp.Client
open MyFtp.Server (Command Reply)
open Prog

/-- The quotation mark. -/
def quote : Byte := 34

/-- Bytes that a directory may have as its name, and that leave the reply one
line. -/
def Component (b : CStr) : Prop := b ≠ [] ∧ slash ∉ b ∧ NulFree b ∧ newline ∉ b

instance (b : CStr) : Decidable (Component b) := inferInstanceAs (Decidable (_ ∧ _ ∧ _ ∧ _))

/-- The string of a directory, from its components. -/
def componentsStr : List CStr → CStr
  | [] => [slash]
  | b :: l => (b :: l).flatMap (slash :: ·)

/-- What `pwd_command` prints for a working directory. -/
def pathnameText (workingDirectory : CStr) : CStr :=
  lit "257 \"" ++ workingDirectory ++ lit "\"\r\n"

/-- It is the reply of the server. -/
theorem pathname_text (p : Path) : (Reply.pathname p).text = pathnameText (pathStr p) := rfl

theorem pathStr_eq_componentsStr (p : Path) : pathStr p = componentsStr (p.map Name.bytes) := by
  cases p with
  | nil => rfl
  | cons n p =>
    rw [pathStr, List.map_cons, componentsStr, ← List.map_cons, List.flatMap_map]

/-- A byte other than the slash is in the string if it is in a component. -/
theorem mem_componentsStr {c : Byte} (hc : c ≠ slash) {components : List CStr} :
    c ∈ componentsStr components ↔ ∃ b ∈ components, c ∈ b := by
  cases components with
  | nil => simp [componentsStr, hc]
  | cons b l =>
    rw [componentsStr, List.mem_flatMap]
    refine exists_congr fun d => and_congr_right fun _ => ?_
    rw [List.mem_cons, or_iff_right hc]

/-! ## Between the quotation marks -/

/-- What the client takes from the reply ends at the first quotation mark of the
directory. -/
theorem quotedPath_pathnameText (w : CStr) :
    quotedPath (pathnameText w) = some (w.takeWhile (· ≠ quote)) := by
  have hopen : (pathnameText w).dropWhile (· ≠ (34 : Byte)) = 34 :: (w ++ lit "\"\r\n") := by
    rw [pathnameText, List.append_assoc]
    rfl
  have hclose : (w ++ lit "\"\r\n").takeWhile (· ≠ (34 : Byte)) = w.takeWhile (· ≠ quote) := by
    rw [List.takeWhile_append]
    split
    next h =>
      have hself : (w.takeWhile (· ≠ (34 : Byte))) = w :=
        (List.takeWhile_prefix _).eq_of_length h
      show w ++ [] = w.takeWhile (· ≠ (34 : Byte))
      rw [List.append_nil, hself]
    next => rfl
  rw [quotedPath, hopen]
  dsimp only
  rw [hclose]

theorem takeWhile_quote_eq_self {w : CStr} : w.takeWhile (· ≠ quote) = w ↔ quote ∉ w := by
  rw [List.takeWhile_eq_self_iff]
  refine ⟨fun h hmem => ?_, fun h c hc => ?_⟩
  · exact absurd (h quote hmem) (by simp)
  · exact decide_eq_true fun he => h (he ▸ hc)

/-! ## The line -/

/-- The reply is one line, and it has no NUL. -/
theorem pathnameText_line {w : CStr} (hw : newline ∉ w) : IsLine (pathnameText w) := by
  refine ⟨lit "257 \"" ++ w ++ lit "\"\r", ?_, ?_⟩
  · rw [List.mem_append, List.mem_append]
    rintro ((h | h) | h)
    · exact absurd h (by decide)
    · exact hw h
    · exact absurd h (by decide)
  · rw [pathnameText, List.append_assoc _ (lit "\"\r")]
    rfl

theorem pathnameText_nulFree {w : CStr} (hw : NulFree w) : NulFree (pathnameText w) := by
  unfold NulFree pathnameText
  rw [List.mem_append, List.mem_append]
  rintro ((h | h) | h)
  · exact absurd h (by decide)
  · exact hw h
  · exact absurd h (by decide)

/-! ## The commands -/

theorem hasCode_pathnameText (w : CStr) : hasCode (pathnameText w) "257" = true := by
  have hcode : strncmp (pathnameText w) (lit "257") 3 = 0 :=
    strncmp_length_eq_zero.mpr ⟨lit " \"" ++ w ++ lit "\"\r\n", rfl⟩
  rw [hasCode, hcode]
  rfl

theorem displayCurrentPath_shown (w : CStr) (s : Ctx) :
    (displayCurrentPath (pathnameText w) s).2.shown = s.shown ++ [w.takeWhile (· ≠ quote)] := by
  rw [displayCurrentPath, quotedPath_pathnameText]
  rfl

/-- `pwd` shows what it takes from the reply. -/
theorem pwdCommand_shown {command : Command} (hargc : command.argc = 0) {w : CStr} {s : Ctx}
    (hs : s.replies.headD none = some (pathnameText w)) (hw : NulFree w) :
    (pwdCommand command s).2.shown = s.shown ++ [w.takeWhile (· ≠ quote)] := by
  have hnext : nextResponse .pwd (s.note (.sent (lit "PWD\r\n"))) =
      (.ok (some (pathnameText w)), (s.note (.sent (lit "PWD\r\n"))).heardNext .pwd) := by
    rw [nextResponse, Ctx.replies_note, hs, Option.map_some,
      cstr_eq_self (pathnameText_nulFree hw)]
  rw [pwdCommand, if_neg (by simp [hargc]), send, modify_bind_apply, bind_of_ok hnext]
  dsimp only
  rw [if_neg (by simp [hasCode_pathnameText])]
  have hshown := displayCurrentPath_shown w ((s.note (.sent (lit "PWD\r\n"))).heardNext .pwd)
  rw [displayCurrentPath, quotedPath_pathnameText] at hshown ⊢
  exact hshown

/-- So does `cd`. -/
theorem displayNewPath_shown {w : CStr} {s : Ctx}
    (hs : s.replies.headD none = some (pathnameText w)) (hw : NulFree w) :
    (displayNewPath s).2.shown = s.shown ++ [w.takeWhile (· ≠ quote)] := by
  have hnext : nextResponse .newDirectory (s.note (.sent (lit "PWD\r\n"))) =
      (.ok (some (pathnameText w)), (s.note (.sent (lit "PWD\r\n"))).heardNext .newDirectory) := by
    rw [nextResponse, Ctx.replies_note, hs, Option.map_some,
      cstr_eq_self (pathnameText_nulFree hw)]
  rw [displayNewPath, send, modify_bind_apply, bind_of_ok hnext]
  dsimp only
  rw [if_neg (by simp [hasCode_pathnameText])]
  exact displayCurrentPath_shown w _

/-- **When the directory arrives.** The server's reply for the working directory
`w` comes over the connection in any reads. `pwd` shows `w`, and `cd` shows `w`,
if and only if no component of `w` has a quotation mark. -/
theorem pathname_decodes_iff {components : List CStr} (h : ∀ b ∈ components, Component b)
    {reads : List (List Byte)} (hreads : reads.flatten = pathnameText (componentsStr components))
    {command : Command} (hargc : command.argc = 0) {s : Ctx}
    (hs : s.replies.headD none = (readResponse reads).1) :
    ((pwdCommand command s).2.shown = s.shown ++ [componentsStr components] ↔
        ∀ b ∈ components, quote ∉ b) ∧
      ((displayNewPath s).2.shown = s.shown ++ [componentsStr components] ↔
        ∀ b ∈ components, quote ∉ b) := by
  have hnotMem : ∀ c, c ≠ slash → (∀ b ∈ components, c ∉ b) → c ∉ componentsStr components := by
    intro c hc hcomponents hmem
    obtain ⟨b, hb, hcb⟩ := (mem_componentsStr hc).mp hmem
    exact hcomponents b hb hcb
  have hnul : NulFree (componentsStr components) :=
    hnotMem 0 (by decide) fun b hb => (h b hb).2.2.1
  have hline : newline ∉ componentsStr components :=
    hnotMem newline (by decide) fun b hb => (h b hb).2.2.2
  have hread := (readResponse_line (pathnameText_line hline)
    (hreads.trans (List.append_nil _).symm)).1
  rw [hread] at hs
  have hquote : s.shown ++ [(componentsStr components).takeWhile (· ≠ quote)] =
      s.shown ++ [componentsStr components] ↔ ∀ b ∈ components, quote ∉ b := by
    rw [List.append_cancel_left_eq, List.cons.injEq, and_iff_left rfl, takeWhile_quote_eq_self]
    refine ⟨fun hmem b hb hq => ?_, hnotMem quote (by decide)⟩
    exact hmem ((mem_componentsStr (by decide)).mpr ⟨b, hb, hq⟩)
  rw [pwdCommand_shown hargc hs hnul, displayNewPath_shown hs hnul]
  exact ⟨hquote, hquote⟩

/-- The client that has one reply to read. -/
def oneReply (components : List CStr) : Ctx :=
    .start [some (pathnameText (componentsStr components))]

/-- `/srv/ftp` arrives. -/
theorem pathname_decodes_ftp :
    (pwdCommand ⟨lit "pwd", []⟩ (oneReply [lit "srv", lit "ftp"])).2.shown = [lit "/srv/ftp"] := by
  have hcomponents : ∀ b ∈ [lit "srv", lit "ftp"], Component b := by decide
  have hreads : [pathnameText (componentsStr [lit "srv", lit "ftp"])].flatten =
      pathnameText (componentsStr [lit "srv", lit "ftp"]) := List.append_nil _
  have hs : (oneReply [lit "srv", lit "ftp"]).replies.headD none =
      (readResponse [pathnameText (componentsStr [lit "srv", lit "ftp"])]).1 := by decide
  exact (pathname_decodes_iff hcomponents hreads rfl hs).1.mpr (by decide)

/-- `/a"b` arrives as `/a`. -/
theorem pathname_lost : ∃ components : List CStr, (∀ b ∈ components, Component b) ∧
    (pwdCommand ⟨lit "pwd", []⟩ (oneReply components)).2.shown ≠ [componentsStr components] ∧
      (displayNewPath (oneReply components)).2.shown ≠ [componentsStr components] :=
  ⟨[lit "a\"b"], by decide, by decide, by decide⟩

end MyFtp.Wire
