import Mathlib.Algebra.Group.Int.Defs
import Mathlib.Algebra.Group.Nat.Defs
import Mathlib.Data.List.DropRight

/-!
# C strings

A C string is the list of its bytes before the terminating NUL. The functions
here are the ones of `<string.h>`, `<ctype.h>` and `<stdlib.h>` a line-based
program needs, in the "C" locale: `isspace`, `strncmp`, `strtok`, `atoi`.

`runs sep s` — the maximal runs of bytes of `s` that are not separators — is
what a `strtok` loop over `s` yields (`strtokAll_eq_runs`); it is stated with
`List.splitOnP`, which cuts at every separator, so a run is a non-empty piece.
-/

namespace MyFtp.Posix

/-- A byte. -/
abbrev Byte := UInt8

/-- The bytes of a C string, without the terminating NUL. -/
abbrev CStr := List Byte

/-- The bytes of an ASCII literal. -/
def lit (s : String) : CStr := s.toList.map fun c => UInt8.ofNat c.toNat

/-- The C string held by a buffer: everything before the first NUL. -/
def cstr (buffer : List Byte) : CStr := buffer.takeWhile (· ≠ 0)

/-- No byte of the string is NUL. -/
def NulFree (s : CStr) : Prop := (0 : Byte) ∉ s

instance (s : CStr) : Decidable (NulFree s) := inferInstanceAs (Decidable (_ ∉ _))

theorem nulFree_cstr (buffer : List Byte) : NulFree (cstr buffer) := by
  intro h
  simpa using List.mem_takeWhile_imp h

/-- A buffer without NUL is the string it holds. -/
theorem cstr_eq_self {buffer : List Byte} (h : NulFree buffer) : cstr buffer = buffer := by
  rw [cstr, List.takeWhile_eq_self_iff]
  intro b hb
  rw [decide_eq_true_iff]
  rintro rfl
  exact h hb

/-- `isspace` in the "C" locale: the blank and the bytes from `\t` to `\r`. -/
def isspace (c : Byte) : Bool := c == 32 || (9 ≤ c && c ≤ 13)

theorem isspace_blank : isspace 32 = true := by decide

/-- `strncmp`, up to the size of a non-zero result. -/
def strncmp : CStr → CStr → Nat → Int
  | _, _, 0 => 0
  | [], [], _ + 1 => 0
  | [], _ :: _, _ + 1 => -1
  | _ :: _, [], _ + 1 => 1
  | a :: s, b :: t, n + 1 => if a = b then strncmp s t n else if a < b then -1 else 1

/-- With the whole of `t` compared, `strncmp` finds no difference exactly when
`t` is where `s` begins. -/
theorem strncmp_length_eq_zero : ∀ {s t : CStr}, strncmp s t t.length = 0 ↔ t <+: s
  | s, [] => by simp [strncmp]
  | [], b :: t => by simp [strncmp]
  | a :: s, b :: t => by
    rw [List.length_cons, strncmp, List.cons_prefix_cons]
    by_cases h : a = b
    · rw [if_pos h, strncmp_length_eq_zero]
      exact ⟨fun h' => ⟨h.symm, h'⟩, fun h' => h'.2⟩
    · rw [if_neg h]
      constructor
      · intro h'
        split at h' <;> exact absurd h' (by decide)
      · exact fun h' => absurd h'.1.symm h

/-! ## Tokens -/

/-- `strtok`, one call: the next token and what is left of the string, or
nothing when only separators are left. -/
def strtok (sep : Byte → Bool) (s : CStr) : Option (CStr × CStr) :=
  match s.dropWhile sep with
  | [] => none
  | c :: t => some ((c :: t).takeWhile (! sep ·), ((c :: t).dropWhile (! sep ·)).drop 1)

theorem strtok_length {sep : Byte → Bool} {s tok rest : CStr}
    (h : strtok sep s = some (tok, rest)) : rest.length < s.length := by
  unfold strtok at h
  split at h
  next => cases h
  next c t hs =>
    obtain ⟨-, rfl⟩ := Prod.mk.inj (Option.some.inj h)
    have hc : sep c = false := by
      have := List.head_dropWhile_not sep (l := s) (by rw [hs]; simp)
      simpa [hs] using this
    have h₁ : (c :: t).length ≤ s.length := hs ▸ (List.dropWhile_suffix sep).length_le
    have h₂ := (List.dropWhile_suffix (l := t) (! sep ·)).length_le
    rw [List.length_cons] at h₁
    simp only [List.dropWhile_cons, hc, Bool.not_false, if_true, List.length_drop]
    omega

/-- All tokens a `strtok` loop yields. Fuel `s.length` suffices: every call
uses up at least one byte. -/
def strtokLoop (sep : Byte → Bool) : Nat → CStr → List CStr
  | 0, _ => []
  | fuel + 1, s =>
    match strtok sep s with
    | none => []
    | some (tok, rest) => tok :: strtokLoop sep fuel rest

/-- The tokens of `s`. -/
def strtokAll (sep : Byte → Bool) (s : CStr) : List CStr := strtokLoop sep s.length s

/-- The maximal runs of bytes that are not separators, in order. -/
def runs (sep : Byte → Bool) (s : CStr) : List CStr :=
  (s.splitOnP sep).filter (! ·.isEmpty)

@[simp] theorem runs_nil (sep : Byte → Bool) : runs sep [] = [] := rfl

/-- The runs on either side of a separator are independent. -/
theorem runs_append_sep {sep : Byte → Bool} {c : Byte} (h : sep c = true) (s t : CStr) :
    runs sep (s ++ c :: t) = runs sep s ++ runs sep t := by
  rw [runs, List.splitOnP_append_cons s t h, List.filter_append]
  rfl

theorem runs_cons_sep {sep : Byte → Bool} {c : Byte} (h : sep c = true) (s : CStr) :
    runs sep (c :: s) = runs sep s :=
  runs_append_sep h [] s

/-- Leading separators do not matter. -/
theorem runs_dropWhile (sep : Byte → Bool) : ∀ s : CStr, runs sep (s.dropWhile sep) = runs sep s
  | [] => rfl
  | c :: s => by
    rw [List.dropWhile_cons]
    split
    next h => rw [runs_cons_sep h, runs_dropWhile sep s]
    next => rfl

/-- A string without separators is one run. -/
theorem runs_of_forall {sep : Byte → Bool} {w : CStr} (hne : w ≠ [])
    (hw : ∀ b ∈ w, sep b = false) : runs sep w = [w] := by
  rw [runs, List.splitOnP_eq_singleton hw, List.filter_cons_of_pos (by simpa using hne)]
  rfl

/-- A run followed by a separator comes off the front. -/
theorem runs_append_cons {sep : Byte → Bool} {c : Byte} (hc : sep c = true) {w : CStr}
    (hne : w ≠ []) (hw : ∀ b ∈ w, sep b = false) (rest : CStr) :
    runs sep (w ++ c :: rest) = w :: runs sep rest := by
  rw [runs_append_sep hc, runs_of_forall hne hw, List.singleton_append]

/-- The last run ends as the string does. -/
theorem runs_eq_concat {sep : Byte → Bool} {s : CStr} (hne : s ≠ [])
    (hlast : sep (s.getLast hne) = false) :
    ∃ rs w, runs sep s = rs ++ [w] ∧ w.getLast? = s.getLast? := by
  have hsplit : s.rdropWhile (! sep ·) ++ s.rtakeWhile (! sep ·) = s :=
    List.rdropWhile_append_rtakeWhile
  have hw : ∀ b ∈ s.rtakeWhile (! sep ·), sep b = false :=
    fun b hb => by simpa using List.mem_rtakeWhile_imp hb
  have hwne : s.rtakeWhile (! sep ·) ≠ [] := by
    intro h
    rw [List.rtakeWhile_eq_nil_iff] at h
    have := h hne
    simp [hlast] at this
  have hend : (s.rtakeWhile (! sep ·)).getLast? = s.getLast? := by
    conv_rhs => rw [← hsplit, List.getLast?_append_of_ne_nil _ hwne]
  rcases List.eq_nil_or_concat (s.rdropWhile (! sep ·)) with hu | ⟨u, d, hu⟩
  · rw [hu, List.nil_append] at hsplit
    exact ⟨[], _, by rw [← runs_of_forall hwne hw, hsplit, List.nil_append], hend⟩
  · have hd : sep d = true := by
      have := List.rdropWhile_last_not (! sep ·) s (by rw [hu]; simp)
      simpa [hu] using this
    rw [hu, List.concat_eq_append, List.append_assoc, List.singleton_append] at hsplit
    refine ⟨runs sep u, _, ?_, hend⟩
    rw [← runs_of_forall hwne hw, ← runs_append_sep hd, hsplit]

/-- The pieces of a split hold no separator. -/
theorem mem_splitOnP {sep : Byte → Bool} :
    ∀ {s w : CStr}, w ∈ s.splitOnP sep → ∀ b ∈ w, sep b = false
  | [], w, h, b, hb => by
    rw [List.splitOnP_nil, List.mem_singleton] at h
    rw [h] at hb
    cases hb
  | c :: s, w, h, b, hb => by
    rw [List.splitOnP_cons_eq_if_modifyHead] at h
    by_cases hc : sep c = true
    · rw [if_pos hc] at h
      rcases List.mem_cons.mp h with rfl | h'
      · cases hb
      · exact mem_splitOnP h' b hb
    · rw [if_neg hc] at h
      match hs : s.splitOnP sep with
      | [] => exact absurd hs (List.splitOnP_ne_nil _ _)
      | r :: rs =>
        rw [hs, List.modifyHead_cons] at h
        rcases List.mem_cons.mp h with rfl | h'
        · rcases List.mem_cons.mp hb with rfl | hb'
          · simpa using hc
          · exact mem_splitOnP (hs ▸ List.mem_cons_self ..) b hb'
        · exact mem_splitOnP (hs ▸ List.mem_cons_of_mem _ h') b hb

/-- A run is not empty and holds no separator. -/
theorem mem_runs {sep : Byte → Bool} {s w : CStr} (h : w ∈ runs sep s) :
    w ≠ [] ∧ ∀ b ∈ w, sep b = false := by
  obtain ⟨hw, hne⟩ := List.mem_filter.mp h
  exact ⟨by simpa using hne, mem_splitOnP hw⟩

/-- What a run is made of comes from the string. -/
theorem subset_of_mem_runs {sep : Byte → Bool} {s w : CStr} (h : w ∈ runs sep s) : w ⊆ s := by
  have hpieces : ∀ s w : CStr, w ∈ s.splitOnP sep → w ⊆ s := by
    intro s
    induction s with
    | nil =>
      intro w hw
      rw [List.splitOnP_nil, List.mem_singleton] at hw
      rw [hw]
      exact List.Subset.refl _
    | cons c s ih =>
      intro w hw
      rw [List.splitOnP_cons_eq_if_modifyHead] at hw
      split at hw
      next =>
        rcases List.mem_cons.mp hw with rfl | hw
        · exact List.nil_subset _
        · exact List.subset_cons_of_subset c (ih w hw)
      next =>
        match hs : s.splitOnP sep with
        | [] => exact absurd hs (List.splitOnP_ne_nil _ _)
        | r :: rs =>
          rw [hs] at ih hw
          rw [List.modifyHead_cons] at hw
          rcases List.mem_cons.mp hw with rfl | hw
          · exact List.cons_subset_cons c (ih r List.mem_cons_self)
          · exact List.subset_cons_of_subset c (ih w (List.mem_cons_of_mem _ hw))
  exact hpieces s w (List.mem_filter.mp h).1

/-- The first token and the rest of the string make up the runs. -/
theorem runs_of_strtok {sep : Byte → Bool} {s tok rest : CStr}
    (h : strtok sep s = some (tok, rest)) : runs sep s = tok :: runs sep rest := by
  rw [← runs_dropWhile sep s]
  unfold strtok at h
  split at h
  next => cases h
  next c t hs =>
    obtain ⟨rfl, rfl⟩ := Prod.mk.inj (Option.some.inj h)
    have hc : sep c = false := by
      have := List.head_dropWhile_not sep (l := s) (by rw [hs]; simp)
      simpa [hs] using this
    have hne : (c :: t).takeWhile (! sep ·) ≠ [] := by simp [hc]
    have htok : ∀ b ∈ (c :: t).takeWhile (! sep ·), sep b = false :=
      fun b hb => by simpa using List.mem_takeWhile_imp hb
    have hsplit := List.takeWhile_append_dropWhile (p := (! sep ·)) (l := c :: t)
    rw [hs]
    match hd : (c :: t).dropWhile (! sep ·) with
    | [] =>
      rw [hd, List.append_nil] at hsplit
      rw [hsplit] at hne htok ⊢
      rw [runs_of_forall hne htok, List.drop_nil, runs_nil]
    | d :: rest =>
      have hsep : sep d = true := by
        have := List.head_dropWhile_not (! sep ·) (l := c :: t) (by rw [hd]; simp)
        simpa [hd] using this
      conv_lhs => rw [← hsplit, hd]
      rw [runs_append_cons hsep hne htok, List.drop_one, List.tail_cons]

/-- No token, no runs. -/
theorem runs_of_strtok_none {sep : Byte → Bool} {s : CStr} (h : strtok sep s = none) :
    runs sep s = [] := by
  unfold strtok at h
  split at h
  next hs =>
    rw [← runs_dropWhile, hs]
    rfl
  next => cases h

/-- A `strtok` loop with enough fuel yields the runs. -/
theorem strtokLoop_eq_runs {sep : Byte → Bool} :
    ∀ (fuel : Nat) {s : CStr}, s.length ≤ fuel → strtokLoop sep fuel s = runs sep s
  | 0, s, h => by
    obtain rfl : s = [] := List.length_eq_zero_iff.mp (Nat.le_zero.mp h)
    rfl
  | fuel + 1, s, h => by
    rw [strtokLoop]
    split
    next ht => exact (runs_of_strtok_none ht).symm
    next tok rest ht =>
      have hlen := strtok_length ht
      rw [strtokLoop_eq_runs fuel (by omega), runs_of_strtok ht]

theorem strtokAll_eq_runs (sep : Byte → Bool) (s : CStr) : strtokAll sep s = runs sep s :=
  strtokLoop_eq_runs s.length (Nat.le_refl _)

/-! ## How many runs -/

/-- A string has one piece more than separators. -/
theorem length_splitOnP (sep : Byte → Bool) :
    ∀ s : CStr, (s.splitOnP sep).length = s.countP sep + 1
  | [] => rfl
  | c :: s => by
    rw [List.splitOnP_cons_eq_if_modifyHead]
    split
    next h => rw [List.length_cons, length_splitOnP sep s, List.countP_cons_of_pos h]
    next h => rw [List.length_modifyHead, length_splitOnP sep s, List.countP_cons_of_neg h]

/-- There are at most as many runs as pieces. -/
theorem length_runs_le (sep : Byte → Bool) (s : CStr) :
    (runs sep s).length ≤ s.countP sep + 1 := by
  rw [← length_splitOnP]
  exact List.length_filter_le ..

/-- Two separators side by side. -/
def Adjacent (sep : Byte → Bool) (s : CStr) : Prop :=
  ∃ a c d b, s = a ++ c :: d :: b ∧ sep c = true ∧ sep d = true

/-- An empty first piece: nothing at all, or a separator in front. -/
theorem head_splitOnP_eq_nil {sep : Byte → Bool} {s : CStr} {rs : List CStr}
    (h : s.splitOnP sep = [] :: rs) : s = [] ∨ ∃ d t, s = d :: t ∧ sep d = true := by
  cases s with
  | nil => exact Or.inl rfl
  | cons d t =>
    by_cases hd : sep d = true
    · exact Or.inr ⟨d, t, rfl, hd⟩
    · rw [List.splitOnP_cons_eq_if_modifyHead, if_neg hd] at h
      match hs : t.splitOnP sep with
      | [] => exact absurd hs (List.splitOnP_ne_nil _ _)
      | r :: rs' =>
        rw [hs, List.modifyHead_cons] at h
        exact absurd (List.cons.inj h).1 (by simp)

/-- A later empty piece: a separator at the end, or two side by side. -/
theorem nil_mem_tail_splitOnP {sep : Byte → Bool} :
    ∀ {s : CStr}, [] ∈ (s.splitOnP sep).tail →
      (∃ a c, s = a ++ [c] ∧ sep c = true) ∨ Adjacent sep s
  | [], h => by cases h
  | c :: s, h => by
    rw [List.splitOnP_cons_eq_if_modifyHead] at h
    match hs : s.splitOnP sep with
    | [] => exact absurd hs (List.splitOnP_ne_nil _ _)
    | r :: rs =>
      have htail : [] ∈ rs → (∃ a c', c :: s = a ++ [c'] ∧ sep c' = true) ∨
          Adjacent sep (c :: s) := by
        intro hrs
        rcases nil_mem_tail_splitOnP (s := s) (by rw [hs]; exact hrs) with
          ⟨a, c', rfl, hc'⟩ | ⟨a, c', d, b, rfl, hc', hd⟩
        · exact Or.inl ⟨c :: a, c', rfl, hc'⟩
        · exact Or.inr ⟨c :: a, c', d, b, rfl, hc', hd⟩
      by_cases hc : sep c = true
      · rw [if_pos hc, List.tail_cons, hs] at h
        rcases List.mem_cons.mp h with hr | hrs
        · rcases head_splitOnP_eq_nil (hr ▸ hs) with rfl | ⟨d, t, rfl, hd⟩
          · exact Or.inl ⟨[], c, rfl, hc⟩
          · exact Or.inr ⟨[], c, d, t, rfl, hc, hd⟩
        · exact htail hrs
      · rw [if_neg hc, hs, List.modifyHead_cons, List.tail_cons] at h
        exact htail h

/-- A string that neither begins nor ends with a separator has one run more
than separators exactly when no two separators stand side by side. -/
theorem length_runs_eq_iff {sep : Byte → Bool} {s : CStr} (hne : s ≠ [])
    (hfirst : sep (s.head hne) = false) (hlast : sep (s.getLast hne) = false) :
    (runs sep s).length = s.countP sep + 1 ↔ ¬ Adjacent sep s := by
  rw [← length_splitOnP, runs, List.length_filter_eq_length_iff]
  constructor
  · rintro hall ⟨a, c, d, b, rfl, hc, hd⟩
    have := hall [] (by
      rw [List.splitOnP_append_cons _ _ hc, List.splitOnP_cons_eq_if_modifyHead, if_pos hd]
      simp)
    simp at this
  · intro hadj w hw
    match hs : s.splitOnP sep with
    | [] => exact absurd hs (List.splitOnP_ne_nil _ _)
    | r :: rs =>
      by_contra hwe
      obtain rfl : w = [] := by simpa using hwe
      rw [hs] at hw
      rcases List.mem_cons.mp hw with rfl | hrs
      · rcases head_splitOnP_eq_nil hs with rfl | ⟨d, t, rfl, hd⟩
        · exact hne rfl
        · rw [List.head_cons, hd] at hfirst
          cases hfirst
      · rcases nil_mem_tail_splitOnP (s := s) (by rw [hs]; exact hrs) with ⟨a, c, rfl, hc⟩ | h
        · rw [List.getLast_append_singleton, hc] at hlast
          cases hlast
        · exact hadj h

/-! ## Numbers -/

/-- `isdigit`. -/
def isdigit (c : Byte) : Bool := 48 ≤ c && c ≤ 57

/-- The value of the digits `s` begins with. -/
def digits (s : CStr) : Nat :=
  (s.takeWhile isdigit).foldl (fun n c => 10 * n + (c.toNat - 48)) 0

/-- `strtol` in base ten with a 64-bit `long`: blanks, a sign, digits; a value
out of range is cut off at the nearest bound. -/
def strtol (s : CStr) : Int :=
  match s.dropWhile isspace with
  | 45 :: t => max (-(digits t : Int)) (-2 ^ 63)
  | 43 :: t => min (digits t : Int) (2 ^ 63 - 1)
  | t => min (digits t : Int) (2 ^ 63 - 1)

/-- `atoi`: the `long` of `strtol` converted to a 32-bit `int`. -/
def atoi (s : CStr) : Int := (strtol s).bmod (2 ^ 32)

example : (["7", " +42x", "-1", "", "4294967297"].map fun s => atoi (lit s)) =
    [7, 42, -1, 0, 1] := by
  decide

end MyFtp.Posix
