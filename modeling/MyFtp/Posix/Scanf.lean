import MyFtp.Posix.CStr

/-!
# Printing and reading numbers

`%d` in both directions. A natural number is printed as its decimal digits,
which is what `toString` yields; `atoi` and the `%d` of `sscanf` read the digits
a string begins with.

> `atoi_toString`, `scanInt_toString`: what was printed is read back, whatever
> comes behind it that is no digit.

> `sscanf_numbers`: numbers printed with a separator between them are read back
> by the format with `%d` in their places.
-/

namespace MyFtp.Posix

/-! ## `sscanf` -/

/-- What is left for the digits of a number: blanks and one sign are passed. -/
def afterSign (s : CStr) : CStr :=
  match s.dropWhile isspace with
  | 45 :: t => t
  | 43 :: t => t
  | t => t

/-- The conversion `%d`: the number and the rest of the input, or nothing when no
digit is there. The value is stored as `atoi` would compute it. -/
def scanInt (s : CStr) : Option (Int × CStr) :=
  if (afterSign s).takeWhile isdigit = [] then none
  else some (atoi s, (afterSign s).dropWhile isdigit)

/-- `sscanf(input, format, …)` for formats whose only conversion is `%d`: the
numbers stored, in order, up to the first place where the input does not
match. A blank in the format stands for any number of blanks. -/
def sscanf : CStr → CStr → List Int
  | [], _ => []
  | 37 :: 100 :: format, input =>
    match scanInt input with
    | none => []
    | some (n, rest) => n :: sscanf format rest
  | c :: format, input =>
    if isspace c then sscanf format (input.dropWhile isspace)
    else
      match input with
      | [] => []
      | b :: rest => if b = c then sscanf format rest else []

example : sscanf (lit "at %d, %d") (lit "at  7,-1") = [7, -1] := by decide

/-! ## Digits -/

/-- A string that goes on with something that is no digit, or ends. -/
def NoDigit (rest : CStr) : Prop := ∀ c ∈ rest.head?, isdigit c = false

theorem lit_toString (n : Nat) :
    lit (toString n) = (Nat.toDigits 10 n).map fun c => UInt8.ofNat c.toNat := by
  unfold lit
  rw [Nat.toString_eq_repr, Nat.toList_repr]

/-- The byte of a digit is a digit of the same value. -/
theorem byte_of_isDigit {c : Char} (h : c.isDigit = true) :
    isdigit (UInt8.ofNat c.toNat) = true ∧ (UInt8.ofNat c.toNat).toNat = c.toNat := by
  have hc : 48 ≤ c.toNat ∧ c.toNat ≤ 57 := by
    rw [Char.isDigit] at h
    simp only [ge_iff_le, Bool.and_eq_true, decide_eq_true_eq] at h
    exact ⟨h.1, h.2⟩
  have hlt : c.toNat < 256 := by omega
  have hnat : (UInt8.ofNat c.toNat).toNat = c.toNat := by
    rw [UInt8.toNat_ofNat', Nat.mod_eq_of_lt hlt]
  refine ⟨?_, hnat⟩
  unfold isdigit
  rw [Bool.and_eq_true, decide_eq_true_eq, decide_eq_true_eq, UInt8.le_iff_toNat_le,
    UInt8.le_iff_toNat_le, hnat]
  exact hc

theorem isdigit_toString {n : Nat} : ∀ c ∈ lit (toString n), isdigit c = true := by
  intro c hc
  rw [lit_toString] at hc
  obtain ⟨d, hd, rfl⟩ := List.mem_map.mp hc
  exact (byte_of_isDigit (Nat.isDigit_of_mem_toDigits (by decide) (by decide) hd)).1

theorem toString_ne_nil (n : Nat) : lit (toString n) ≠ [] := by
  rw [lit_toString]
  intro h
  exact Nat.toDigits_ne_nil (List.map_eq_nil_iff.mp h)

/-- Behind digits the first byte that is no digit ends them. -/
theorem takeWhile_digits {ds rest : CStr} (hds : ∀ c ∈ ds, isdigit c = true)
    (hrest : NoDigit rest) :
    (ds ++ rest).takeWhile isdigit = ds ∧ (ds ++ rest).dropWhile isdigit = rest := by
  have hstop : rest.takeWhile isdigit = [] ∧ rest.dropWhile isdigit = rest := by
    cases rest with
    | nil => exact ⟨rfl, rfl⟩
    | cons c rest =>
      have hc : isdigit c = false := hrest c rfl
      rw [List.takeWhile_cons, List.dropWhile_cons, hc]
      exact ⟨rfl, rfl⟩
  rw [List.takeWhile_append_of_pos hds, List.dropWhile_append_of_pos hds, hstop.1, hstop.2]
  exact ⟨List.append_nil ds, rfl⟩

/-- The digits of a number are its value. -/
theorem digits_toString (n : Nat) {rest : CStr} (hrest : NoDigit rest) :
    digits (lit (toString n) ++ rest) = n := by
  unfold digits
  rw [(takeWhile_digits isdigit_toString hrest).1, lit_toString, List.foldl_map]
  have hsame : ∀ (l : List Char) (m : Nat), (∀ c ∈ l, c.isDigit = true) →
      l.foldl (fun n c => 10 * n + ((UInt8.ofNat c.toNat).toNat - 48)) m =
        Nat.ofDigitChars 10 l m := by
    intro l
    induction l with
    | nil => intro m _; rfl
    | cons c l ih =>
      intro m hl
      rw [List.foldl_cons, (byte_of_isDigit (hl c List.mem_cons_self)).2,
        ih _ fun d hd => hl d (List.mem_cons_of_mem c hd), Nat.ofDigitChars_cons]
      rfl
  rw [hsame _ _ fun c hc => Nat.isDigit_of_mem_toDigits (by decide) (by decide) hc]
  exact Nat.ofDigitChars_ten_toDigits

/-- A digit is neither a blank nor a sign. -/
theorem not_blank_of_isdigit {c : Byte} (h : isdigit c = true) :
    isspace c = false ∧ c ≠ 45 ∧ c ≠ 43 := by
  unfold isdigit at h
  rw [Bool.and_eq_true, decide_eq_true_eq, decide_eq_true_eq, UInt8.le_iff_toNat_le,
    UInt8.le_iff_toNat_le] at h
  have h₁ : 48 ≤ c.toNat := h.1
  refine ⟨?_, ?_, ?_⟩
  · unfold isspace
    rw [Bool.or_eq_false_iff, Bool.and_eq_false_iff, beq_eq_false_iff_ne, decide_eq_false_iff_not,
      decide_eq_false_iff_not]
    refine ⟨?_, .inr ?_⟩
    · rintro rfl
      exact absurd h₁ (by decide)
    · intro hle
      have hle : c.toNat ≤ 13 := UInt8.le_iff_toNat_le.mp hle
      omega
  · rintro rfl
    exact absurd h₁ (by decide)
  · rintro rfl
    exact absurd h₁ (by decide)

/-- `atoi` on a string that begins with a digit. -/
theorem atoi_of_digit {s : CStr} (hne : s ≠ []) (hdigit : isdigit (s.head hne) = true)
    (hlt : digits s < 2 ^ 31) : atoi s = digits s := by
  cases s with
  | nil => exact absurd rfl hne
  | cons c t =>
    obtain ⟨hblank, hminus, hplus⟩ := not_blank_of_isdigit hdigit
    rw [List.head_cons] at hblank hminus hplus
    have hdrop : (c :: t).dropWhile isspace = c :: t := by
      rw [List.dropWhile_cons, hblank]
      rfl
    have hstrtol : strtol (c :: t) = digits (c :: t) := by
      unfold strtol
      rw [hdrop]
      split
      next heq => exact absurd (List.cons.inj heq).1 hminus
      next heq => exact absurd (List.cons.inj heq).1 hplus
      next => omega
    rw [atoi, hstrtol]
    exact Int.bmod_eq_of_le (by omega) (by omega)

/-- In front of a printed number there is nothing to pass. -/
theorem dropWhile_toString (n : Nat) (rest : CStr) :
    ∃ c t, lit (toString n) ++ rest = c :: t ∧ c ≠ 45 ∧ c ≠ 43 ∧
      (lit (toString n) ++ rest).dropWhile isspace = c :: t := by
  match h : lit (toString n) with
  | [] => exact absurd h (toString_ne_nil n)
  | c :: t =>
    have hc : isdigit c = true := isdigit_toString c (by rw [h]; exact List.mem_cons_self)
    obtain ⟨hblank, hminus, hplus⟩ := not_blank_of_isdigit hc
    refine ⟨c, t ++ rest, rfl, hminus, hplus, ?_⟩
    rw [List.cons_append, List.dropWhile_cons, hblank]
    rfl

theorem afterSign_toString (n : Nat) (rest : CStr) :
    afterSign (lit (toString n) ++ rest) = lit (toString n) ++ rest := by
  obtain ⟨c, t, h, hminus, hplus, hdrop⟩ := dropWhile_toString n rest
  unfold afterSign
  rw [hdrop, h]
  split
  next heq => exact absurd (List.cons.inj heq).1 hminus
  next heq => exact absurd (List.cons.inj heq).1 hplus
  next => rfl

theorem strtol_toString {n : Nat} (hn : n < 2 ^ 63) {rest : CStr} (hrest : NoDigit rest) :
    strtol (lit (toString n) ++ rest) = n := by
  obtain ⟨c, t, h, hminus, hplus, hdrop⟩ := dropWhile_toString n rest
  have hdigits := digits_toString n hrest
  unfold strtol
  rw [hdrop]
  split
  next heq => exact absurd (List.cons.inj heq).1 hminus
  next heq => exact absurd (List.cons.inj heq).1 hplus
  next =>
    rw [← h, hdigits]
    omega

/-- `atoi` reads what was printed. -/
theorem atoi_toString {n : Nat} (hn : n < 2 ^ 31) {rest : CStr} (hrest : NoDigit rest) :
    atoi (lit (toString n) ++ rest) = n := by
  unfold atoi
  rw [strtol_toString (by omega) hrest]
  exact Int.bmod_eq_of_le (by omega) (by omega)

/-- `%d` reads what was printed, and leaves the rest. -/
theorem scanInt_toString {n : Nat} (hn : n < 2 ^ 31) {rest : CStr} (hrest : NoDigit rest) :
    scanInt (lit (toString n) ++ rest) = some ((n : Int), rest) := by
  have htake := takeWhile_digits (isdigit_toString (n := n)) hrest
  unfold scanInt
  rw [afterSign_toString, htake.1, htake.2, if_neg (toString_ne_nil n), atoi_toString hn hrest]

/-! ## Several numbers -/

/-- Numbers as text, with the byte `sep` between them. -/
def numbers (sep : Byte) (l : List Nat) : CStr :=
  List.intercalate [sep] (l.map fun n => lit (toString n))

/-- The format that reads `k` numbers with the byte `sep` between them. -/
def numbersFormat (sep : Byte) (k : Nat) : CStr :=
  List.intercalate [sep] (List.replicate k (lit "%d"))

theorem numbers_singleton (sep : Byte) (n : Nat) : numbers sep [n] = lit (toString n) := by
  simp [numbers]

theorem numbers_cons_cons (sep : Byte) (n m : Nat) (l : List Nat) :
    numbers sep (n :: m :: l) = lit (toString n) ++ sep :: numbers sep (m :: l) := by
  simp [numbers, List.intercalate_cons_cons]

/-- The text of numbers holds digits and separators only. -/
theorem mem_numbers {sep : Byte} {l : List Nat} :
    ∀ c ∈ numbers sep l, isdigit c = true ∨ c = sep := by
  induction l with
  | nil => intro c hc; simp [numbers] at hc
  | cons n l ih =>
    intro c hc
    cases l with
    | nil =>
      rw [numbers_singleton] at hc
      exact .inl (isdigit_toString c hc)
    | cons m l =>
      rw [numbers_cons_cons] at hc
      rcases List.mem_append.mp hc with hc | hc
      · exact .inl (isdigit_toString c hc)
      · exact (List.mem_cons.mp hc).elim .inr (ih c)

/-- `sscanf` reads numbers back. -/
theorem sscanf_numbers {sep : Byte} (hsep : isdigit sep = false) (hblank : isspace sep = false)
    (hpercent : sep ≠ 37) {l : List Nat} (hl : ∀ n ∈ l, n < 2 ^ 31) {format rest : CStr}
    (hrest : NoDigit rest) :
    sscanf (numbersFormat sep l.length ++ format) (numbers sep l ++ rest) =
      l.map (fun n : Nat => (n : Int)) ++ sscanf format rest := by
  induction l with
  | nil => rfl
  | cons n l ih =>
    have hn : n < 2 ^ 31 := hl n List.mem_cons_self
    have htail : ∀ m ∈ l, m < 2 ^ 31 := fun m hm => hl m (List.mem_cons_of_mem n hm)
    cases l with
    | nil =>
      show sscanf (37 :: 100 :: format) (numbers sep [n] ++ rest) = _
      rw [numbers_singleton, sscanf, scanInt_toString hn hrest]
      rfl
    | cons m l =>
      have hformat : numbersFormat sep (n :: m :: l).length ++ format =
          37 :: 100 :: sep :: (numbersFormat sep (m :: l).length ++ format) := by
        simp [numbersFormat, List.replicate_succ, List.intercalate_cons_cons]
        rfl
      have hstop : NoDigit (sep :: (numbers sep (m :: l) ++ rest)) := by
        intro c hc
        obtain rfl := Option.some.inj hc
        exact hsep
      rw [hformat, numbers_cons_cons, List.append_assoc, List.cons_append, sscanf,
        scanInt_toString hn hstop]
      dsimp only
      -- the separator of the format meets the one of the text
      have hmatch : ∀ f t, sscanf (sep :: f) (sep :: t) = sscanf f t := by
        intro f t
        rw [sscanf.eq_def]
        split
        next heq => cases heq
        next heq => exact absurd (List.cons.inj heq).1 hpercent
        next heq =>
          obtain ⟨rfl, rfl⟩ := List.cons.inj heq
          rw [hblank]
          simp
      rw [hmatch, ih htail]
      rfl

end MyFtp.Posix
