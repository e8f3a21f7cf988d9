import MyFtp.Posix.CStr

/-!
# `utils.c`

The string and port helpers. They change their argument in place and return
it; here they return the changed string.
-/

namespace MyFtp.Server

open MyFtp.Posix

/-- `touppercase`. -/
def touppercase (str : CStr) : CStr := str.map fun c => if 97 ≤ c ∧ c ≤ 122 then c - 32 else c

/-- `merge_port`. -/
def mergePort (p₀ p₁ : Int) : Int :=
  if p₀ < 0 ∨ p₀ > 255 ∨ p₁ < 0 ∨ p₁ > 255 then -1 else p₀ * 256 + p₁

/-- `split_port`; `none` for the null pointer. -/
def splitPort (port : Int) : Option (Int × Int) :=
  if port < 0 ∨ port > 65535 then none else some (port / 256, port % 256)

/-- A second time `touppercase` finds nothing to change. -/
theorem touppercase_touppercase (str : CStr) : touppercase (touppercase str) = touppercase str := by
  unfold touppercase
  rw [List.map_map]
  refine List.map_congr_left fun c _ => ?_
  rw [Function.comp_apply]
  by_cases h : 97 ≤ c ∧ c ≤ 122
  · have hupper : ¬ (97 ≤ c - 32 ∧ c - 32 ≤ 122) := by grind
    simp only [if_pos h, if_neg hupper]
  · simp only [if_neg h]

/-- A port has its two parts. -/
theorem splitPort_port (port : UInt16) :
    splitPort port.toNat =
      some (((port.toNat / 256 : Nat) : Int), ((port.toNat % 256 : Nat) : Int)) := by
  have hport : port.toNat < 2 ^ 16 := port.toNat_lt
  unfold splitPort
  rw [if_neg (by omega)]
  rfl

/-- `trim`. The second loop of the source also stops at the first byte kept by
the first one; that byte is not a blank, so the bound never decides. -/
def trim (str : CStr) : CStr := (str.dropWhile isspace).rdropWhile isspace

/-! ## `trim` -/

theorem trim_eq_nil_iff {s : CStr} : trim s = [] ↔ ∀ c ∈ s, isspace c = true := by
  rw [trim, List.rdropWhile_eq_nil_iff]
  constructor
  · intro h c hc
    rw [← List.takeWhile_append_dropWhile (p := isspace) (l := s)] at hc
    rcases List.mem_append.mp hc with hc | hc
    · exact List.mem_takeWhile_imp hc
    · exact h c hc
  · intro h c hc
    exact h c ((List.dropWhile_suffix isspace).subset hc)

/-- What is kept does not begin with a blank. -/
theorem head_trim {s : CStr} (hne : trim s ≠ []) : isspace ((trim s).head hne) = false := by
  have hdrop : s.dropWhile isspace ≠ [] := by
    intro h
    exact hne (by rw [trim, h, List.rdropWhile_nil])
  have h : (trim s).head hne = (s.dropWhile isspace).head hdrop :=
    List.IsPrefix.head (List.rdropWhile_prefix isspace (s.dropWhile isspace)) hne
  rw [h]
  exact List.head_dropWhile_not isspace hdrop

/-- What is kept does not end with a blank. -/
theorem getLast_trim {s : CStr} (hne : trim s ≠ []) : isspace ((trim s).getLast hne) = false := by
  have h := List.rdropWhile_last_not isspace (s.dropWhile isspace) hne
  rwa [Bool.not_eq_true] at h

/-- What is cut off at either end is blank. -/
theorem exists_append_trim (s : CStr) : ∃ a b, s = a ++ trim s ++ b := by
  refine ⟨s.takeWhile isspace, (s.dropWhile isspace).rtakeWhile isspace, ?_⟩
  rw [trim, List.append_assoc, List.rdropWhile_append_rtakeWhile, List.takeWhile_append_dropWhile]

/-- Around something that is kept on both sides, `trim` cuts each side alone. -/
theorem trim_append {a m b : CStr} (ha : ∃ c ∈ a, isspace c = false)
    (hb : ∃ c ∈ b, isspace c = false) :
    trim (a ++ m ++ b) = a.dropWhile isspace ++ m ++ b.rdropWhile isspace := by
  have hleft : a.dropWhile isspace ≠ [] := by
    obtain ⟨c, hc, hsp⟩ := ha
    intro h
    rw [List.dropWhile_eq_nil_iff] at h
    rw [h c hc] at hsp
    cases hsp
  have hright : b.reverse.dropWhile isspace ≠ [] := by
    obtain ⟨c, hc, hsp⟩ := hb
    intro h
    rw [List.dropWhile_eq_nil_iff] at h
    rw [h c (List.mem_reverse.mpr hc)] at hsp
    cases hsp
  rw [trim, List.append_assoc, List.dropWhile_append,
    if_neg (by rwa [List.isEmpty_iff]), List.rdropWhile, ← List.append_assoc, List.reverse_append,
    List.dropWhile_append, if_neg (by rwa [List.isEmpty_iff]), List.reverse_append,
    List.reverse_reverse, List.rdropWhile]

end MyFtp.Server
