import Mathlib.Data.List.Basic
import Mathlib.Logic.Function.Basic

/-!
# Several writers and one reader

Some writers have a queue each, and whatever comes first in a queue may be taken next. What one
reader is to get is picked by `p`. If it is all in one queue, the order in which the reader gets
it does not depend on who is faster.

> `OnlyIn p queues due`: what `p` picks is `due`, in one of the queues.

Taking from any queue, refilling a queue with something for other readers, and filling a queue
when nothing is due keep this up.
-/

namespace MyFtp

variable {α β : Type} {p : α → Bool} {queues : Nat → List α} {due l : List α} {j : Nat} {x : α}

/-- What `p` picks out of the queues is `due`, and there is no more than one queue it is in. -/
def OnlyIn (p : α → Bool) (queues : Nat → List α) (due : List α) : Prop :=
  ∃ k, ∀ j, (queues j).filter p = if j = k then due else []

theorem onlyIn_nil_iff : OnlyIn p queues [] ↔ ∀ j, (queues j).filter p = [] := by
  constructor
  · rintro ⟨k, hk⟩ j
    rw [hk j, ite_self]
  · intro h
    exact ⟨0, fun j => by rw [h j, ite_self]⟩

/-- A queue is changed as far as others are concerned. -/
theorem OnlyIn.update (h : OnlyIn p queues due) (hl : l.filter p = (queues j).filter p) :
    OnlyIn p (Function.update queues j l) due := by
  obtain ⟨k, hk⟩ := h
  refine ⟨k, fun i => ?_⟩
  by_cases hi : i = j
  · rw [hi, Function.update_self, hl, hk j]
  · rw [Function.update_of_ne hi, hk i]

/-- A queue is filled when nothing is due. -/
theorem OnlyIn.fill (h : OnlyIn p queues []) :
    OnlyIn p (Function.update queues j l) (l.filter p) := by
  refine ⟨j, fun i => ?_⟩
  by_cases hi : i = j
  · rw [hi, Function.update_self, if_pos rfl]
  · rw [Function.update_of_ne hi, if_neg hi]
    exact onlyIn_nil_iff.mp h i

/-- Something is taken for the reader. -/
theorem OnlyIn.take (h : OnlyIn p queues due) (hj : queues j = x :: l) (hx : p x = true) :
    ∃ due', due = x :: due' ∧ OnlyIn p (Function.update queues j l) due' := by
  obtain ⟨k, hk⟩ := h
  have hpicked : (queues j).filter p = x :: l.filter p := by
    rw [hj, List.filter_cons_of_pos hx]
  -- there is something to be picked, so this is the queue
  have hjk : j = k := by
    by_contra hne
    rw [hk j, if_neg hne] at hpicked
    cases hpicked
  refine ⟨l.filter p, ?_, k, fun i => ?_⟩
  · rw [hk j, if_pos hjk] at hpicked
    exact hpicked
  · by_cases hi : i = j
    · rw [hi, Function.update_self, if_pos hjk]
    · rw [Function.update_of_ne hi, hk i, if_neg (fun hik => hi (hik.trans hjk.symm)),
        if_neg (fun hik => hi (hik.trans hjk.symm))]

/-! ## Taking out one element -/

/-- The others are picked as before. -/
theorem filter_eraseIdx_of_not (hj : l[j]? = some x) (hx : p x = false) :
    (l.eraseIdx j).filter p = l.filter p := by
  induction l generalizing j with
  | nil => rfl
  | cons y l ih =>
    cases j with
    | zero =>
      obtain rfl : y = x := Option.some.inj hj
      rw [List.eraseIdx_cons_zero, List.filter_cons_of_neg (by simp [hx])]
    | succ j =>
      rw [List.eraseIdx_cons_succ, List.filter_cons, List.filter_cons]
      rw [ih (by simpa using hj)]

/-- Where only one element is picked, nothing is after it was taken out. -/
theorem eq_of_filter_eraseIdx {y : α} (hj : l[j]? = some x) (hx : p x = true)
    (h : l.filter p = [y]) : x = y ∧ (l.eraseIdx j).filter p = [] := by
  induction l generalizing j with
  | nil => cases hj
  | cons z l ih =>
    cases j with
    | zero =>
      obtain rfl : z = x := Option.some.inj hj
      rw [List.filter_cons_of_pos hx] at h
      obtain ⟨hzy, hl⟩ := List.cons.inj h
      exact ⟨hzy, hl⟩
    | succ j =>
      have hj' : l[j]? = some x := by simpa using hj
      cases hz : p z with
      | true =>
        -- then there are two
        rw [List.filter_cons_of_pos hz] at h
        have hmem : x ∈ l.filter p := List.mem_filter.mpr ⟨List.mem_of_getElem? hj', hx⟩
        rw [(List.cons.inj h).2] at hmem
        cases hmem
      | false =>
        rw [List.filter_cons_of_neg (by simp [hz])] at h
        obtain ⟨hxy, hl⟩ := ih hj' h
        rw [List.eraseIdx_cons_succ, List.filter_cons_of_neg (by simp [hz])]
        exact ⟨hxy, hl⟩

theorem zip_eraseIdx : ∀ (l : List α) (l' : List β) (j : Nat),
    (l.eraseIdx j).zip (l'.eraseIdx j) = (l.zip l').eraseIdx j
  | [], _, _ => by simp
  | _ :: _, [], _ => by simp
  | _ :: _, _ :: _, 0 => rfl
  | x :: l, y :: l', j + 1 => by
    rw [List.eraseIdx_cons_succ, List.eraseIdx_cons_succ, List.zip_cons_cons, List.zip_cons_cons,
      List.eraseIdx_cons_succ, zip_eraseIdx l l' j]

end MyFtp
