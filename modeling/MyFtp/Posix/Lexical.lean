import MyFtp.Posix.Store

/-!
# What a path name spells

A path name can be read without a tree: `.` stays, `..` drops the last name, any
other component adds one. Symbolic links are all that a look-up can come across
that this reading knows nothing of.

> `find_spelled`: in a tree without symbolic links, what a look-up ends at is what
> the name spells.
-/

namespace MyFtp.Posix

/-- Where a component leads, by its spelling. -/
def Comp.apply (p : Path) : Comp → Path
  | .self => p
  | .parent => p.dropLast
  | .name n => p ++ [n]

/-- What a path name spells, read from the directory `d`. -/
def spelled (d : Path) (s : CStr) : Path :=
  match parse s with
  | none => d
  | some pn => pn.comps.foldl Comp.apply (if pn.absolute then [] else d)

/-- The path a look-up ends at. -/
def Found.path : Found → Path
  | .dir p => p
  | .entry d n => d ++ [n]
  | .missing d n => d ++ [n]

/-- The path `p` lies in the directory `r`, at any depth. -/
def StrictlyBelow (r p : Path) : Prop := r <+: p ∧ r ≠ p

instance (r p : Path) : Decidable (StrictlyBelow r p) := inferInstanceAs (Decidable (_ ∧ _))

namespace FileTree

/-- There is no symbolic link in the tree. -/
def LinkFree (t : FileTree) : Prop := ∀ p target, t.lookup p ≠ some (.link target)

section

variable {t t' : FileTree} {cwd : Path} {s : CStr}

theorem LinkFree.later (h : t.LinkFree) (hl : Later t t') : t'.LinkFree :=
  fun p target hp => h p target ((hl p).2 target hp)

theorem linkFree_bare : bare.LinkFree := by
  intro p target hp
  by_cases h : p = []
  · obtain ⟨perm, hroot⟩ := bare.root
    rw [h, lookup, hroot] at hp
    cases hp
  · have hmem : p ∈ bare.entries := Finmap.mem_of_lookup_eq_some hp
    exact h ((Finmap.mem_singleton _ _ _).mp hmem)

theorem LinkFree.put (h : t.LinkFree) (d : Path) (n : Name) {e : Entry}
    (he : ∀ target, e ≠ .link target) : (t.put d n e).LinkFree := by
  intro p target hp
  by_cases hd : t.isDir d = true ∧ t.isDir (d ++ [n]) = false
  · rw [lookup_put _ hd.1 hd.2] at hp
    split at hp
    next => exact he target (Option.some.inj hp)
    next => exact h p target hp
  · rw [FileTree.put, dif_neg hd] at hp
    exact h p target hp

/-- Component by component the look-up follows the spelling: no case leaves it but that
of a link. -/
theorem walkSeg_spelled (h : t.LinkFree) {follow mustDir : Bool}
    {next : Path → List Comp → Bool → Option Found} {found : Found} :
    ∀ (comps : List Comp) (cur : Path),
      t.walkSeg follow next mustDir cur comps = some found →
        found.path = comps.foldl Comp.apply cur
  | [], cur, hw => by
    rw [walkSeg] at hw
    cases hw
    rfl
  | .self :: rest, cur, hw => by
    rw [walkSeg] at hw
    split at hw
    next => exact walkSeg_spelled h rest cur hw
    next => cases hw
  | .parent :: rest, cur, hw => by
    rw [walkSeg] at hw
    split at hw
    next => exact walkSeg_spelled h rest cur.dropLast hw
    next => cases hw
  | .name n :: rest, cur, hw => by
    rw [walkSeg] at hw
    split at hw
    next =>
      split at hw
      next => exact walkSeg_spelled h rest (cur ++ [n]) hw
      next =>
        split at hw
        next hend =>
          cases hw
          rw [hend.1]
          rfl
        next => cases hw
      next target hlink => exact absurd hlink (h _ target)
      next =>
        split at hw
        next hend =>
          cases hw
          rw [hend.1]
          rfl
        next => cases hw
    next => cases hw

theorem walk_spelled (h : t.LinkFree) {follow mustDir : Bool} {links : Nat} {comps : List Comp}
    {found : Found} (hw : t.walk follow links cwd comps mustDir = some found) :
    found.path = comps.foldl Comp.apply cwd := by
  obtain ⟨next, hnext⟩ := t.walk_succ_or_zero follow links
  rw [hnext] at hw
  exact walkSeg_spelled h comps cwd hw

theorem find_spelled (h : t.LinkFree) {follow : Bool} {found : Found}
    (hf : t.find follow cwd s = some found) : found.path = spelled cwd s := by
  unfold find at hf
  unfold spelled
  cases hp : parse s with
  | none =>
    rw [hp] at hf
    cases hf
  | some pn =>
    rw [hp] at hf
    exact walk_spelled h hf

/-- The file a name opens for reading. -/
theorem openRead_spelled (h : t.LinkFree) {p : Path} {content : List Byte}
    (ho : t.openRead cwd s = some (.regular p content)) :
    p = spelled cwd s ∧ ∃ perm, t.lookup p = some (.file perm content) := by
  unfold openRead at ho
  split at ho
  next => split at ho <;> cases ho
  next d n hf =>
    split at ho
    next perm content' hlookup =>
      split at ho
      next =>
        cases ho
        exact ⟨find_spelled h hf, perm, hlookup⟩
      next => cases ho
    next => cases ho
  next => cases ho

/-- The file a name opens for writing. -/
theorem openWrite_spelled (h : t.LinkFree) {target : Target}
    (ho : t.openWrite cwd s = some target) : target.path = spelled cwd s := by
  unfold openWrite at ho
  split at ho
  next d n hf =>
    split at ho
    next =>
      split at ho
      next =>
        cases ho
        exact find_spelled h hf
      next => cases ho
    next => cases ho
  next d n hf =>
    split at ho
    next =>
      cases ho
      exact find_spelled h hf
    next => cases ho
  next => cases ho

/-- The entry a name removes. -/
theorem removable_spelled (h : t.LinkFree) {p : Path} (hr : t.removable cwd s = some p) :
    p = spelled cwd s := by
  unfold removable at hr
  unfold spelled
  cases hp : parse s with
  | none =>
    rw [hp] at hr
    cases hr
  | some pn =>
    rw [hp] at hr
    dsimp only at hr ⊢
    split at hr
    next =>
      split at hr
      next d n hw =>
        split at hr
        next =>
          cases hr
          exact walk_spelled h hw
        next => cases hr
      next q hw =>
        split at hr
        next =>
          cases hr
          exact walk_spelled h hw
        next => cases hr
      next => cases hr
    next => cases hr

/-- Storing a file changes nothing elsewhere. -/
theorem lookup_store_of_ne {target : Target} {content : List Byte} {p : Path}
    (hp : p ≠ target.path) : (t.store target content).lookup p = t.lookup p := by
  unfold store
  by_cases h : t.isDir target.dir = true ∧ t.isDir (target.dir ++ [target.name]) = false
  · rw [lookup_put _ h.1 h.2]
    exact if_neg hp
  · rw [put, dif_neg h]

/-- Nor does removing one. -/
theorem lookup_drop_of_ne {p q : Path} (hp : p ≠ q) : (t.drop q).lookup p = t.lookup p := by
  by_cases h : q ≠ [] ∧ t.hasChild q = false
  · rw [lookup_drop h.1 h.2, if_neg hp]
  · rw [drop, dif_neg h]

end

end FileTree

end MyFtp.Posix
