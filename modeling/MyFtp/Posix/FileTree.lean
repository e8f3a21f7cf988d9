import Mathlib.Data.Finmap
import MyFtp.Posix.Path

/-!
# File trees and path resolution

A file tree is a finite map from canonical paths to entries. Two facts are part
of the type: the root is a directory, and whatever has an entry lies in a
directory. Permissions are the ones the calling process has.

A process's current directory is a `Path` too. It need not be in the tree: a
directory may be removed while a process stands in it. Such a directory still
resolves as `.`, its `..` is still the directory it was in, and no name is
found in it — which is what the rules of `walkSeg` give, because nothing in the
tree lies under a path that is not a directory.

Names and paths have no length limit here, and nothing is ever mounted.
-/

namespace MyFtp.Posix

/-- What the process may do with an entry. -/
structure Perm where
  r : Bool
  w : Bool
  x : Bool
  deriving DecidableEq

/-- Every permission. -/
def Perm.all : Perm := ⟨true, true, true⟩

/-- What a file created with mode 0666 allows its owner. -/
def Perm.rw : Perm := ⟨true, true, false⟩

/-- A directory entry. The target of a symbolic link is any string. -/
inductive Entry
  | dir (perm : Perm)
  | file (perm : Perm) (content : List Byte)
  | link (target : CStr)
  deriving DecidableEq

/-- A file tree: the root is a directory, and every entry lies in one. -/
structure FileTree where
  entries : Finmap fun _ : Path => Entry
  root : ∃ perm, entries.lookup [] = some (.dir perm)
  parents : ∀ (p : Path) (n : Name), p ++ [n] ∈ entries → ∃ perm, entries.lookup p = some (.dir perm)
  deriving DecidableEq

namespace FileTree

/-- The entry at a path. -/
def lookup (t : FileTree) (p : Path) : Option Entry := t.entries.lookup p

/-- There is a directory at the path. -/
def isDir (t : FileTree) (p : Path) : Bool :=
  match t.lookup p with
  | some (.dir _) => true
  | _ => false

/-- The process may look names up from the directory it stands in. -/
def searchable (t : FileTree) (p : Path) : Bool :=
  match t.lookup p with
  | some (.dir perm) => perm.x
  | _ => true

/-- The process may list the directory it has reached. -/
def listable (t : FileTree) (p : Path) : Bool :=
  match t.lookup p with
  | some (.dir perm) => perm.r
  | _ => true

/-- The process may create and remove entries of the directory. -/
def writable (t : FileTree) (p : Path) : Bool :=
  match t.lookup p with
  | some (.dir perm) => perm.w
  | _ => false

/-- Some entry lies directly in `p`. -/
def hasChild (t : FileTree) (p : Path) : Bool :=
  decide (∃ q ∈ t.entries.keys, q ≠ [] ∧ q.dropLast = p)

@[ext] theorem ext {t t' : FileTree} (h : ∀ p, t.lookup p = t'.lookup p) : t = t' := by
  obtain ⟨e, _, _⟩ := t
  obtain ⟨e', _, _⟩ := t'
  obtain rfl : e = e' := Finmap.ext_lookup h
  rfl

theorem isDir_iff {t : FileTree} {p : Path} :
    t.isDir p = true ↔ ∃ perm, t.lookup p = some (.dir perm) := by
  unfold isDir
  split
  next perm h => simp [h]
  next h =>
    constructor
    · intro hf
      cases hf
    · rintro ⟨perm, hp⟩
      exact absurd hp (h perm)

theorem isDir_root (t : FileTree) : t.isDir [] = true := isDir_iff.mpr t.root

/-- What has an entry lies in a directory. -/
theorem isDir_of_lookup {t : FileTree} {p : Path} {n : Name} {e : Entry}
    (h : t.lookup (p ++ [n]) = some e) : t.isDir p = true :=
  isDir_iff.mpr (t.parents p n (Finmap.mem_of_lookup_eq_some h))

/-- Everything above an entry is a directory. -/
theorem isDir_of_append {t : FileTree} {p q : Path} {e : Entry} (hq : q ≠ [])
    (h : t.lookup (p ++ q) = some e) : t.isDir p = true := by
  induction q using List.reverseRecOn generalizing e with
  | nil => exact absurd rfl hq
  | append_singleton q n ih =>
    rw [← List.append_assoc] at h
    by_cases hq' : q = []
    · rw [hq', List.append_nil] at h
      exact isDir_of_lookup h
    · obtain ⟨perm, hd⟩ := isDir_iff.mp (isDir_of_lookup h)
      exact ih hq' hd

theorem hasChild_eq_false {t : FileTree} {p : Path} (h : t.hasChild p = false) (n : Name) :
    t.lookup (p ++ [n]) = none := by
  by_contra hne
  have hmem : p ++ [n] ∈ t.entries.keys := by
    rw [Finmap.mem_keys]
    exact Finmap.lookup_isSome.mp (Option.isSome_iff_ne_none.mpr hne)
  have : ∃ q ∈ t.entries.keys, q ≠ [] ∧ q.dropLast = p :=
    ⟨p ++ [n], hmem, by simp, List.dropLast_concat⟩
  rw [hasChild, decide_eq_false_iff_not] at h
  exact h this

/-- Nothing but the root directory. -/
def bare : FileTree :=
  { entries := Finmap.singleton [] (.dir .all)
    root := ⟨.all, Finmap.lookup_singleton_eq⟩
    parents := by
      intro p n h
      rw [Finmap.mem_singleton] at h
      simp at h }

/-! ## Changing a tree -/

/-- Put an entry into a directory, over anything but a directory. -/
def put (t : FileTree) (d : Path) (n : Name) (e : Entry) : FileTree :=
  if h : t.isDir d = true ∧ t.isDir (d ++ [n]) = false then
    { entries := t.entries.insert (d ++ [n]) e
      root := by
        rw [Finmap.lookup_insert_of_ne _ (by simp)]
        exact t.root
      parents := by
        intro p m hp
        have hp' : t.isDir p = true := by
          rcases Finmap.mem_insert.mp hp with he | hold
          · obtain rfl : p = d := (List.append_inj' he rfl).1
            exact h.1
          · obtain ⟨e', he'⟩ := Finmap.mem_iff.mp hold
            exact isDir_of_lookup he'
        have hne : p ≠ d ++ [n] := by
          rintro rfl
          rw [h.2] at hp'
          cases hp'
        rw [Finmap.lookup_insert_of_ne _ hne]
        exact isDir_iff.mp hp' }
  else t

/-- Take an entry out, unless something lies in it. -/
def drop (t : FileTree) (p : Path) : FileTree :=
  if h : p ≠ [] ∧ t.hasChild p = false then
    { entries := t.entries.erase p
      root := by
        rw [Finmap.lookup_erase_ne h.1.symm]
        exact t.root
      parents := by
        intro q m hq
        obtain ⟨hne, hold⟩ := Finmap.mem_erase.mp hq
        obtain ⟨e, he⟩ := Finmap.mem_iff.mp hold
        have hqp : q ≠ p := by
          rintro rfl
          have := hasChild_eq_false h.2 m
          rw [lookup, he] at this
          cases this
        rw [Finmap.lookup_erase_ne hqp]
        exact t.parents q m hold }
  else t

theorem lookup_put {t : FileTree} {d : Path} {n : Name} (e : Entry) (hd : t.isDir d = true)
    (hn : t.isDir (d ++ [n]) = false) (p : Path) :
    (t.put d n e).lookup p = if p = d ++ [n] then some e else t.lookup p := by
  rw [put, dif_pos ⟨hd, hn⟩]
  split
  next h => rw [h]; exact Finmap.lookup_insert _
  next h => exact Finmap.lookup_insert_of_ne _ h

theorem lookup_drop {t : FileTree} {p : Path} (hp : p ≠ []) (hc : t.hasChild p = false)
    (q : Path) : (t.drop p).lookup q = if q = p then none else t.lookup q := by
  rw [drop, dif_pos ⟨hp, hc⟩]
  split
  next h => rw [h]; exact Finmap.lookup_erase _ _
  next h => exact Finmap.lookup_erase_ne h

/-- The directories and links of `t'` were there in `t`: nothing but files has
been created in between. -/
def Later (t t' : FileTree) : Prop :=
  ∀ p, (∀ perm, t'.lookup p = some (.dir perm) → t.lookup p = some (.dir perm)) ∧
    ∀ target, t'.lookup p = some (.link target) → t.lookup p = some (.link target)

theorem later_refl (t : FileTree) : Later t t := fun _ => ⟨fun _ h => h, fun _ h => h⟩

theorem later_trans {t t' t'' : FileTree} (h : Later t t') (h' : Later t' t'') : Later t t'' :=
  fun p => ⟨fun perm hp => (h p).1 perm ((h' p).1 perm hp),
    fun target hp => (h p).2 target ((h' p).2 target hp)⟩

theorem later_put (t : FileTree) (d : Path) (n : Name) (perm : Perm) (content : List Byte) :
    Later t (t.put d n (.file perm content)) := by
  by_cases h : t.isDir d = true ∧ t.isDir (d ++ [n]) = false
  · intro p
    rw [lookup_put _ h.1 h.2]
    split
    next => exact ⟨fun _ h => by simp at h, fun _ h => by simp at h⟩
    next => exact ⟨fun _ h => h, fun _ h => h⟩
  · rw [put, dif_neg h]
    exact later_refl t

theorem later_drop (t : FileTree) (p : Path) : Later t (t.drop p) := by
  by_cases h : p ≠ [] ∧ t.hasChild p = false
  · intro q
    rw [lookup_drop h.1 h.2]
    split
    next => exact ⟨fun _ h => by simp at h, fun _ h => by simp at h⟩
    next => exact ⟨fun _ h => h, fun _ h => h⟩
  · rw [drop, dif_neg h]
    exact later_refl t

theorem Later.isDir {t t' : FileTree} (h : Later t t') {p : Path} (hp : t'.isDir p = true) :
    t.isDir p = true := by
  obtain ⟨perm, hperm⟩ := isDir_iff.mp hp
  exact isDir_iff.mpr ⟨perm, (h p).1 perm hperm⟩

end FileTree

end MyFtp.Posix
