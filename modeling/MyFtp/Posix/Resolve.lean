import MyFtp.Posix.FileTree

/-!
# What a path name resolves to

`walk` follows the components of a path name from a directory: names by
looking them up, `.` and `..`, and symbolic links by going on with their
target — at most `maxLinks` of them, after which the lookup fails as with
`ELOOP`. The system calls that take a path name are stated on top of it, each
as a function of the tree and the caller's current directory.

The two facts everything else needs are about canonical paths and about time:

> `chdir_pathStr`: the string of a canonical path without links leads to that
> path, from wherever it is used.

> `find_later`: what leads to a directory in a later tree led to the same
> directory before (`Later`: only files were created in between).
-/

namespace MyFtp.Posix

open FileTree (Later)

/-- What a lookup ends at: a directory, another entry `n` of the directory `d`,
or a free name `n` in the directory `d`. -/
inductive Found
  | dir (p : Path)
  | entry (d : Path) (n : Name)
  | missing (d : Path) (n : Name)
  deriving DecidableEq

namespace FileTree

/-- Follow components up to the first symbolic link, which is left to `next`.
`mustDir` asks for a directory at the end, `follow` for the target of a link
that comes last. -/
def walkSeg (t : FileTree) (follow : Bool) (next : Path → List Comp → Bool → Option Found)
    (mustDir : Bool) : Path → List Comp → Option Found
  | cur, [] => some (.dir cur)
  | cur, c :: rest =>
    if t.searchable cur then
      match c with
      | .self => walkSeg t follow next mustDir cur rest
      | .parent => walkSeg t follow next mustDir cur.dropLast rest
      | .name n =>
        match t.lookup (cur ++ [n]) with
        | some (.dir _) => walkSeg t follow next mustDir (cur ++ [n]) rest
        | some (.file _ _) => if rest = [] ∧ mustDir = false then some (.entry cur n) else none
        | some (.link target) =>
          if rest = [] ∧ mustDir = false ∧ follow = false then some (.entry cur n)
          else
            match parse target with
            | none => none
            | some pn =>
              next (if pn.absolute then [] else cur) (pn.comps ++ rest)
                (mustDir || (rest.isEmpty && pn.trailing))
        | none =>
          if rest = [] ∧ mustDir = false ∧ t.isDir cur = true then some (.missing cur n) else none
    else none

/-- Follow components through at most `links` symbolic links. -/
def walk (t : FileTree) (follow : Bool) : Nat → Path → List Comp → Bool → Option Found
  | 0, cur, comps, mustDir => walkSeg t follow (fun _ _ _ => none) mustDir cur comps
  | links + 1, cur, comps, mustDir => walkSeg t follow (walk t follow links) mustDir cur comps

/-- How many links one lookup follows. -/
def maxLinks : Nat := 40

/-- Look a path name up from a current directory. -/
def find (t : FileTree) (follow : Bool) (cwd : Path) (s : CStr) : Option Found :=
  match parse s with
  | none => none
  | some pn => walk t follow maxLinks (if pn.absolute then [] else cwd) pn.comps pn.trailing

/-! ## System calls -/

/-- `access(s, F_OK) == 0`. -/
def access (t : FileTree) (cwd : Path) (s : CStr) : Bool :=
  match t.find true cwd s with
  | some (.dir _) | some (.entry _ _) => true
  | _ => false

/-- `access(s, R_OK) == 0`. -/
def accessRead (t : FileTree) (cwd : Path) (s : CStr) : Bool :=
  match t.find true cwd s with
  | some (.dir p) => t.listable p
  | some (.entry d n) =>
    match t.lookup (d ++ [n]) with
    | some (.file perm _) => perm.r
    | _ => false
  | _ => false

/-- `opendir(s) != NULL`. -/
def opendir (t : FileTree) (cwd : Path) (s : CStr) : Bool :=
  match t.find true cwd s with
  | some (.dir p) => t.listable p
  | _ => false

/-- The current directory after `chdir(s)`, if it succeeds. -/
def chdir (t : FileTree) (cwd : Path) (s : CStr) : Option Path :=
  match t.find true cwd s with
  | some (.dir p) => if t.searchable p then some p else none
  | _ => none

/-- Where a process stands after a `chdir` whose result it ignores. -/
def goto (t : FileTree) (cwd : Path) (s : CStr) : Path := (t.chdir cwd s).getD cwd

/-- `getcwd(NULL, 0)`: fails in a directory that was removed. -/
def getcwd (t : FileTree) (cwd : Path) : Option Path := if t.isDir cwd then some cwd else none

/-- What `fopen(s, "r")` opens: a directory, which can be opened but not read,
or a file. -/
inductive Opened
  | directory
  | regular (p : Path) (content : List Byte)
  deriving DecidableEq

/-- `fopen(s, "r")`. -/
def openRead (t : FileTree) (cwd : Path) (s : CStr) : Option Opened :=
  match t.find true cwd s with
  | some (.dir p) => if t.listable p then some .directory else none
  | some (.entry d n) =>
    match t.lookup (d ++ [n]) with
    | some (.file perm content) => if perm.r then some (.regular (d ++ [n]) content) else none
    | _ => none
  | _ => none

/-- A file opened for writing: where it is, and what it allows. -/
structure Target where
  dir : Path
  name : Name
  perm : Perm
  deriving DecidableEq

/-- The file `fopen(s, "wb")` truncates or creates. -/
def openWrite (t : FileTree) (cwd : Path) (s : CStr) : Option Target :=
  match t.find true cwd s with
  | some (.entry d n) =>
    match t.lookup (d ++ [n]) with
    | some (.file perm _) => if perm.w then some ⟨d, n, perm⟩ else none
    | _ => none
  | some (.missing d n) => if t.writable d then some ⟨d, n, .rw⟩ else none
  | _ => none

/-- The tree once the file opened for writing holds `content`. -/
def store (t : FileTree) (target : Target) (content : List Byte) : FileTree :=
  t.put target.dir target.name (.file target.perm content)

/-- What `remove(s)` takes out: a file or a link, or an empty directory named
by its last component. -/
def removable (t : FileTree) (cwd : Path) (s : CStr) : Option Path :=
  match parse s with
  | none => none
  | some pn =>
    match pn.comps.getLast? with
    | some (.name _) =>
      match walk t false maxLinks (if pn.absolute then [] else cwd) pn.comps false with
      | some (.entry d n) =>
        if pn.trailing = false ∧ t.writable d = true then some (d ++ [n]) else none
      | some (.dir p) =>
        if p ≠ [] ∧ t.hasChild p = false ∧ t.writable p.dropLast = true then some p else none
      | _ => none
    | _ => none

/-- The tree after `remove(s)`, if it succeeds. -/
def remove (t : FileTree) (cwd : Path) (s : CStr) : Option FileTree :=
  (t.removable cwd s).map t.drop

/-- A directory that can be opened is there. -/
theorem access_of_opendir {t : FileTree} {cwd : Path} {s : CStr} (h : t.opendir cwd s = true) :
    t.access cwd s = true := by
  unfold opendir at h
  unfold access
  split at h
  next p hp => rw [hp]
  next => cases h

/-! ## Canonical paths -/

/-- No directory on the way to `p`, nor `p` itself, is a symbolic link. -/
def NoLinks (t : FileTree) (p : Path) : Prop :=
  ∀ q, q <+: p → ∀ target, t.lookup q ≠ some (.link target)

theorem noLinks_of_isDir {t : FileTree} {p : Path} (h : t.isDir p = true) : t.NoLinks p := by
  rintro q ⟨r, rfl⟩ target hq
  obtain ⟨perm, hperm⟩ := isDir_iff.mp h
  by_cases hr : r = []
  · rw [hr, List.append_nil, hq] at hperm
    cases hperm
  · obtain ⟨perm', hdir⟩ := isDir_iff.mp (isDir_of_append hr hperm)
    rw [hq] at hdir
    cases hdir

theorem NoLinks.later {t t' : FileTree} {p : Path} (h : t.NoLinks p) (hl : Later t t') :
    t'.NoLinks p :=
  fun q hq target ht => h q hq target ((hl q).2 target ht)

/-- Names without links lead down name by name. -/
theorem walkSeg_names {t : FileTree} {follow mustDir : Bool}
    {next : Path → List Comp → Bool → Option Found} :
    ∀ (p : Path) {cur d : Path}, t.NoLinks (cur ++ p) →
      t.walkSeg follow next mustDir cur (p.map .name) = some (.dir d) → d = cur ++ p
  | [], cur, d, _, h => by
    rw [List.map_nil, walkSeg] at h
    injection h with h
    injection h with h
    rw [List.append_nil, h]
  | n :: p, cur, d, hlinks, h => by
    have hcur : cur ++ [n] ++ p = cur ++ n :: p := by rw [List.append_assoc]; rfl
    rw [List.map_cons, walkSeg] at h
    split at h
    next =>
      split at h
      next => rw [walkSeg_names p (hcur ▸ hlinks) h, hcur]
      next => split at h <;> cases h
      next target ht => exact absurd ht (hlinks _ ⟨p, hcur⟩ target)
      next => split at h <;> cases h
    next => cases h

theorem walk_succ_or_zero (t : FileTree) (follow : Bool) (links : Nat) :
    ∃ next, ∀ cur comps mustDir,
      t.walk follow links cur comps mustDir = t.walkSeg follow next mustDir cur comps := by
  cases links with
  | zero => exact ⟨_, fun _ _ _ => rfl⟩
  | succ links => exact ⟨_, fun _ _ _ => rfl⟩

/-- An absolute path name means the same from everywhere. -/
theorem find_pathStr (t : FileTree) (follow : Bool) (cwd cwd' p : Path) :
    t.find follow cwd (pathStr p) = t.find follow cwd' (pathStr p) := by
  obtain ⟨trailing, hp⟩ := parse_pathStr p
  rw [find, find, hp]
  rfl

theorem chdir_pathStr_congr (t : FileTree) (cwd cwd' p : Path) :
    t.chdir cwd (pathStr p) = t.chdir cwd' (pathStr p) := by
  rw [chdir, chdir, find_pathStr]

/-- Changing to a canonical path without links leads there and nowhere else. -/
theorem chdir_pathStr {t : FileTree} {cwd p d : Path} (hlinks : t.NoLinks p)
    (h : t.chdir cwd (pathStr p) = some d) : d = p := by
  obtain ⟨trailing, hp⟩ := parse_pathStr p
  obtain ⟨next, hnext⟩ := t.walk_succ_or_zero true maxLinks
  unfold chdir find at h
  rw [hp] at h
  simp only [if_true, hnext] at h
  split at h
  next q hq =>
    split at h
    next =>
      injection h with h
      rw [← h]
      simpa using walkSeg_names p (show t.NoLinks ([] ++ p) by simpa using hlinks) hq
    next => cases h
  next => cases h

/-- `chdir(".")` goes nowhere. -/
theorem chdir_dot {t : FileTree} {cwd d : Path} (h : t.chdir cwd dot = some d) : d = cwd := by
  have hp : parse dot = some { absolute := false, comps := [.self], trailing := false } := by
    decide
  obtain ⟨next, hnext⟩ := t.walk_succ_or_zero true maxLinks
  rw [chdir, find, hp] at h
  simp only [Bool.false_eq_true, if_false, hnext, walkSeg] at h
  by_cases hs : t.searchable cwd = true
  · rw [if_pos hs] at h
    simpa [hs] using h.symm
  · rw [if_neg hs] at h
    cases h

theorem goto_of_chdir {t : FileTree} {cwd d : Path} {s : CStr} (h : t.chdir cwd s = some d) :
    t.goto cwd s = d := by
  rw [goto, h, Option.getD_some]

theorem goto_of_none {t : FileTree} {cwd : Path} {s : CStr} (h : t.chdir cwd s = none) :
    t.goto cwd s = cwd := by
  rw [goto, h, Option.getD_none]

/-! ## Lookups in a later tree -/

theorem isDir_dropLast {t : FileTree} {p : Path} (h : t.isDir p = true) :
    t.isDir p.dropLast = true := by
  rcases List.eq_nil_or_concat p with rfl | ⟨q, n, rfl⟩
  · exact h
  · rw [List.concat_eq_append] at h
    rw [List.concat_eq_append, List.dropLast_concat]
    obtain ⟨perm, hperm⟩ := isDir_iff.mp h
    exact isDir_of_lookup hperm

/-- A directory of the later tree that can be searched could be searched
before. -/
theorem searchable_of_later {t t' : FileTree} (hl : Later t t') {p : Path}
    (hp : t'.isDir p = true) : t.searchable p = t'.searchable p := by
  obtain ⟨perm, hperm⟩ := isDir_iff.mp hp
  rw [searchable, searchable, hperm, (hl p).1 perm hperm]

theorem walkSeg_later {t t' : FileTree} (hl : Later t t') {follow : Bool}
    {next next' : Path → List Comp → Bool → Option Found}
    (hnext : ∀ cur comps mustDir d, t'.isDir cur = true →
      next' cur comps mustDir = some (.dir d) →
        next cur comps mustDir = some (.dir d) ∧ t'.isDir d = true) {mustDir : Bool} :
    ∀ (comps : List Comp) {cur d : Path}, t'.isDir cur = true →
      t'.walkSeg follow next' mustDir cur comps = some (.dir d) →
        t.walkSeg follow next mustDir cur comps = some (.dir d) ∧ t'.isDir d = true
  | [], cur, d, hcur, h => by
    rw [walkSeg] at h
    injection h with h'
    injection h' with h'
    rw [walkSeg, h']
    exact ⟨rfl, h' ▸ hcur⟩
  | .self :: rest, cur, d, hcur, h => by
    rw [walkSeg] at h ⊢
    rw [searchable_of_later hl hcur]
    split at h
    next hs =>
      rw [if_pos hs]
      exact walkSeg_later hl hnext rest hcur h
    next => cases h
  | .parent :: rest, cur, d, hcur, h => by
    rw [walkSeg] at h ⊢
    rw [searchable_of_later hl hcur]
    split at h
    next hs =>
      rw [if_pos hs]
      exact walkSeg_later hl hnext rest (isDir_dropLast hcur) h
    next => cases h
  | .name n :: rest, cur, d, hcur, h => by
    rw [walkSeg] at h ⊢
    rw [searchable_of_later hl hcur]
    split at h
    next hs =>
      rw [if_pos hs]
      split at h
      next perm hdir =>
        rw [(hl _).1 perm hdir]
        exact walkSeg_later hl hnext rest (isDir_iff.mpr ⟨perm, hdir⟩) h
      next => split at h <;> cases h
      next target hlink =>
        rw [(hl _).2 target hlink]
        dsimp only
        split at h
        next => cases h
        next hlast =>
          rw [if_neg hlast]
          split at h
          next => cases h
          next pn _ =>
            refine hnext _ _ _ _ ?_ h
            split
            · exact t'.isDir_root
            · exact hcur
      next => split at h <;> cases h
    next => cases h

theorem walk_later {t t' : FileTree} (hl : Later t t') {follow : Bool} :
    ∀ (links : Nat) (cur : Path) (comps : List Comp) (mustDir : Bool) (d : Path),
      t'.isDir cur = true → t'.walk follow links cur comps mustDir = some (.dir d) →
        t.walk follow links cur comps mustDir = some (.dir d) ∧ t'.isDir d = true
  | 0, _, comps, _, _, hcur, h =>
    walkSeg_later hl (fun _ _ _ _ _ h => by cases h) comps hcur h
  | links + 1, _, comps, _, _, hcur, h =>
    walkSeg_later hl (fun cur comps mustDir d hc h => walk_later hl links cur comps mustDir d hc h)
      comps hcur h

/-- From a directory that still exists, a path name that leads to a directory
now led to the same one in any earlier tree. -/
theorem chdir_later {t t' : FileTree} (hl : Later t t') {cwd d : Path} {s : CStr}
    (hcwd : t'.isDir cwd = true) (h : t'.chdir cwd s = some d) :
    t.chdir cwd s = some d ∧ t'.isDir d = true := by
  unfold chdir find at h ⊢
  cases hp : parse s with
  | none => rw [hp] at h; cases h
  | some pn =>
    rw [hp] at h
    dsimp only at h ⊢
    split at h
    next p hw =>
      have hstart : t'.isDir (if pn.absolute = true then [] else cwd) = true := by
        split
        · exact t'.isDir_root
        · exact hcwd
      obtain ⟨hw', hdir⟩ := walk_later hl maxLinks _ _ _ _ hstart hw
      rw [hw']
      dsimp only
      rw [searchable_of_later hl hdir]
      split at h
      next hs =>
        injection h with h
        subst h
        exact ⟨by rw [if_pos hs], hdir⟩
      next => cases h
    next => cases h

/-! ## Directories that can be entered -/

/-- The directory can be entered by its path. -/
def Enterable (t : FileTree) (p : Path) : Prop := t.chdir [] (pathStr p) = some p

instance (t : FileTree) (p : Path) : Decidable (t.Enterable p) :=
  inferInstanceAs (Decidable (_ = _))

theorem Enterable.isDir {t : FileTree} {p : Path} (h : t.Enterable p) : t.isDir p = true :=
  (chdir_later (FileTree.later_refl t) t.isDir_root h).2

theorem Enterable.earlier {t t' : FileTree} {p : Path} (hl : Later t t') (h : t'.Enterable p) :
    t.Enterable p :=
  (chdir_later hl t'.isDir_root h).1

theorem Enterable.goto {t : FileTree} {p : Path} (h : t.Enterable p) (cwd : Path) :
    t.goto cwd (pathStr p) = p :=
  goto_of_chdir ((t.chdir_pathStr_congr cwd [] p).trans h)

/-- A `chdir` to a canonical path without links goes there if it can. -/
theorem goto_pathStr_eq {t : FileTree} {p : Path} (hlinks : t.NoLinks p) (cwd : Path) :
    t.goto cwd (pathStr p) = if t.Enterable p then p else cwd := by
  by_cases henter : t.Enterable p
  · rw [if_pos henter, henter.goto]
  · rw [if_neg henter]
    cases hc : t.chdir cwd (pathStr p) with
    | none => exact goto_of_none hc
    | some d =>
      rw [chdir_pathStr hlinks hc, t.chdir_pathStr_congr cwd [] p] at hc
      exact absurd hc henter

/-! ## From two directories -/

/-- A name that means the same from both directories: they are one, or the name
is absolute. -/
def SameFrom (d d' : Path) (s : CStr) : Prop := d = d' ∨ ∀ pn ∈ parse s, pn.absolute = true

instance (d d' : Path) (s : CStr) : Decidable (SameFrom d d' s) :=
  inferInstanceAs (Decidable (_ ∨ _))

section

variable {d d' : Path} {s : CStr}

/-- Where a look-up of the name starts. -/
theorem SameFrom.start (h : SameFrom d d' s) {pn : PathName} (hp : parse s = some pn) :
    (if pn.absolute then [] else d) = if pn.absolute then [] else d' := by
  rcases h with rfl | habs
  · rfl
  · rw [if_pos (habs pn hp), if_pos (habs pn hp)]

theorem SameFrom.find (h : SameFrom d d' s) (t : FileTree) (follow : Bool) :
    t.find follow d s = t.find follow d' s := by
  unfold FileTree.find
  cases hp : parse s with
  | none => rfl
  | some pn =>
    dsimp only
    rw [h.start hp]

theorem SameFrom.chdir (h : SameFrom d d' s) (t : FileTree) : t.chdir d s = t.chdir d' s := by
  rw [FileTree.chdir, FileTree.chdir, h.find]

theorem SameFrom.openRead (h : SameFrom d d' s) (t : FileTree) :
    t.openRead d s = t.openRead d' s := by
  rw [FileTree.openRead, FileTree.openRead, h.find]

theorem SameFrom.openWrite (h : SameFrom d d' s) (t : FileTree) :
    t.openWrite d s = t.openWrite d' s := by
  rw [FileTree.openWrite, FileTree.openWrite, h.find]

theorem SameFrom.removable (h : SameFrom d d' s) (t : FileTree) :
    t.removable d s = t.removable d' s := by
  unfold FileTree.removable
  cases hp : parse s with
  | none => rfl
  | some pn =>
    dsimp only
    rw [h.start hp]

end

end FileTree

end MyFtp.Posix
