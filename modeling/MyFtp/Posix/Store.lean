import MyFtp.Posix.Resolve

/-!
# Path names after a file was written

What a path name opened for writing it opens for reading afterwards:

> `openRead_store`: the file that was written is what the name then reads, if
> it may be read.

> `removable_store`: what the name then removes is that file too, or a symbolic
> link that leads to it.

Both compare a look-up in the tree before with the same look-up in the tree
after. On its way it meets the same directories and links, because only the
file at its end is new.
-/

namespace MyFtp.Posix

namespace FileTree

/-- A look-up that ends at a name does not ask for a directory there, and finds
the name free if it says so. -/
def EndsAt (t : FileTree) (mustDir : Bool) : Option Found → Prop
  | some (.entry _ _) => mustDir = false
  | some (.missing d n) => mustDir = false ∧ t.lookup (d ++ [n]) = none ∧ t.isDir d = true
  | _ => True

theorem walkSeg_endsAt {t : FileTree} {follow mustDir : Bool}
    {next : Path → List Comp → Bool → Option Found}
    (hnext : ∀ cur comps m, t.EndsAt m (next cur comps m)) :
    ∀ (comps : List Comp) (cur : Path), t.EndsAt mustDir (t.walkSeg follow next mustDir cur comps)
  | [], cur => by
    rw [walkSeg]
    exact trivial
  | .self :: rest, cur => by
    rw [walkSeg]
    split
    next => exact walkSeg_endsAt hnext rest cur
    next => exact trivial
  | .parent :: rest, cur => by
    rw [walkSeg]
    split
    next => exact walkSeg_endsAt hnext rest cur.dropLast
    next => exact trivial
  | .name n :: rest, cur => by
    rw [walkSeg]
    split
    next =>
      split
      next => exact walkSeg_endsAt hnext rest (cur ++ [n])
      next =>
        split
        next h => exact h.2
        next => exact trivial
      next =>
        split
        next h => exact h.2.1
        next =>
          split
          next => exact trivial
          next pn _ =>
            -- the rest of the look-up asks for a directory if this one does
            have h := hnext (if pn.absolute then [] else cur) (pn.comps ++ rest)
              (mustDir || (rest.isEmpty && pn.trailing))
            unfold EndsAt at h ⊢
            split
            next hx =>
              rw [hx] at h
              simp only [Bool.or_eq_false_iff] at h
              exact h.1
            next hx =>
              rw [hx] at h
              simp only [Bool.or_eq_false_iff] at h
              exact ⟨h.1.1, h.2⟩
            next => exact trivial
      next hnone =>
        split
        next h => exact ⟨h.2.1, hnone, h.2.2⟩
        next => exact trivial
    next => exact trivial

theorem walk_endsAt (t : FileTree) (follow : Bool) :
    ∀ (links : Nat) (cur : Path) (comps : List Comp) (mustDir : Bool),
      t.EndsAt mustDir (t.walk follow links cur comps mustDir)
  | 0, cur, comps, mustDir => by
    have hnone : ∀ (_ : Path) (_ : List Comp) m, t.EndsAt m none := fun _ _ _ => trivial
    exact walkSeg_endsAt hnone comps cur
  | links + 1, cur, comps, _ => walkSeg_endsAt (walk_endsAt t follow links) comps cur

/-! ## The tree after a file was written -/

/-- The tree `t'` is the tree `t` with a file at `d ++ [n]`, where there was
neither a directory nor a link. -/
structure Written (t t' : FileTree) (d : Path) (n : Name) : Prop where
  old : t.lookup (d ++ [n]) = none ∨ ∃ perm content, t.lookup (d ++ [n]) = some (.file perm content)
  new : ∃ perm content, t'.lookup (d ++ [n]) = some (.file perm content)
  others : ∀ p, p ≠ d ++ [n] → t'.lookup p = t.lookup p

section

variable {t t' : FileTree} {d : Path} {n : Name}

theorem Written.dir_iff (h : Written t t' d n) {p : Path} {perm : Perm} :
    t'.lookup p = some (.dir perm) ↔ t.lookup p = some (.dir perm) := by
  by_cases hp : p = d ++ [n]
  · obtain ⟨perm', content', hnew⟩ := h.new
    rw [hp, hnew]
    rcases h.old with hold | ⟨perm'', content'', hold⟩ <;> rw [hold] <;> simp
  · rw [h.others p hp]

theorem Written.searchable (h : Written t t' d n) (p : Path) :
    t'.searchable p = t.searchable p := by
  by_cases hp : p = d ++ [n]
  · obtain ⟨perm', content', hnew⟩ := h.new
    rw [FileTree.searchable, FileTree.searchable, hp, hnew]
    rcases h.old with hold | ⟨perm'', content'', hold⟩ <;> rw [hold]
  · rw [FileTree.searchable, FileTree.searchable, h.others p hp]

/-- The look-up ended at the written name before, and finds the file there
now. -/
theorem walkSeg_written (h : Written t t' d n) {follow mustDir : Bool}
    {next next' : Path → List Comp → Bool → Option Found}
    (hnext : ∀ cur comps m, next cur comps m = some (.entry d n) ∨
        next cur comps m = some (.missing d n) →
      next' cur comps m = some (.entry d n)) :
    ∀ (comps : List Comp) (cur : Path),
      t.walkSeg follow next mustDir cur comps = some (.entry d n) ∨
        t.walkSeg follow next mustDir cur comps = some (.missing d n) →
      t'.walkSeg follow next' mustDir cur comps = some (.entry d n)
  | [], cur, hw => by
    rw [walkSeg] at hw
    rcases hw with hw | hw <;> cases hw
  | .self :: rest, cur, hw => by
    rw [walkSeg] at hw ⊢
    rw [h.searchable]
    split at hw
    next hs =>
      rw [if_pos hs]
      exact walkSeg_written h hnext rest cur hw
    next => rcases hw with hw | hw <;> cases hw
  | .parent :: rest, cur, hw => by
    rw [walkSeg] at hw ⊢
    rw [h.searchable]
    split at hw
    next hs =>
      rw [if_pos hs]
      exact walkSeg_written h hnext rest cur.dropLast hw
    next => rcases hw with hw | hw <;> cases hw
  | .name m :: rest, cur, hw => by
    rw [walkSeg] at hw ⊢
    rw [h.searchable]
    split at hw
    next hs =>
      rw [if_pos hs]
      obtain ⟨perm', content', hnew⟩ := h.new
      cases hm : t.lookup (cur ++ [m]) with
      | none =>
        rw [hm] at hw
        dsimp only at hw
        split at hw
        next hend =>
          rcases hw with hw | hw
          · cases hw
          · cases hw
            rw [hnew]
            exact if_pos ⟨hend.1, hend.2.1⟩
        next => rcases hw with hw | hw <;> cases hw
      | some e =>
        rw [hm] at hw
        cases e with
        | dir perm =>
          rw [h.dir_iff.mpr hm]
          exact walkSeg_written h hnext rest _ hw
        | file perm content =>
          dsimp only at hw
          split at hw
          next hend =>
            rcases hw with hw | hw
            · cases hw
              rw [hnew]
              exact if_pos hend
            · cases hw
          next => rcases hw with hw | hw <;> cases hw
        | link target =>
          have hne : cur ++ [m] ≠ d ++ [n] := by
            intro he
            rw [he] at hm
            rcases h.old with hold | ⟨_, _, hold⟩ <;> rw [hold] at hm <;> cases hm
          rw [h.others _ hne, hm]
          dsimp only at hw ⊢
          split at hw
          next hend =>
            rcases hw with hw | hw
            · cases hw
              exact absurd rfl hne
            · cases hw
          next hend =>
            rw [if_neg hend]
            cases hp : parse target with
            | none =>
              rw [hp] at hw
              rcases hw with hw | hw <;> cases hw
            | some pn =>
              rw [hp] at hw
              exact hnext _ _ _ hw
    next => rcases hw with hw | hw <;> cases hw

theorem walk_written (h : Written t t' d n) (follow : Bool) :
    ∀ (links : Nat) (cur : Path) (comps : List Comp) (mustDir : Bool),
      t.walk follow links cur comps mustDir = some (.entry d n) ∨
        t.walk follow links cur comps mustDir = some (.missing d n) →
      t'.walk follow links cur comps mustDir = some (.entry d n)
  | 0, cur, comps, _, hw =>
    walkSeg_written h (fun _ _ _ hn => by rcases hn with hn | hn <;> cases hn) comps cur hw
  | links + 1, cur, comps, _, hw => walkSeg_written h (walk_written h follow links) comps cur hw

end

/-! ## Without following a link at the end -/

/-- Looking a name up without following a link at its end gives the same, or the
link. -/
def SameOrLink (t : FileTree) (x y : Option Found) : Prop :=
  y = x ∨ ∃ d n target, y = some (.entry d n) ∧ t.lookup (d ++ [n]) = some (.link target)

theorem walkSeg_nofollow {t : FileTree} {mustDir : Bool}
    {next next' : Path → List Comp → Bool → Option Found}
    (hnext : ∀ cur comps m, t.SameOrLink (next cur comps m) (next' cur comps m)) :
    ∀ (comps : List Comp) (cur : Path),
      t.SameOrLink (t.walkSeg true next mustDir cur comps)
        (t.walkSeg false next' mustDir cur comps)
  | [], cur => .inl rfl
  | .self :: rest, cur => by
    rw [walkSeg, walkSeg]
    split
    next => exact walkSeg_nofollow hnext rest cur
    next => exact .inl rfl
  | .parent :: rest, cur => by
    rw [walkSeg, walkSeg]
    split
    next => exact walkSeg_nofollow hnext rest cur.dropLast
    next => exact .inl rfl
  | .name n :: rest, cur => by
    rw [walkSeg, walkSeg]
    split
    next =>
      cases hn : t.lookup (cur ++ [n]) with
      | none => exact .inl rfl
      | some e =>
        cases e with
        | dir perm => exact walkSeg_nofollow hnext rest (cur ++ [n])
        | file perm content => exact .inl rfl
        | link target =>
          dsimp only
          rw [if_neg (by simp : ¬ (rest = [] ∧ mustDir = false ∧ true = false))]
          by_cases hend : rest = [] ∧ mustDir = false ∧ false = false
          · rw [if_pos hend]
            exact .inr ⟨cur, n, target, rfl, hn⟩
          · rw [if_neg hend]
            cases parse target with
            | none => exact .inl rfl
            | some pn => exact hnext _ _ _
    next => exact .inl rfl

theorem walk_nofollow (t : FileTree) :
    ∀ (links : Nat) (cur : Path) (comps : List Comp) (mustDir : Bool),
      t.SameOrLink (t.walk true links cur comps mustDir) (t.walk false links cur comps mustDir)
  | 0, cur, comps, _ => walkSeg_nofollow (fun _ _ _ => .inl rfl) comps cur
  | links + 1, cur, comps, _ => walkSeg_nofollow (walk_nofollow t links) comps cur

/-! ## Writing, then reading or removing -/

/-- Where the file is. -/
def Target.path (target : Target) : Path := target.dir ++ [target.name]

/-- What opening a name for writing tells about the tree. -/
theorem openWrite_eq_some {t : FileTree} {cwd : Path} {s : CStr} {target : Target}
    (h : t.openWrite cwd s = some target) :
    (t.find true cwd s = some (.entry target.dir target.name) ∧
        ∃ content, t.lookup target.path = some (.file target.perm content)) ∨
      (t.find true cwd s = some (.missing target.dir target.name) ∧
        t.lookup target.path = none ∧ t.isDir target.dir = true ∧ target.perm = .rw) := by
  unfold openWrite at h
  split at h
  next d n hfind =>
    split at h
    next perm content hfile =>
      split at h
      next =>
        obtain rfl := Option.some.inj h
        exact .inl ⟨hfind, content, hfile⟩
      next => cases h
    next => cases h
  next d n hfind =>
    split at h
    next =>
      obtain rfl := Option.some.inj h
      have hend : t.EndsAt true (t.find true cwd s) ∨ t.EndsAt false (t.find true cwd s) := by
        unfold find
        split
        next => exact .inl trivial
        next pn _ =>
          cases hm : pn.trailing with
          | true => exact .inl (walk_endsAt t true maxLinks _ _ true)
          | false => exact .inr (walk_endsAt t true maxLinks _ _ false)
      rw [hfind] at hend
      have hmissing : t.lookup (d ++ [n]) = none ∧ t.isDir d = true :=
        hend.elim And.right And.right
      exact .inr ⟨hfind, hmissing.1, hmissing.2, rfl⟩
    next => cases h
  next => cases h

/-- The tree that differs from `t` in the file that was opened for writing. -/
theorem written_store {t : FileTree} {cwd : Path} {s : CStr} {target : Target}
    (h : t.openWrite cwd s = some target) (content : List Byte) :
    Written t (t.store target content) target.dir target.name ∧
      (t.store target content).lookup target.path = some (.file target.perm content) := by
  have hplace : t.isDir target.dir = true ∧ t.isDir target.path = false ∧
      (t.lookup target.path = none ∨
        ∃ perm content, t.lookup target.path = some (.file perm content)) := by
    rcases openWrite_eq_some h with ⟨-, content, hfile⟩ | ⟨-, hnone, hdir, -⟩
    · refine ⟨isDir_of_lookup hfile, ?_, .inr ⟨_, content, hfile⟩⟩
      rw [FileTree.isDir, hfile]
    · refine ⟨hdir, ?_, .inl hnone⟩
      rw [FileTree.isDir, hnone]
  have hlookup := lookup_put (.file target.perm content) hplace.1 hplace.2.1
  have hnew : (t.store target content).lookup target.path = some (.file target.perm content) :=
    (hlookup target.path).trans (if_pos rfl)
  exact ⟨⟨hplace.2.2, ⟨_, _, hnew⟩, fun p hp => (hlookup p).trans (if_neg hp)⟩, hnew⟩

/-- The look-up that opened the file finds it again. -/
theorem find_store {t : FileTree} {cwd : Path} {s : CStr} {target : Target}
    (h : t.openWrite cwd s = some target) (content : List Byte) :
    (t.store target content).find true cwd s = some (.entry target.dir target.name) := by
  have hw := (written_store h content).1
  have hfind : t.find true cwd s = some (.entry target.dir target.name) ∨
      t.find true cwd s = some (.missing target.dir target.name) :=
    (openWrite_eq_some h).imp And.left And.left
  unfold find at hfind ⊢
  cases hp : parse s with
  | none =>
    rw [hp] at hfind
    rcases hfind with hf | hf <;> cases hf
  | some pn =>
    rw [hp] at hfind
    exact walk_written hw true maxLinks _ _ _ hfind

/-- A name opened for writing reads what was written, if that may be read. -/
theorem openRead_store {t : FileTree} {cwd : Path} {s : CStr} {target : Target}
    (h : t.openWrite cwd s = some target) (hread : target.perm.r = true) (content : List Byte) :
    (t.store target content).openRead cwd s = some (.regular target.path content) := by
  have hfile := (written_store h content).2
  rw [openRead, find_store h content]
  dsimp only
  rw [← Target.path, hfile]
  exact if_pos hread

/-- What a name opened for writing then removes is the file that was written, or
a symbolic link. -/
theorem removable_store {t : FileTree} {cwd p : Path} {s : CStr} {target : Target}
    (h : t.openWrite cwd s = some target) (content : List Byte)
    (hp : (t.store target content).removable cwd s = some p) :
    p = target.path ∨ ∃ link, (t.store target content).lookup p = some (.link link) := by
  have hfind := find_store h content
  unfold removable at hp
  unfold find at hfind
  cases hparse : parse s with
  | none =>
    rw [hparse] at hp
    cases hp
  | some pn =>
    rw [hparse] at hp hfind
    dsimp only at hp hfind
    -- a name with a slash at its end would have had to be a directory
    have htrailing : pn.trailing = false := by
      have := walk_endsAt (t.store target content) true maxLinks
        (if pn.absolute then [] else cwd) pn.comps pn.trailing
      rw [hfind] at this
      exact this
    rw [htrailing] at hfind
    rcases walk_nofollow (t.store target content) maxLinks
      (if pn.absolute then [] else cwd) pn.comps
      false with hsame | ⟨d, n, link, hsame, hlink⟩
    · rw [hsame, hfind] at hp
      split at hp
      next =>
        dsimp only at hp
        split at hp
        next => exact .inl (Option.some.inj hp).symm
        next => cases hp
      next => cases hp
    · rw [hsame] at hp
      split at hp
      next =>
        dsimp only at hp
        split at hp
        next =>
          rw [← Option.some.inj hp]
          exact .inr ⟨link, hlink⟩
        next => cases hp
      next => cases hp

/-- Writing a file twice is writing it once. -/
theorem store_store (t : FileTree) (target : Target) (content content' : List Byte) :
    (t.store target content).store target content' = t.store target content' := by
  by_cases h : t.isDir target.dir = true ∧ t.isDir (target.dir ++ [target.name]) = false
  · have hlookup := lookup_put (.file target.perm content) h.1 h.2
    have hne : target.dir ≠ target.dir ++ [target.name] := by simp
    have hdir : (t.store target content).isDir target.dir = true := by
      obtain ⟨perm, hperm⟩ := isDir_iff.mp h.1
      exact isDir_iff.mpr ⟨perm, (hlookup _).trans ((if_neg hne).trans hperm)⟩
    have hfile : (t.store target content).isDir (target.dir ++ [target.name]) = false := by
      rw [FileTree.isDir, store, hlookup, if_pos rfl]
    refine FileTree.ext fun p => ?_
    rw [store, lookup_put _ hdir hfile, store, store, hlookup, lookup_put _ h.1 h.2]
    split
    next => rfl
    next => rfl
  · have hput : ∀ e, t.put target.dir target.name e = t := fun e => by rw [put, dif_neg h]
    rw [store, store, hput, store, hput]

end FileTree

end MyFtp.Posix
