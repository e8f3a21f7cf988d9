import MyFtp.Posix.CStr

/-!
# Path names

A canonical absolute path — what `getcwd` returns — is a list of names. `Name`
carries the proof that its bytes can name a directory entry: not empty, no
slash, not `.` and not `..`; so every `Path` is canonical by construction.

A path name as it is passed to a system call is any string; `parse` reads it
into its components. The two directions meet in `parse_pathStr`: the string of
a canonical path reads back as exactly that path.
-/

namespace MyFtp.Posix

/-- The byte `/`. -/
def slash : Byte := 47

/-- `.` -/
def dot : CStr := [46]

/-- `..` -/
def dotdot : CStr := [46, 46]

/-- Bytes that can name a directory entry. -/
def ValidName (b : CStr) : Prop := b ≠ [] ∧ slash ∉ b ∧ b ≠ dot ∧ b ≠ dotdot

instance (b : CStr) : Decidable (ValidName b) := inferInstanceAs (Decidable (_ ∧ _ ∧ _ ∧ _))

/-- The name of a directory entry. -/
structure Name where
  bytes : CStr
  valid : ValidName bytes
  deriving DecidableEq

/-- A canonical absolute path: the names from the root down. -/
abbrev Path := List Name

/-- The string of a canonical path. -/
def pathStr : Path → CStr
  | [] => [slash]
  | n :: p => (n :: p).flatMap fun m => slash :: m.bytes

/-- One component of a path name. -/
inductive Comp
  | self
  | parent
  | name (n : Name)
  deriving DecidableEq

/-- A path name taken apart. `trailing` is a slash at the end, which asks for a
directory. -/
structure PathName where
  absolute : Bool
  comps : List Comp
  trailing : Bool
  deriving DecidableEq

/-- The component some bytes between slashes stand for. -/
def toComp (b : CStr) : Option Comp :=
  if b = dot then some .self
  else if b = dotdot then some .parent
  else if h : ValidName b then some (.name ⟨b, h⟩)
  else none

/-- Take a path name apart. The empty string names nothing. -/
def parse (s : CStr) : Option PathName :=
  if s = [] then none
  else some {
    absolute := s.head? == some slash
    comps := (runs (· == slash) s).filterMap toComp
    trailing := s.getLast? == some slash }

theorem toComp_name (n : Name) : toComp n.bytes = some (.name n) := by
  obtain ⟨-, -, hdot, hdd⟩ := n.valid
  rw [toComp, if_neg hdot, if_neg hdd, dif_pos n.valid]

theorem Name.bytes_not_slash (n : Name) : ∀ b ∈ n.bytes, (b == slash) = false := by
  intro b hb
  have : b ≠ slash := fun h => n.valid.2.1 (h ▸ hb)
  simpa using this

/-- The pieces between the slashes of a path's string are its names. -/
theorem runs_flatMap (p : Path) :
    runs (· == slash) (p.flatMap fun m => slash :: m.bytes) = p.map Name.bytes := by
  induction p with
  | nil => rfl
  | cons n p ih =>
    rw [List.flatMap_cons, List.cons_append, runs_cons_sep (by simp), List.map_cons]
    cases p with
    | nil =>
      rw [List.flatMap_nil, List.append_nil, runs_of_forall n.valid.1 n.bytes_not_slash]
      rfl
    | cons m p =>
      rw [← ih, List.flatMap_cons, List.cons_append,
        runs_append_cons (by simp) n.valid.1 n.bytes_not_slash, runs_cons_sep (by simp)]

theorem runs_pathStr (p : Path) : runs (· == slash) (pathStr p) = p.map Name.bytes := by
  cases p with
  | nil => rfl
  | cons n p => exact runs_flatMap (n :: p)

theorem pathStr_ne_nil (p : Path) : pathStr p ≠ [] := by
  cases p with
  | nil => simp [pathStr]
  | cons n p => simp [pathStr]

theorem head?_pathStr (p : Path) : (pathStr p).head? = some slash := by
  cases p with
  | nil => rfl
  | cons n p => rfl

/-- A path's string reads back as the path. -/
theorem parse_pathStr (p : Path) : ∃ trailing,
    parse (pathStr p) = some { absolute := true, comps := p.map .name, trailing } := by
  refine ⟨(pathStr p).getLast? == some slash, ?_⟩
  rw [parse, if_neg (pathStr_ne_nil p), head?_pathStr, runs_pathStr, List.filterMap_map]
  have hcomp : (toComp ∘ Name.bytes : Name → Option Comp) = some ∘ Comp.name := by
    funext n
    exact toComp_name n
  rw [hcomp, List.filterMap_eq_map]
  simp

/-- Going down adds to the end of the string, except below the root directory,
whose own string is the slash all others begin with. -/
theorem pathStr_append {p : Path} (hp : p ≠ []) (q : Path) :
    pathStr (p ++ q) = pathStr p ++ q.flatMap fun m => slash :: m.bytes := by
  cases p with
  | nil => exact absurd rfl hp
  | cons n p => rw [List.cons_append, pathStr, pathStr, ← List.cons_append, List.flatMap_append]

/-- The string of a directory begins the string of everything in it. -/
theorem pathStr_isPrefix {p q : Path} (h : p <+: q) : pathStr p <+: pathStr q := by
  obtain ⟨t, rfl⟩ := h
  cases p with
  | nil =>
    rw [List.nil_append]
    cases t with
    | nil => exact List.prefix_rfl
    | cons n t => exact ⟨n.bytes ++ t.flatMap fun m => slash :: m.bytes, rfl⟩
  | cons n p =>
    rw [pathStr_append (List.cons_ne_nil n p)]
    exact List.prefix_append ..

/-- One path's last name is continued by the name the other has in its place, as
`/srv/ftp` is by `/srv/ftp2` and by what lies in that. -/
def Lookalike (p q : Path) : Prop :=
  ∃ d m n rest, p = d ++ [m] ∧ q = d ++ n :: rest ∧ m.bytes <+: n.bytes ∧ m ≠ n

/-- Two names with something after them: a slash can only stand where one
ends. -/
theorem prefix_append_cases {a b u v : CStr} (ha : slash ∉ a) (hb : slash ∉ b)
    (hu : u = [] ∨ u.head? = some slash) (hv : v = [] ∨ v.head? = some slash)
    (h : a ++ u <+: b ++ v) : (a = b ∧ u <+: v) ∨ (u = [] ∧ a <+: b) := by
  induction a generalizing b with
  | nil =>
    rcases hu with rfl | hu
    · exact .inr ⟨rfl, List.nil_prefix⟩
    · obtain ⟨u', rfl⟩ : ∃ u', u = slash :: u' := List.head?_eq_some_iff.mp hu
      cases b with
      | nil => exact .inl ⟨rfl, h⟩
      | cons c b =>
        obtain ⟨rfl, -⟩ := List.cons_prefix_cons.mp h
        simp at hb
  | cons x a ih =>
    have hx : slash ≠ x ∧ slash ∉ a := by simpa using ha
    cases b with
    | nil =>
      rcases hv with rfl | hv
      · simp at h
      · obtain ⟨v', rfl⟩ : ∃ v', v = slash :: v' := List.head?_eq_some_iff.mp hv
        exact absurd (List.cons_prefix_cons.mp h).1.symm hx.1
    | cons y b =>
      have hy : slash ≠ y ∧ slash ∉ b := by simpa using hb
      obtain ⟨rfl, htail⟩ := List.cons_prefix_cons.mp h
      rcases ih hx.2 hy.2 htail with ⟨rfl, huv⟩ | ⟨rfl, hab⟩
      · exact .inl ⟨rfl, huv⟩
      · exact .inr ⟨rfl, List.cons_prefix_cons.mpr ⟨rfl, hab⟩⟩

theorem flatMap_head? (p : Path) :
    (p.flatMap fun m => slash :: m.bytes) = [] ∨
      (p.flatMap fun m => slash :: m.bytes).head? = some slash := by
  cases p with
  | nil => exact .inl rfl
  | cons n p => exact .inr rfl

theorem prefix_or_lookalike {p q : Path}
    (h : (p.flatMap fun m => slash :: m.bytes) <+: q.flatMap fun m => slash :: m.bytes) :
    p <+: q ∨ Lookalike p q := by
  induction p generalizing q with
  | nil => exact .inl List.nil_prefix
  | cons m p ih =>
    cases q with
    | nil => simp at h
    | cons n q =>
      rw [List.flatMap_cons, List.flatMap_cons, List.cons_append, List.cons_append] at h
      obtain ⟨-, h⟩ := List.cons_prefix_cons.mp h
      rcases prefix_append_cases m.valid.2.1 n.valid.2.1 (flatMap_head? p) (flatMap_head? q) h with
        ⟨hmn, hpq⟩ | ⟨hp, hmn⟩
      · obtain rfl : m = n := by
          cases m
          cases n
          cases hmn
          rfl
        rcases ih hpq with hpre | ⟨d, m', n', rest, rfl, rfl, hl⟩
        · exact .inl (List.cons_prefix_cons.mpr ⟨rfl, hpre⟩)
        · exact .inr ⟨m :: d, m', n', rest, rfl, rfl, hl⟩
      · have hnil : p = [] := by
          cases p with
          | nil => rfl
          | cons _ _ => simp at hp
        subst hnil
        by_cases he : m = n
        · rw [he]
          exact .inl (List.cons_prefix_cons.mpr ⟨rfl, List.nil_prefix⟩)
        · exact .inr ⟨[], m, n, q, rfl, rfl, hmn, he⟩

/-- What the comparison of the strings of two paths says about the paths. -/
theorem pathStr_isPrefix_iff {p q : Path} :
    pathStr p <+: pathStr q ↔ p <+: q ∨ Lookalike p q := by
  constructor
  · intro h
    cases p with
    | nil => exact .inl List.nil_prefix
    | cons m p =>
      cases q with
      | nil =>
        have hlen := h.length_le
        rw [pathStr, pathStr, List.flatMap_cons, List.cons_append, List.length_cons,
          List.length_append] at hlen
        have hm := List.length_pos_iff.mpr m.valid.1
        simp only [List.length_singleton] at hlen
        omega
      | cons n q => exact prefix_or_lookalike h
  · rintro (h | ⟨d, m, n, rest, rfl, rfl, ⟨tail, htail⟩, -⟩)
    · exact pathStr_isPrefix h
    · have hne : ∀ l : Path, d ++ m :: l ≠ [] := by simp
      have hpath : ∀ (k : Name) (l : Path), pathStr (d ++ k :: l) =
          (d.flatMap fun m => slash :: m.bytes) ++
            (slash :: k.bytes ++ l.flatMap fun m => slash :: m.bytes) := by
        intro k l
        cases d with
        | nil => rfl
        | cons e d => rw [pathStr_append (List.cons_ne_nil e d)]; rfl
      rw [hpath, hpath, ← htail]
      refine (List.prefix_append_right_inj _).mpr ?_
      simp

/-- Only one of the two readings of the comparison holds. -/
theorem Lookalike.not_isPrefix {p q : Path} (h : Lookalike p q) : ¬ p <+: q := by
  obtain ⟨d, m, n, rest, rfl, rfl, -, hne⟩ := h
  intro hp
  have := (List.prefix_append_right_inj d).mp hp
  exact hne (List.cons_prefix_cons.mp this).1

theorem lookalike_iff {p q : Path} :
    Lookalike p q ↔ pathStr p <+: pathStr q ∧ ¬ p <+: q := by
  constructor
  · intro h
    exact ⟨pathStr_isPrefix_iff.mpr (.inr h), h.not_isPrefix⟩
  · rintro ⟨h, hn⟩
    exact (pathStr_isPrefix_iff.mp h).resolve_left hn

instance (p q : Path) : Decidable (Lookalike p q) := decidable_of_iff _ lookalike_iff.symm

end MyFtp.Posix
