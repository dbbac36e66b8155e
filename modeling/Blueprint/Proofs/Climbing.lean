import Blueprint.Proofs.SourceTrees

/-!
# Climbing paths

Seen from a directory, a path denotes a location (`Path.locate`): a part `..` leads to the directory
above, and from the root to the root. A place knows no directory that it is seen from, so it says
nothing of the parts `..` that lead above the start of a path. Besides the names of its place, the
location of a path depends on where these names start (`Path.locate_eq`).

Paths with one place therefore denote one location if they start alike, and only then
(`Path.resolve_exact`). Those that never lead above their start do.
-/

namespace Blueprint

/-- The directory that a part of a path leads to, as the names on the way from the root. -/
def follow (directory : List String) (part : String) : List String :=
  if part.isEmpty || part == "." then directory
  else if part == ".." then directory.dropLast
  else directory ++ [part]

/-- The number of parts `..` that have nothing to take back, with `depth` names in front. -/
def climbFrom (depth : Nat) : List String → Nat
  | [] => 0
  | part :: rest =>
    if part.isEmpty || part == "." then climbFrom depth rest
    else if part == ".." then climbFrom (depth - 1) rest + if depth = 0 then 1 else 0
    else climbFrom (depth + 1) rest

namespace Path

/-- The location of a path, seen from a directory. -/
def locate (p : Path) (base : List String) : List String :=
  p.parts.foldl follow (if p.isAbsolute then [] else base)

/-- How far the path leads above its start. -/
def climb (p : Path) : Nat := climbFrom 0 p.parts

/-- The directory is deep enough for all that the path climbs. -/
def FitsIn (p : Path) (base : List String) : Prop := p.isAbsolute = true ∨ p.climb ≤ base.length

/-- Where the names of the place of a path start, if it is seen from a directory. -/
def origin (p : Path) (base : List String) : List String :=
  if p.isAbsolute then [] else base.take (base.length - p.climb)

/-- Both paths start at the root, or both climb equally far from wherever one is. -/
def StartsLike (p q : Path) : Prop :=
  p.isAbsolute = q.isAbsolute ∧ (p.isAbsolute = true ∨ p.climb = q.climb)

end Path

namespace Place

/-- The names of a place, without the root. -/
def names (p : Place) : List String :=
  p.steps.filterMap fun
    | .root => none
    | .name n => some n

/-- The place is told from the root on. -/
def IsAbsolute (p : Place) : Prop := p.steps.head? = some .root

theorem names_of (absolute : Bool) (names : List String) : (of absolute names).names = names := by
  unfold Place.names of
  dsimp only
  rw [List.filterMap_append, List.filterMap_map]
  have hnames : names.filterMap some = names := List.filterMap_some
  cases absolute <;> exact hnames

theorem isAbsolute_of (absolute : Bool) (names : List String) :
    (of absolute names).IsAbsolute ↔ absolute = true := by
  unfold IsAbsolute of
  cases absolute <;> cases names <;> simp

end Place

/-! ## One part after the other -/

/-- A part stays where it is, leads up, or enters a name. -/
theorem part_cases (part : String) : (part.isEmpty || part == ".") = true ∨ part = ".." ∨
    ((part.isEmpty || part == ".") = false ∧ (part == "..") = false) := by
  by_cases hstay : (part.isEmpty || part == ".") = true
  · exact .inl hstay
  · by_cases hup : part = ".."
    · exact .inr (.inl hup)
    · exact .inr (.inr ⟨Bool.eq_false_iff.2 hstay, beq_false_of_ne hup⟩)

theorem take_dropLast (base : List String) (n : Nat) :
    base.dropLast.take (base.dropLast.length - n) = base.take (base.length - (n + 1)) := by
  rw [List.dropLast_eq_take, List.take_take, List.length_take]
  congr 1
  omega

section

variable {part : String} (absolute : Bool) (base names rest : List String) (s : String)

theorem Place.enter_up_nil : (of absolute []).enter ".." = of false [] := by
  cases absolute <;> rfl

theorem Place.enter_up_concat : (of absolute (names ++ [s])).enter ".." = of absolute names := by
  rw [← of_concat]
  exact congrArg Place.mk List.dropLast_concat

theorem follow_up_concat : follow (base ++ [s]) ".." = base := List.dropLast_concat

theorem climbFrom_up_concat :
    climbFrom (names ++ [s]).length (".." :: rest) = climbFrom names.length rest := by
  rw [List.length_append]
  rfl

variable (hstay : (part.isEmpty || part == ".") = false) (hup : (part == "..") = false)

include hstay hup

theorem Place.enter_name : (of absolute names).enter part = of absolute (names ++ [part]) := by
  rw [enter, hstay, hup]
  exact of_concat absolute names part

theorem follow_name : follow base part = base ++ [part] := by
  rw [follow, hstay, hup]
  rfl

theorem climbFrom_name :
    climbFrom names.length (part :: rest) = climbFrom (names ++ [part]).length rest := by
  rw [climbFrom, hstay, hup, List.length_append]
  rfl

end

/-- Names that a path enters are taken back before the directories above its start are. Only if it
climbs is the root lost. The induction is on the parts; both the names and the directories change
with them. -/
theorem foldl_enter_follow (absolute : Bool) (base names parts : List String) : ∃ names',
    parts.foldl Place.enter (.of absolute names) =
      .of (absolute && climbFrom names.length parts == 0) names' ∧
    parts.foldl follow (base ++ names) =
      base.take (base.length - climbFrom names.length parts) ++ names' := by
  induction parts generalizing absolute base names with
  | nil => exact ⟨names, by simp [climbFrom], by simp [climbFrom]⟩
  | cons part rest ih =>
    rw [List.foldl_cons, List.foldl_cons]
    rcases part_cases part with hstay | rfl | ⟨hstay, hup⟩
    · rw [Place.enter, if_pos hstay, follow, if_pos hstay, climbFrom, if_pos hstay]
      exact ih absolute base names
    · rcases List.eq_nil_or_concat names with rfl | ⟨names, s, rfl⟩
      · have hclimb : climbFrom ([] : List String).length (".." :: rest) =
            climbFrom 0 rest + 1 := rfl
        have hfollow : follow base ".." = base.dropLast ++ [] := (List.append_nil _).symm
        rw [Place.enter_up_nil, List.append_nil, hfollow, hclimb, ← take_dropLast,
          beq_false_of_ne (Nat.succ_ne_zero _), Bool.and_false]
        exact ih false base.dropLast []
      · rw [List.concat_eq_append, Place.enter_up_concat, ← List.append_assoc, follow_up_concat,
          climbFrom_up_concat]
        exact ih absolute base names
    · rw [Place.enter_name absolute names hstay hup, follow_name _ hstay hup,
        climbFrom_name names rest hstay hup, List.append_assoc]
      exact ih absolute base (names ++ [part])

/-! ## Places and locations -/

namespace Path

variable {p q : Path} {base : List String}

theorem exists_names (p : Path) (base : List String) : ∃ names,
    p.resolve = .of (p.isAbsolute && p.climb == 0) names ∧
      p.locate base = p.origin base ++ names := by
  have hstart : (⟨if p.isAbsolute then [.root] else []⟩ : Place) = .of p.isAbsolute [] := by
    cases p.isAbsolute <;> rfl
  obtain ⟨names, hresolve, hfollow⟩ :=
    foldl_enter_follow p.isAbsolute (if p.isAbsolute then [] else base) [] p.parts
  refine ⟨names, ?_, ?_⟩
  · rw [resolve, hstart]
    exact hresolve
  · rw [List.append_nil] at hfollow
    rw [locate, hfollow, origin]
    cases p.isAbsolute with
    | true => rw [if_pos rfl, if_pos rfl, List.take_nil]
    | false => rfl

/-- The names of the place of a path, behind where they start, are its location. -/
theorem locate_eq (p : Path) (base : List String) :
    p.locate base = p.origin base ++ p.resolve.names := by
  obtain ⟨names, hresolve, hlocate⟩ := p.exists_names base
  rw [hlocate, hresolve, Place.names_of]

/-- The place of a path is told from the root on if the path is and never climbs. -/
theorem isAbsolute_resolve (p : Path) :
    p.resolve.IsAbsolute ↔ p.isAbsolute = true ∧ p.climb = 0 := by
  obtain ⟨names, hresolve, -⟩ := p.exists_names []
  rw [hresolve, Place.isAbsolute_of, Bool.and_eq_true, beq_iff_eq]

theorem locate_eq_iff (h : p.resolve = q.resolve) :
    p.locate base = q.locate base ↔ p.origin base = q.origin base := by
  rw [locate_eq, locate_eq, h, List.append_left_inj]

theorem length_origin (p : Path) (base : List String) :
    (p.origin base).length = if p.isAbsolute then 0 else base.length - p.climb := by
  unfold origin
  split
  · rfl
  · rw [List.length_take]
    omega

theorem StartsLike.origin_eq (h : p.StartsLike q) (base : List String) :
    p.origin base = q.origin base := by
  obtain ⟨habsolute, hclimb⟩ := h
  unfold origin
  rw [← habsolute]
  rcases hclimb with hroot | hclimb
  · rw [if_pos hroot, if_pos hroot]
  · rw [hclimb]

/-- Paths that do not start alike are told apart by a directory that is deep enough for both. -/
theorem exists_origin_ne (h : ¬ p.StartsLike q) :
    ∃ base, p.FitsIn base ∧ q.FitsIn base ∧ p.origin base ≠ q.origin base := by
  refine ⟨List.replicate (p.climb + q.climb + 1) "a", .inr ?_, .inr ?_, fun e => h ?_⟩
  · rw [List.length_replicate]
    omega
  · rw [List.length_replicate]
    omega
  · have hlength := congrArg List.length e
    rw [length_origin, length_origin, List.length_replicate] at hlength
    -- only paths that are not told from the root on leave names of the directory
    cases hp : p.isAbsolute <;> cases hq : q.isAbsolute <;>
      simp only [hp, hq, if_true, if_false, Bool.false_eq_true] at hlength
    case false.false => exact ⟨hp.trans hq.symm, .inr (by omega)⟩
    case true.true => exact ⟨hp.trans hq.symm, .inl hp⟩
    all_goals omega

/-- Paths that lead to one place and never climb start alike. -/
theorem startsLike_of_climb_eq_zero (hp : p.climb = 0) (hq : q.climb = 0)
    (h : p.resolve = q.resolve) : p.StartsLike q := by
  have habsolute : p.isAbsolute = true ↔ q.isAbsolute = true := by
    have hplaces := p.isAbsolute_resolve
    rwa [h, q.isAbsolute_resolve, and_iff_left hq, and_iff_left hp, iff_comm] at hplaces
  exact ⟨Bool.eq_iff_iff.2 habsolute, .inr (hp.trans hq.symm)⟩

end Path

/-! ## Insertion -/

namespace SourceTree

theorem lookup_cons_eq_ite (f : Place × String) (rest : List (Place × String)) (place : Place) :
    (f :: rest).lookup place = if place = f.1 then some f.2 else rest.lookup place := by
  rw [List.lookup_cons]
  by_cases h : place = f.1
  · rw [if_pos h, beq_iff_eq.2 h]
  · rw [if_neg h, beq_false_of_ne h]

/-- Only where a file is inserted is another text found than before. -/
theorem lookup_insertFile (place other : Place) (text : String) (files : List (Place × String)) :
    (insertFile place text files).lookup other =
      if other = place then some text else files.lookup other := by
  induction files with
  | nil => exact lookup_cons_eq_ite _ _ _
  | cons f rest ih =>
    unfold insertFile
    split
    · exact lookup_cons_eq_ite _ _ _
    · next heq =>
      rw [lookup_cons_eq_ite, lookup_cons_eq_ite, ← Place.eq_of_compare heq]
      by_cases h : other = place
      · rw [if_pos h, if_pos h]
      · rw [if_neg h, if_neg h, if_neg h]
    · next hgt =>
      have hne : f.1 ≠ place := (Place.precedes_of_gt hgt).ne
      rw [lookup_cons_eq_ite, lookup_cons_eq_ite, ih]
      by_cases h : other = f.1
      · rw [if_pos h, if_pos h, if_neg (h ▸ hne)]
      · rw [if_neg h, if_neg h]

theorem read_insert (t : SourceTree) (p q : Path) (text : String) :
    (t.insert q text).read p = if p.resolve = q.resolve then .ok text else t.read p := by
  unfold read insert
  rw [lookup_insertFile]
  by_cases h : p.resolve = q.resolve
  · rw [if_pos h, if_pos h]
  · rw [if_neg h, if_neg h]

end SourceTree

namespace Path

/-- Paths with the same place denote the same location from every directory that is deep enough for
them exactly if they start alike, which they do if they never climb. A path from the root on has a
place of that kind exactly if it never climbs. A file that is inserted at one path is read at any
other one with the same place; if both start alike or never climb, and denote different locations,
the insertion changes nothing there. -/
theorem resolve_exact (p q : Path) :
    (p.resolve = q.resolve →
      ((∀ base, p.FitsIn base → q.FitsIn base → p.locate base = q.locate base) ↔
        p.StartsLike q)) ∧
    (p.climb = 0 → q.climb = 0 → p.resolve = q.resolve → p.StartsLike q) ∧
    (p.resolve.IsAbsolute ↔ p.isAbsolute = true ∧ p.climb = 0) ∧
    (p.resolve = q.resolve → ∀ (t : SourceTree) text, (t.insert q text).read p = .ok text) ∧
    (∀ base, (p.climb = 0 ∧ q.climb = 0) ∨ p.StartsLike q → p.locate base ≠ q.locate base →
      ∀ (t : SourceTree) text, (t.insert q text).read p = t.read p) := by
  refine ⟨fun h => ⟨fun hall => ?_, fun hstarts base _ _ => ?_⟩, startsLike_of_climb_eq_zero,
    p.isAbsolute_resolve, fun h t text => ?_, fun base hstarts hne t text => ?_⟩
  · by_contra hstarts
    obtain ⟨base, hp, hq, hne⟩ := exists_origin_ne hstarts
    exact hne ((locate_eq_iff h).1 (hall base hp hq))
  · exact (locate_eq_iff h).2 (hstarts.origin_eq base)
  · rw [SourceTree.read_insert, if_pos h]
  · rw [SourceTree.read_insert, if_neg]
    intro h
    have hlike : p.StartsLike q :=
      hstarts.elim (fun hno => startsLike_of_climb_eq_zero hno.1 hno.2 h) id
    exact hne ((locate_eq_iff h).2 (hlike.origin_eq base))

instance (p : Path) (base : List String) : Decidable (p.FitsIn base) :=
  inferInstanceAs (Decidable (_ ∨ _))

instance (p q : Path) : Decidable (p.StartsLike q) := inferInstanceAs (Decidable (_ ∧ _))

instance (p : Place) : Decidable p.IsAbsolute :=
  inferInstanceAs (Decidable (p.steps.head? = some .root))

/-- Two ways to a file beside the directory, and another file there. -/
theorem resolve_exact_beside :
    let p : Path := ⟨"../lib/./a.dsl"⟩
    let q : Path := ⟨"x/../..//lib/a.dsl"⟩
    let r : Path := ⟨"../lib/b.dsl"⟩
    let base := ["home", "app"]
    p.resolve = q.resolve ∧ p.StartsLike q ∧ p.FitsIn base ∧ q.FitsIn base ∧
      p.locate base = q.locate base ∧ p.StartsLike r ∧ p.locate base ≠ r.locate base ∧
      ∀ t : SourceTree, (t.insert r "module b").read p = t.read p := by
  intro p q r base
  have hplace : p.resolve = q.resolve := by decide +kernel
  have hstarts : p.StartsLike q := by decide +kernel
  have hp : p.FitsIn base := by decide +kernel
  have hq : q.FitsIn base := by decide +kernel
  have hother : p.StartsLike r := by decide +kernel
  have hne : p.locate base ≠ r.locate base := by decide +kernel
  exact ⟨hplace, hstarts, hp, hq, ((resolve_exact p q).1 hplace).2 hstarts base hp hq, hother, hne,
    fun t => (resolve_exact p r).2.2.2.2 base (.inr hother) hne t "module b"⟩

/-- A file beside the directory has the place of one in it, and takes its place. A path that leads
above the root has a place that is not told from the root on. -/
theorem resolve_merges_climbing :
    let p : Path := ⟨"a.dsl"⟩
    let q : Path := ⟨"../a.dsl"⟩
    let r : Path := ⟨"/../a.dsl"⟩
    let base := ["home", "app"]
    p.FitsIn base ∧ q.FitsIn base ∧ p.resolve = q.resolve ∧
      p.locate base = ["home", "app", "a.dsl"] ∧ q.locate base = ["home", "a.dsl"] ∧
      ((SourceTree.ofList [(p, "module a")]).read p).toOption = some "module a" ∧
      (((SourceTree.ofList [(p, "module a")]).insert q "module b").read p).toOption =
        some "module b" ∧
      r.isAbsolute = true ∧ ¬ r.resolve.IsAbsolute ∧ p.resolve = r.resolve := by
  decide +kernel

end Path

end Blueprint
