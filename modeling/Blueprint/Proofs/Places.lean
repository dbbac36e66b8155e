import Blueprint.Path
import Mathlib.Data.List.Basic

/-!
# Places

Places are ordered part by part, and the order is a lawful one. Where a path leads is a place of a
certain shape: names, behind the root or not (`Path.isResolved_resolve`). Written as a path again,
such a place is where this path leads (`Place.IsResolved.resolve_render`).
-/

namespace Blueprint

/-! ## The order of places -/

instance : Std.LawfulEqOrd Step where
  compare_self {a} := by
    cases a with
    | root => rfl
    | name s =>
      have hself : compare s s = .eq := Std.ReflCmp.compare_self
      show (compare s s).then .eq = .eq
      rw [hself]
      rfl
  eq_of_compare {a b} h := by
    cases a <;> cases b
    case root.root => rfl
    case name.name s s' =>
      change (compare s s').then .eq = .eq at h
      rw [Ordering.then_eq] at h
      rw [Std.LawfulEqCmp.eq_of_compare h]
    all_goals cases h

instance : Std.TransOrd Step where
  eq_swap {a b} := by
    cases a <;> cases b
    case name.name s s' =>
      show (compare s s').then .eq = ((compare s' s).then .eq).swap
      rw [Ordering.then_eq, Ordering.then_eq]
      exact Std.OrientedCmp.eq_swap
    all_goals rfl
  isLE_trans {a b c} hab hbc := by
    cases a <;> cases b <;> cases c
    case name.name.name s s' s'' =>
      change ((compare s s').then .eq).isLE = true at hab
      change ((compare s' s'').then .eq).isLE = true at hbc
      show ((compare s s'').then .eq).isLE = true
      rw [Ordering.then_eq] at hab hbc ⊢
      exact Std.TransCmp.isLE_trans hab hbc
    all_goals first | rfl | cases hab | cases hbc

namespace Place

/-- Files at the place are listed in front of those at the other one. -/
def Precedes (p q : Place) : Prop := compare p.steps q.steps = .lt

instance : DecidableRel Precedes := fun _ _ => instDecidableEqOrdering _ _

variable {p q r : Place}

theorem Precedes.trans (h : p.Precedes q) (h' : q.Precedes r) : p.Precedes r :=
  Std.TransCmp.lt_trans h h'

theorem Precedes.ne (h : p.Precedes q) : p ≠ q := by
  rintro rfl
  have hself : compare p.steps p.steps = .eq := Std.ReflCmp.compare_self
  cases hself.symm.trans h

theorem eq_of_compare (h : compare p.steps q.steps = .eq) : p = q := by
  cases p
  cases q
  exact congrArg _ (Std.LawfulEqCmp.eq_of_compare h)

theorem precedes_of_gt (h : compare p.steps q.steps = .gt) : q.Precedes p :=
  Std.OrientedCmp.gt_iff_lt.1 h

/-- Names, from the root on or from wherever one is. -/
def of (absolute : Bool) (names : List String) : Place :=
  ⟨(if absolute then [.root] else []) ++ names.map .name⟩

end Place

/-! ## Where paths lead -/

/-- What a file or a directory can be called. -/
structure IsFileName (s : String) : Prop where
  nonempty : s ≠ ""
  noSlash : '/' ∉ s.toList
  not_dot : s ≠ "."
  not_dots : s ≠ ".."

namespace Place

/-- The place is written without `.`, `..` and doubled slashes. -/
def IsResolved (p : Place) : Prop :=
  ∃ absolute names, p = of absolute names ∧ ∀ s ∈ names, IsFileName s

variable {p : Place} {absolute : Bool} {names : List String} {part : String}

theorem of_concat (absolute : Bool) (names : List String) (s : String) :
    (⟨(of absolute names).steps ++ [.name s]⟩ : Place) = of absolute (names ++ [s]) := by
  unfold of
  rw [List.map_append, ← List.append_assoc]
  rfl

theorem enter_of_isFileName (h : IsFileName part) (absolute : Bool) (names : List String) :
    (of absolute names).enter part = of absolute (names ++ [part]) := by
  have hempty : part.isEmpty = false := by
    rw [Bool.eq_false_iff, ne_eq, String.isEmpty_iff]
    exact h.nonempty
  unfold enter
  rw [hempty, beq_false_of_ne h.not_dot, beq_false_of_ne h.not_dots]
  exact of_concat absolute names part

/-- A part of a path leads from such a place to such a place. -/
theorem IsResolved.enter (h : p.IsResolved) (hpart : '/' ∉ part.toList) :
    (p.enter part).IsResolved := by
  obtain ⟨absolute, names, rfl, hnames⟩ := h
  by_cases hstay : part = "" ∨ part = "."
  · refine ⟨absolute, names, ?_, hnames⟩
    rcases hstay with rfl | rfl <;> rfl
  rw [not_or] at hstay
  by_cases hup : part = ".."
  · subst hup
    show (⟨(of absolute names).steps.dropLast⟩ : Place).IsResolved
    rcases List.eq_nil_or_concat names with rfl | ⟨names, s, rfl⟩
    · refine ⟨false, [], ?_, List.forall_mem_nil _⟩
      cases absolute <;> rfl
    · rw [List.concat_eq_append, List.forall_mem_append] at hnames
      refine ⟨absolute, names, ?_, hnames.1⟩
      rw [List.concat_eq_append, ← of_concat, List.dropLast_concat]
  · have hname : IsFileName part := ⟨hstay.1, hpart, hstay.2, hup⟩
    rw [enter_of_isFileName hname]
    refine ⟨absolute, names ++ [part], rfl, ?_⟩
    rw [List.forall_mem_append, List.forall_mem_singleton]
    exact ⟨hnames, hname⟩

end Place

/-- What stands between separators contains none. -/
theorem not_mem_of_mem_splitOn {c : Char} {cs : List Char} : ∀ l ∈ cs.splitOn c, c ∉ l := by
  induction cs with
  | nil =>
    rw [List.splitOn_nil, List.forall_mem_singleton]
    exact List.not_mem_nil
  | cons d cs ih =>
    rw [List.splitOn_cons_eq_if_modifyHead]
    split
    · exact List.forall_mem_cons.2 ⟨List.not_mem_nil, ih⟩
    · next hd =>
      obtain ⟨l, ls, hl⟩ := List.exists_cons_of_ne_nil (List.splitOn_ne_nil c cs)
      rw [hl, List.forall_mem_cons] at ih
      rw [hl, List.modifyHead_cons, List.forall_mem_cons, List.mem_cons, not_or]
      exact ⟨⟨fun e => hd (beq_iff_eq.2 e.symm), ih.1⟩, ih.2⟩

namespace Path

theorem not_mem_parts (p : Path) : ∀ part ∈ p.parts, '/' ∉ part.toList := by
  intro part hpart
  obtain ⟨l, hl, rfl⟩ := List.mem_map.1 hpart
  rw [String.toList_ofList]
  exact not_mem_of_mem_splitOn l hl

theorem isResolved_resolve (p : Path) : p.resolve.IsResolved := by
  have hfold : ∀ (parts : List String) (q : Place), q.IsResolved →
      (∀ part ∈ parts, '/' ∉ part.toList) → (parts.foldl Place.enter q).IsResolved := by
    intro parts
    induction parts with
    | nil => exact fun q hq _ => hq
    | cons part parts ih =>
      intro q hq hparts
      rw [List.forall_mem_cons] at hparts
      exact ih _ (hq.enter hparts.1) hparts.2
  refine hfold p.parts _ ⟨p.isAbsolute, [], ?_, List.forall_mem_nil _⟩ p.not_mem_parts
  cases p.isAbsolute <;> rfl

end Path

/-! ## Places as paths -/

namespace Place

variable {p q : Place} {absolute : Bool} {names : List String}

theorem render_of (absolute : Bool) (names : List String) :
    (of absolute names).render = (if absolute then "/" else "") ++ "/".intercalate names := by
  unfold render of
  dsimp only
  rw [List.filterMap_append, List.filterMap_map]
  have hnames (l : List String) : l.filterMap some = l := List.filterMap_some
  cases absolute with
  | true => exact congrArg (fun l => "/" ++ "/".intercalate l) (hnames names)
  | false =>
    have hhead : ((names.map Step.name).head? == some .root) = false := by
      cases names <;> rfl
    show (if (names.map Step.name).head? == some .root then "/" else "") ++ _ = _
    rw [hhead]
    exact congrArg (fun l => "" ++ "/".intercalate l) (hnames names)

theorem toList_render_of (absolute : Bool) (names : List String) :
    (of absolute names).render.toList =
      (if absolute then ['/'] else []) ++ ['/'].intercalate (names.map String.toList) := by
  rw [render_of, String.toList_append, String.toList_intercalate]
  cases absolute <;> rfl

/-- What is written between slashes starts with none. -/
theorem head?_intercalate_ne {s : String} (hs : IsFileName s) (ss : List String) :
    (['/'].intercalate ((s :: ss).map String.toList)).head? ≠ some '/' := by
  have hne : s.toList ≠ [] := by
    rw [ne_eq, String.toList_eq_nil_iff]
    exact hs.nonempty
  obtain ⟨c, cs, hc⟩ := List.exists_cons_of_ne_nil hne
  have hslash : c ≠ '/' := fun e => hs.noSlash (by rw [hc, e]; exact List.mem_cons_self)
  rw [List.map_cons, hc]
  cases ss with
  | nil =>
    rw [List.map_nil, List.intercalate_singleton]
    exact fun e => hslash (Option.some.inj e)
  | cons s' ss =>
    rw [List.map_cons, List.intercalate_cons_cons]
    exact fun e => hslash (Option.some.inj e)

section

variable (hnames : ∀ s ∈ names, IsFileName s)

include hnames

theorem isAbsolute_render_of (absolute : Bool) :
    (⟨(of absolute names).render⟩ : Path).isAbsolute = absolute := by
  unfold Path.isAbsolute
  dsimp only
  rw [toList_render_of]
  cases absolute with
  | true => rfl
  | false =>
    cases names with
    | nil => rfl
    | cons s ss => exact beq_false_of_ne (head?_intercalate_ne (hnames s List.mem_cons_self) ss)

/-- Only in front of the first slash and behind the last one can nothing stand. -/
theorem parts_render_of (absolute : Bool) : (⟨(of absolute names).render⟩ : Path).parts =
    (if absolute then [""] else []) ++ if names = [] then [""] else names := by
  have hsplit : (['/'].intercalate (names.map String.toList)).splitOn '/' =
      if names = [] then [[]] else names.map String.toList := by
    split
    · next hnil =>
      rw [hnil]
      rfl
    · next hne =>
      refine List.splitOn_intercalate '/' (fun l hl => ?_) (List.map_eq_nil_iff.not.2 hne)
      obtain ⟨s, hs, rfl⟩ := List.mem_map.1 hl
      exact (hnames s hs).noSlash
  have hback : (if names = [] then [[]] else names.map String.toList).map String.ofList =
      if names = [] then [""] else names := by
    split
    · rfl
    · rw [List.map_map]
      exact List.map_id'' (fun s => String.ofList_toList) names
  unfold Path.parts
  dsimp only
  rw [toList_render_of]
  cases absolute with
  | true =>
    have hfirst (cs : List Char) : List.splitOn '/' ('/' :: cs) = [] :: cs.splitOn '/' :=
      List.splitOn_append_cons_self_of_not_mem List.not_mem_nil cs
    show (List.splitOn '/' ('/' :: ['/'].intercalate (names.map String.toList))).map _ = _
    rw [hfirst, hsplit, List.map_cons, hback]
    rfl
  | false =>
    show (List.splitOn '/' (['/'].intercalate _)).map String.ofList = _
    rw [hsplit, hback]
    rfl

theorem foldl_enter_of (absolute : Bool) (before : List String) :
    names.foldl enter (of absolute before) = of absolute (before ++ names) := by
  induction names generalizing before with
  | nil => rw [List.append_nil, List.foldl_nil]
  | cons s ss ih =>
    rw [List.forall_mem_cons] at hnames
    rw [List.foldl_cons, enter_of_isFileName hnames.1, ih hnames.2, List.append_assoc,
      List.singleton_append]

end

/-- A place that a path leads to is where its own text leads. -/
theorem IsResolved.resolve_render (h : p.IsResolved) : (⟨p.render⟩ : Path).resolve = p := by
  obtain ⟨absolute, names, rfl, hnames⟩ := h
  unfold Path.resolve
  rw [isAbsolute_render_of hnames, parts_render_of hnames, List.foldl_append]
  have hstart : (if absolute then [""] else []).foldl Place.enter
      ⟨if absolute then [.root] else []⟩ = of absolute [] := by
    cases absolute <;> rfl
  rw [hstart]
  split
  · next hnil =>
    rw [hnil]
    rfl
  · exact foldl_enter_of hnames absolute []

/-- So two such places are written differently. -/
theorem IsResolved.eq_of_render (hp : p.IsResolved) (hq : q.IsResolved)
    (h : p.render = q.render) : p = q := by
  rw [← hp.resolve_render, h, hq.resolve_render]

end Place

end Blueprint
