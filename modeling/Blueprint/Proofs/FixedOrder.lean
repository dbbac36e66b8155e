import Blueprint.Application.Compile
import Blueprint.Proofs.InputOrder
import Mathlib.Data.List.Perm.Basic

/-!
# Ordering what is in order

Modules that are given in the order that they have are ordered the same (`orderModules_of_ordered`),
so nothing that is made of them changes either.

1. The modules that are taken or wait stand first in the order, as they are (`isPrefix_take`).
2. So those that are released together stand in the order as they did among the given modules. Where
   modules are given in the order, the same ones are released, one behind the other
   (`filter_eq_of_sublist`).
3. From one step to the next, both runs go on with the same queue (`take_order_eq`).
-/

namespace Blueprint

namespace ModuleOrder

variable {modules order taken queue : List Module} {bound : Nat}

/-- What is picked from a list is picked in the same order from a rearrangement in which it stands
in that order. -/
theorem filter_eq_of_sublist {l l' : List Module} {p : Module → Bool} (hperm : l'.Perm l)
    (h : (l.filter p).Sublist l') : l'.filter p = l.filter p := by
  have hpicked := h.filter p
  simp only [List.filter_filter, Bool.and_self] at hpicked
  exact (hpicked.eq_of_length (hperm.filter p).length_eq.symm).symm

/-- What is taken or waits stays where it is. -/
theorem isPrefix_take (hd : Distinct modules) (h : Progress modules taken queue)
    (hb : modules.length ≤ taken.length + bound) :
    taken ++ queue <+: take modules bound taken queue := by
  induction bound generalizing taken queue with
  | zero =>
    have hqueue : queue.length = 0 := by have := h.length_le; omega
    rw [List.length_eq_zero_iff.1 hqueue, List.append_nil]
    exact List.prefix_refl taken
  | succ bound ih =>
    cases queue with
    | nil =>
      rw [List.append_nil]
      exact List.prefix_refl taken
    | cons m queue =>
      have hnext := ih (h.step hd) (by rw [List.length_append, List.length_singleton]; omega)
      have hfront : taken ++ m :: queue <+:
          (taken ++ [m]) ++ (queue ++ released modules ((taken ++ [m]).map (·.name)) m.name) := by
        rw [← List.append_assoc, ← List.append_cons]
        exact List.prefix_append _ _
      exact hfront.trans hnext

/-- Among modules that are given in their order, one step after the other leads to the same. -/
theorem take_order_eq (hd : Distinct modules) (hperm : order.Perm modules)
    (h : Progress modules taken queue) (hb : modules.length ≤ taken.length + bound)
    (ho : take modules bound taken queue = order) : take order bound taken queue = order := by
  induction bound generalizing taken queue with
  | zero => exact ho
  | succ bound ih =>
    cases queue with
    | nil => exact ho
    | cons m queue =>
      have hnext := h.step hd
      have hbound : modules.length ≤ (taken ++ [m]).length + bound := by
        rw [List.length_append, List.length_singleton]
        omega
      -- those that are released stand in the order, one behind the other
      have hprefix := isPrefix_take hd hnext hbound
      rw [take] at ho
      rw [ho] at hprefix
      have hreleased : released order ((taken ++ [m]).map (·.name)) m.name =
          released modules ((taken ++ [m]).map (·.name)) m.name :=
        filter_eq_of_sublist hperm (((List.sublist_append_right _ _).trans
          (List.sublist_append_right _ _)).trans hprefix.sublist)
      rw [take, hreleased]
      exact ih hnext hbound ho

theorem ordered_ordered (hd : Distinct modules) (hperm : (ordered modules).Perm modules) :
    ordered (ordered modules) = ordered modules := by
  have hstart := progress_start hd
  have hb : modules.length ≤ ([] : List Module).length + modules.length := by simp
  have hfirst : (ordered modules).filter (fun m => m.isReady []) =
      modules.filter fun m => m.isReady [] :=
    filter_eq_of_sublist hperm (isPrefix_take hd hstart hb).sublist
  show take _ (ordered modules).length [] ((ordered modules).filter fun m => m.isReady []) = _
  rw [hfirst, hperm.length_eq]
  exact take_order_eq hd hperm hstart hb rfl

/-- Modules that are in order stay in order. -/
theorem orderModules_of_ordered (h : orderModules modules = .ok order) :
    orderModules order = .ok order := by
  have hperm := perm_of_orderModules h
  obtain ⟨hd, hc, ha, rfl⟩ := orderModules_eq_ok_iff.1 h
  refine orderModules_eq_ok_iff.2 ⟨(distinct_iff_of_perm hperm.symm).2 hd,
    (closed_iff_of_perm hperm.symm).2 hc, (acyclic_iff_of_perm hperm.symm).2 ha, ?_⟩
  exact (ordered_ordered hd hperm).symm

end ModuleOrder

/-! ## Sources -/

/-- Sources are read one by one. -/
theorem parseSources_eq_ok_iff {sources : List Source} {modules : List Module} :
    parseSources sources = .ok modules ↔
      List.Forall₂ (fun s m => parseModule s.path s.text = .ok m) sources modules := by
  unfold parseSources
  induction sources generalizing modules with
  | nil =>
    rw [List.mapM_nil, List.forall₂_nil_left_iff]
    exact ⟨fun h => by cases h; rfl, fun h => by rw [h]; rfl⟩
  | cons s sources ih =>
    rw [List.mapM_cons, Except.bind_eq_ok_iff]
    constructor
    · rintro ⟨m, hm, h⟩
      obtain ⟨rest, hrest, h⟩ := Except.bind_eq_ok_iff.1 h
      cases h
      exact .cons hm (ih.1 hrest)
    · rintro (_ | ⟨hm, hrest⟩)
      exact ⟨_, hm, Except.bind_eq_ok_iff.2 ⟨_, ih.2 hrest, rfl⟩⟩

/-- Sources can be rearranged as their modules are. -/
theorem exists_sources_of_perm {sources : List Source} {modules order : List Module}
    (h : parseSources sources = .ok modules) (hperm : modules.Perm order) :
    ∃ sorted : List Source, sorted.Perm sources ∧ parseSources sorted = .ok order := by
  have hboth : Relation.Comp (List.Forall₂ fun s m => parseModule (Source.path s) s.text = .ok m)
      List.Perm sources order := ⟨modules, parseSources_eq_ok_iff.1 h, hperm⟩
  rw [List.forall₂_comp_perm_eq_perm_comp_forall₂] at hboth
  obtain ⟨sorted, hsorted, hread⟩ := hboth
  exact ⟨sorted, hsorted.symm, parseSources_eq_ok_iff.2 hread⟩

/-! ## Main result -/

theorem compileSources_of_parseSources {sources : List Source} {modules : List Module}
    (h : parseSources sources = .ok modules) (options : CompileOptions) :
    compileSources sources options = compileModules modules options := by
  unfold compileSources
  rw [h]
  rfl

/-- The order of modules is a fixed point. Modules that are given in it have that order again and
link to the same, or fail for the same reason. Sources that are given in the order of their modules
are among the rearrangements of any others, and make the same application of the same modules. -/
theorem orderModules_idempotent {modules order : List Module}
    (h : orderModules modules = .ok order) :
    orderModules order = .ok order ∧
    linkModules order = linkModules modules ∧
    (∀ l, linkModules modules = .ok l →
      l.order = order.map (·.name) ∧ SymbolTable.of? order = .ok l.symbols) ∧
    ∀ sources, parseSources sources = .ok modules →
      (∃ sorted : List Source, sorted.Perm sources ∧ parseSources sorted = .ok order) ∧
      ∀ sorted, parseSources sorted = .ok order → ∀ options,
        compileSources sorted options = compileSources sources options := by
  have hagain := ModuleOrder.orderModules_of_ordered h
  have hlink : linkModules order = linkModules modules := by
    unfold linkModules
    rw [hagain, h]
  refine ⟨hagain, hlink, fun l hl => ?_, fun sources hsources =>
    ⟨exists_sources_of_perm hsources (ModuleOrder.perm_of_orderModules h).symm, ?_⟩⟩
  · obtain ⟨ordered, hchecked⟩ := linkModules_eq_ok_iff.1 hl
    obtain rfl := Except.ok.inj (hchecked.ordered.symm.trans h)
    exact ⟨hchecked.names, hchecked.symbols⟩
  · intro sorted hsorted options
    rw [compileSources_of_parseSources hsorted, compileSources_of_parseSources hsources]
    unfold compileModules
    rw [hlink]

/-- Files in which modules are used by those in front of them, and one of them twice. -/
theorem orderModules_idempotent_chain :
    let sources : List Source := [⟨"c.dsl", "module c\nuse b\n"⟩, ⟨"b.dsl", "module b\nuse a\n"⟩,
      ⟨"a.dsl", "module a\n"⟩, ⟨"d.dsl", "module d\nuse c\nuse a\n"⟩]
    ∃ modules order, parseSources sources = .ok modules ∧ orderModules modules = .ok order ∧
      order.map (·.name) = ["a", "b", "c", "d"] ∧ orderModules order = .ok order ∧
      linkModules order = linkModules modules ∧
      ∃ sorted : List Source, sorted.Perm sources ∧ parseSources sorted = .ok order ∧
        compileSources sorted {} = compileSources sources {} := by
  intro sources
  obtain ⟨modules, hmodules, hordered⟩ := Except.exists_eq_ok_of_any (x := parseSources sources)
    (p := fun modules => (orderModules modules).toOption.any
      (·.map (·.name) == ["a", "b", "c", "d"])) (by decide +kernel)
  obtain ⟨order, horder, hnames⟩ := Except.exists_eq_ok_of_any hordered
  obtain ⟨hagain, hlink, -, hsources⟩ := orderModules_idempotent horder
  obtain ⟨⟨sorted, hperm, hsorted⟩, hcompile⟩ := hsources sources hmodules
  exact ⟨modules, order, hmodules, horder, eq_of_beq hnames, hagain, hlink, sorted, hperm, hsorted,
    hcompile sorted hsorted {}⟩

end Blueprint
