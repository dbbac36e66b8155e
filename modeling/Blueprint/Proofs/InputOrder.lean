import Blueprint.Proofs.MissedCircles
import Blueprint.Proofs.UnusedImports
import Mathlib.Data.List.Find

/-!
# The order in which modules are given

Linking does not depend on it. Every stage looks at the modules one after the other, but what it
asks of them is asked of all alike: stage by stage, both runs succeed or both fail, with errors of
one sort (`Except.Alike`), and what is handed on is the same up to rearrangement
(`linkModules_alike`).

1. There is an order for both or for neither, and both hold the same modules.
2. Both symbol tables are `Rearranged`, so references lead to the same places.
3. The warnings are the same: a circle of references is found whatever the order of the entities.
-/

namespace Blueprint

/-! ## The sort of an error -/

/-- Both errors are of one category. -/
def LinkError.SameCategory (e e' : LinkError) : Prop := e'.category = e.category

/-- Both errors are reported by stages of one sort, and between modules they are of one category. -/
inductive CompileError.SameSort : CompileError → CompileError → Prop where
  | source (e e' : SyntaxError) : SameSort (.source e) (.source e')
  | link (e e' : LinkError) (h : e.SameCategory e') : SameSort (.link e) (.link e')
  | reference (e e' : ReferenceError) : SameSort (.reference e) (.reference e')
  | denied (warnings warnings' : List Warning) : SameSort (.denied warnings) (.denied warnings')

/-! ## The order of modules -/

namespace ModuleOrder

variable {modules others : List Module}

theorem distinct_iff_of_perm (h : modules.Perm others) : Distinct others ↔ Distinct modules :=
  (h.map Module.name).nodup_iff.symm

theorem closed_iff_of_perm (h : modules.Perm others) : Closed others ↔ Closed modules := by
  unfold Closed
  simp only [h.mem_iff, (h.map Module.name).mem_iff]

theorem acyclic_iff_of_perm (h : modules.Perm others) : Acyclic others ↔ Acyclic modules := by
  have hedge : Edge others = Edge modules := by
    funext a b
    unfold Edge
    simp only [h.mem_iff]
  unfold Acyclic OnCircle
  rw [hedge]

theorem orderModules_alike (h : modules.Perm others) :
    Except.Alike LinkError.SameCategory List.Perm (orderModules modules) (orderModules others) := by
  have hd := distinct_iff_of_perm h
  have hc := closed_iff_of_perm h
  refine .of_iff ?_ (fun order order' ho ho' => ?_) fun e e' => category_eq_of_iff hd hc
  · simp only [orderModules_eq_ok_iff, hd, hc, acyclic_iff_of_perm h, exists_and_left, exists_eq]
  · exact (perm_of_orderModules ho).trans (h.trans (perm_of_orderModules ho').symm)

end ModuleOrder

/-! ## Symbols and the application -/

theorem SymbolTable.category_of_of? {modules : List Module} {e : LinkError}
    (he : of? modules = .error e) : e.category = .duplicateSymbol := by
  unfold of? at he
  dsimp only at he
  split at he
  · cases he
  · cases he
    rfl

theorem category_of_declaredApp? {modules : List Module} {e : LinkError}
    (he : declaredApp? modules = .error e) : e.category = .duplicateSymbol := by
  unfold declaredApp? at he
  split at he
  · cases he
  · cases he
  · cases he
    rfl

theorem category_of_checkVisibility {modules : List Module} {t : SymbolTable} {e : LinkError}
    (he : checkVisibility modules t = .error e) : e.category = .visibility := by
  obtain ⟨findings, e'⟩ := checkVisibility_eq_error_of_ne_ok fun hok => nomatch hok.symm.trans he
  cases e'.symm.trans he
  rfl

section

variable {order order' : List Module} (h : order.Perm order')

include h

theorem SymbolTable.of?_alike :
    Except.Alike LinkError.SameCategory Rearranged (of? order) (of? order') := by
  refine .of_iff ?_ (fun t t' ht ht' => ?_) fun e e' he he' => ?_
  · rw [exists_of?_iff, exists_of?_iff]
    exact (h.flatMap_right fun m => m.declarations.subjects).nodup_iff
  · exact rearranged_of_contents ht ht' (h.map Module.content).symm
  · exact (category_of_of? he').trans (category_of_of? he).symm

theorem declaredApp?_alike :
    Except.Alike LinkError.SameCategory Eq (declaredApp? order) (declaredApp? order') := by
  have happs := h.flatMap_right fun m => m.app.toList
  have hsame : ∀ app, declaredApp? order = .ok app ↔ declaredApp? order' = .ok app := by
    intro app
    rw [declaredApp?_eq_ok_iff, declaredApp?_eq_ok_iff]
    exact ⟨fun e => eq_toList_of_perm (e ▸ happs.symm), fun e => eq_toList_of_perm (e ▸ happs)⟩
  refine .of_iff (exists_congr hsame) (fun app app' ha ha' => ?_) fun e e' he he' => ?_
  · exact Except.ok.inj (((hsame app).1 ha).symm.trans ha')
  · exact (category_of_declaredApp? he').trans (category_of_declaredApp? he).symm

/-! ## References -/

theorem checkVisibility_alike {t t' : SymbolTable} (hr : t.Rearranged t') :
    Except.Alike LinkError.SameCategory (fun _ _ => True) (checkVisibility order t)
      (checkVisibility order' t') := by
  have hsame : checkVisibility order t = .ok () ↔ checkVisibility order' t' = .ok () := by
    simp only [checkVisibility_eq_ok_iff, Module.violation?_eq_none_iff_owner, hr.reference_owner?,
      h.mem_iff]
  refine .of_check_iff hsame fun e e' he he' => ?_
  exact (category_of_checkVisibility he').trans (category_of_checkVisibility he).symm

omit h in
theorem validateReferences_alike {t t' : SymbolTable} (hr : t.Rearranged t') :
    Except.Alike (fun _ _ => True) (fun _ _ => True) (validateReferences t t.declarations)
      (validateReferences t' t'.declarations) := by
  have hsame : validateReferences t t.declarations = .ok () ↔
      validateReferences t' t'.declarations = .ok () := by
    rw [validateReferences_eq_ok_iff_valid, validateReferences_eq_ok_iff_valid]
    exact ⟨hr.valid, hr.symm.valid⟩
  exact .of_check_iff hsame fun _ _ _ _ => trivial

/-! ## Warnings -/

theorem unusedImports_perm {t t' : SymbolTable} (hr : t.Rearranged t') :
    (unusedImports order' t').Perm (unusedImports order t) := by
  simp only [unusedImports_eq, hr.unusedUses]
  exact h.symm.flatMap_right _

end

namespace EntityCycle

/-- Whatever the order of the entities, the warnings about their circles are the same. -/
theorem cycleWarnings_perm {entities others : List Entity} (hd : Distinct entities)
    (h : entities.Perm others) : (cycleWarnings others).Perm (cycleWarnings entities) := by
  have hcycles : (entityCycles others).Perm (entityCycles entities) :=
    (List.perm_ext_iff_of_nodup (nodup_entityCycles others) (nodup_entityCycles entities)).2
      fun c => mem_entityCycles_iff_of_perm hd h
  have hwarning : cycleWarning others = cycleWarning entities := by
    funext c
    have hfind : entities.find? (fun e => c.head? == some e.name) =
        others.find? (fun e => c.head? == some e.name) := by
      refine List.find?_eq_find?_of_perm h ?_
      rintro e ⟨he, hname⟩ e' ⟨he', hname'⟩
      refine List.inj_on_of_nodup_map hd he he' (Option.some.inj ?_)
      exact (eq_of_beq hname).symm.trans (eq_of_beq hname')
    unfold cycleWarning
    rw [hfind]
  unfold cycleWarnings
  rw [hwarning]
  exact hcycles.map _

end EntityCycle

/-! ## Main result -/

/-- Stage by stage, modules in another order link alike. -/
theorem linkModules_alike {modules others : List Module} (h : modules.Perm others) :
    Except.Alike CompileError.SameSort (fun l l' =>
      l.symbols.Rearranged l'.symbols ∧ l'.app = l.app ∧ l'.warnings.Perm l.warnings)
      (linkModules modules) (linkModules others) := by
  unfold linkModules
  refine ((ModuleOrder.orderModules_alike h).mapError CompileError.SameSort.link).bind
    fun order order' ho => ?_
  refine ((SymbolTable.of?_alike ho).mapError CompileError.SameSort.link).bind ?_
  intro t t' hr
  refine ((declaredApp?_alike ho).mapError CompileError.SameSort.link).bind ?_
  rintro app _ rfl
  refine ((checkVisibility_alike ho hr).mapError CompileError.SameSort.link).bind fun _ _ _ => ?_
  refine ((validateReferences_alike hr).mapError
    fun e e' _ => CompileError.SameSort.reference e e').bind fun _ _ _ => ?_
  refine .ok ⟨hr, rfl, (unusedImports_perm ho hr).append ?_⟩
  exact EntityCycle.cycleWarnings_perm (t.nodup_namesOf .entity) (hr.named .entity).symm

/-- In whatever order modules are given, they link or they do not, and then for the same sort of
reason. If they do, the same things are declared by the same modules, and the warnings are the same:
those about unused modules as those about circles of entities. -/
theorem linkModules_perm {modules others : List Module} (h : modules.Perm others) :
    (∀ e, linkModules modules = .error e →
      ∃ e', linkModules others = .error e' ∧ e.SameSort e') ∧
    ∀ l, linkModules modules = .ok l → ∃ l', linkModules others = .ok l' ∧
      (∀ k, (l'.declarations.named k).Perm (l.declarations.named k)) ∧ l'.app = l.app ∧
      l'.declarations.llmConfig = l.declarations.llmConfig ∧
      l'.declarations.policies = l.declarations.policies ∧
      l'.declarations.tenancy = l.declarations.tenancy ∧
      (∀ k n, l'.symbols.owner? k n = l.symbols.owner? k n) ∧
      l'.unusedImportWarnings.Perm l.unusedImportWarnings ∧
      ((∃ w ∈ l'.warnings, w.kind = .entityCycle) ↔ ∃ w ∈ l.warnings, w.kind = .entityCycle) ∧
      l'.warnings.Perm l.warnings := by
  have hlink := linkModules_alike h
  refine ⟨fun e he => hlink.exists_error he, fun l hl => ?_⟩
  obtain ⟨l', hl', hr, happ, hwarnings⟩ := hlink.exists_ok hl
  obtain ⟨hconfig, hpolicies, htenancy⟩ := hr.singletons
  refine ⟨l', hl', hr.named, happ, hconfig, hpolicies, htenancy, hr.owner?, hwarnings.filter _, ?_,
    hwarnings⟩
  simp only [hwarnings.mem_iff]

theorem linkModules_perm_notes :
    (∃ l l', linkModules [notesModule, customersModule, annotatedOrders] = .ok l ∧
      linkModules [annotatedOrders, notesModule, customersModule] = .ok l' ∧
      l.unusedImportWarnings ≠ [] ∧ l'.unusedImportWarnings.Perm l.unusedImportWarnings) ∧
    ∃ e e', linkModules [annotatedOrders, customersModule] = .error e ∧
      linkModules [customersModule, annotatedOrders] = .error e' ∧ e.SameSort e' := by
  constructor
  · have h : [notesModule, customersModule, annotatedOrders].Perm
        [annotatedOrders, notesModule, customersModule] :=
      List.perm_append_singleton annotatedOrders [notesModule, customersModule]
    obtain ⟨l, hl, hwarned⟩ := Except.exists_eq_ok_of_any
      (x := linkModules [notesModule, customersModule, annotatedOrders])
      (p := fun l => !l.unusedImportWarnings.isEmpty) rfl
    obtain ⟨l', hl', -, -, -, -, -, -, hwarnings, -⟩ := (linkModules_perm h).2 l hl
    exact ⟨l, l', hl, hl', by simpa using hwarned, hwarnings⟩
  · have he : linkModules [annotatedOrders, customersModule] =
        .error (.link ⟨.missingDependency,
          [⟨some annotatedOrders.start, .undefinedModule "orders" "notes"⟩]⟩) := rfl
    obtain ⟨e', he', hsort⟩ := (linkModules_perm (.swap customersModule annotatedOrders [])).1 _ he
    exact ⟨_, e', he, he', hsort⟩

end Blueprint
