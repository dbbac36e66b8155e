import Blueprint.Application.Link
import Blueprint.Proofs.ModuleOrder
import Blueprint.Proofs.Outcome
import Blueprint.Proofs.Symbols

/-!
# What linking guarantees

`linkModules` checks references in two places: where a module may refer to (`checkVisibility`,
module by module) and whether a reference leads anywhere (`validateReferences`, on all declarations
together). Both see the same references (`mem_references_declarations`), so no reference of a linked
module escapes: it leads to a declaration that the module may refer to (`linkModules_sound`).
-/

namespace Blueprint

/-! ## The stages of linking -/

/-- What the stages of linking have found of modules, which are put in order. -/
structure Linked.Checked (l : Linked) (modules order : List Module) : Prop where
  ordered : orderModules modules = .ok order
  names : l.order = order.map (·.name)
  symbols : SymbolTable.of? order = .ok l.symbols
  app : declaredApp? order = .ok l.app
  visible : checkVisibility order l.symbols = .ok ()
  valid : validateReferences l.symbols l.declarations = .ok ()
  warnings : l.warnings =
    unusedImports order l.symbols ++ cycleWarnings l.declarations.entities

theorem linkModules_eq_ok_iff {modules : List Module} {l : Linked} :
    linkModules modules = .ok l ↔ ∃ order, l.Checked modules order := by
  unfold linkModules
  simp only [Except.bind_eq_ok_iff, Except.mapError_eq_ok_iff]
  constructor
  · rintro ⟨ordered, ho, symbols, hs, app, ha, ⟨⟩, hv, ⟨⟩, hr, e⟩
    cases e
    exact ⟨ordered, ho, rfl, hs, ha, hv, hr, rfl⟩
  · rintro ⟨order, h⟩
    refine ⟨order, h.ordered, _, h.symbols, _, h.app, (), h.visible, (), h.valid, ?_⟩
    have hw := h.warnings
    unfold Linked.declarations at hw
    rw [← hw, ← h.names]
    rfl

/-- Of modules with symbols, only the references are left to be checked. -/
theorem linkModules_eq_of_symbols {modules order : List Module} {t : SymbolTable} {app : Option App}
    (ho : orderModules modules = .ok order) (ht : SymbolTable.of? order = .ok t)
    (happ : declaredApp? order = .ok app) :
    linkModules modules = do
      (checkVisibility order t).mapError .link
      (validateReferences t t.declarations).mapError .reference
      return ⟨order.map (·.name), t, app,
        unusedImports order t ++ cycleWarnings t.declarations.entities⟩ := by
  unfold linkModules
  rw [ho]
  show (SymbolTable.of? order).mapError _ >>= _ = _
  rw [ht]
  show (declaredApp? order).mapError _ >>= _ = _
  rw [happ]
  rfl

/-! ## References of modules and of the whole -/

theorem Declarations.mem_references {d : Declarations} {r : Reference} :
    r ∈ d.references ↔
      ∃ k : DeclKind, (∃ body ∈ d.named k, r ∈ k.references body) ∨ r ∈ d.singleReferences k := by
  unfold references
  simp only [List.mem_flatMap, List.mem_append]
  exact ⟨fun ⟨k, _, h⟩ => ⟨k, h⟩, fun ⟨k, h⟩ => ⟨k, k.mem_all, h⟩⟩

/-- The references of all declarations together are those of the modules. -/
theorem SymbolTable.mem_references_declarations {modules : List Module} {t : SymbolTable}
    (ht : of? modules = .ok t) {r : Reference} :
    r ∈ t.declarations.references ↔ ∃ m ∈ modules, r ∈ m.declarations.references := by
  have hconfig : t.declarations.llmConfig.toList =
      modules.flatMap fun m => m.declarations.llmConfig.toList := toList_single? ht .llmConfig
  have hpolicies : t.declarations.policies.toList =
      modules.flatMap fun m => m.declarations.policies.toList := toList_single? ht .policies
  have hsingle : ∀ k, r ∈ t.declarations.singleReferences k ↔
      ∃ m ∈ modules, r ∈ m.declarations.singleReferences k := by
    intro k
    unfold Declarations.singleReferences
    rw [hconfig, hpolicies]
    cases k
    case llmIntent => simp only [List.flatMap_assoc, List.mem_flatMap]
    case stream => simp only [List.flatMap_assoc, List.mem_flatMap]
    all_goals simp
  simp only [Declarations.mem_references, hsingle]
  rw [declarations_of_of? ht]
  unfold Declarations.ofModules
  simp only [List.mem_flatMap]
  constructor
  · rintro ⟨k, ⟨body, ⟨m, hm, hb⟩, hr⟩ | ⟨m, hm, hr⟩⟩
    · exact ⟨m, hm, k, .inl ⟨body, hb, hr⟩⟩
    · exact ⟨m, hm, k, .inr hr⟩
  · rintro ⟨m, hm, k, ⟨body, hb, hr⟩ | hr⟩
    · exact ⟨k, .inl ⟨body, ⟨m, hm, hb⟩, hr⟩⟩
    · exact ⟨k, .inr ⟨m, hm, hr⟩⟩

/-! ## Checks -/

theorem checkVisibility_eq_ok_iff {modules : List Module} {symbols : SymbolTable} :
    checkVisibility modules symbols = .ok () ↔
      ∀ m ∈ modules, ∀ r ∈ m.declarations.references, m.violation? symbols r = none := by
  unfold checkVisibility
  rw [Except.ite_isEmpty_eq_ok_iff]
  simp only [List.flatMap_eq_nil_iff, List.filterMap_eq_nil_iff]

/-- A reference is visible if what it leads to, if it leads anywhere, belongs to a module that may
be referred to. -/
theorem Module.violation?_eq_none_iff {m : Module} {symbols : SymbolTable} {r : Reference} :
    m.violation? symbols r = none ↔
      ∀ k owner, r.resolve? symbols = some k → symbols.owner? k r.name = some owner →
        m.sees owner = true := by
  unfold violation?
  cases hk : r.resolve? symbols with
  | none => simp
  | some k =>
    cases ho : symbols.owner? k r.name with
    | none =>
      refine iff_of_true (by simp [ho]) ?_
      rintro _ owner ⟨⟩ ho'
      rw [ho] at ho'
      cases ho'
    | some owner =>
      have hall : (∀ k' owner', some k = some k' → symbols.owner? k' r.name = some owner' →
          m.sees owner' = true) ↔ m.sees owner = true := by
        constructor
        · exact fun h => h k owner rfl ho
        · rintro hs _ owner' ⟨⟩ ho'
          rw [ho] at ho'
          cases ho'
          exact hs
      rw [hall]
      by_cases hs : m.sees owner = true <;> simp [ho, hs]

theorem Module.sees_iff {m : Module} {other : String} :
    m.sees other = true ↔ other = m.name ∨ other ∈ m.uses := by
  unfold sees
  rw [Bool.or_eq_true, beq_iff_eq, List.contains_iff_mem, eq_comm]

/-- A resolved reference leads to the first of its kinds under which the name is declared. -/
theorem Reference.resolve?_eq_some_iff {r : Reference} {symbols : SymbolTable} {k : DeclKind} :
    r.resolve? symbols = some k ↔
      r.name ∈ symbols.declarations.namesOf k ∧ ∃ before after, r.kinds = before ++ k :: after ∧
        ∀ k' ∈ before, r.name ∉ symbols.declarations.namesOf k' := by
  unfold resolve?
  rw [List.find?_eq_some_iff_append, SymbolTable.contains_iff]
  simp only [← SymbolTable.contains_iff, Bool.not_eq_true']
  simp

/-- A reference resolves if its name is declared under one of its kinds. -/
theorem Reference.isSome_resolve?_iff {r : Reference} {symbols : SymbolTable} :
    (r.resolve? symbols).isSome = true ↔
      ∃ k ∈ r.kinds, r.name ∈ symbols.declarations.namesOf k := by
  unfold resolve?
  rw [List.find?_isSome]
  simp only [SymbolTable.contains_iff]

/-! ## Soundness -/

theorem validateReferences_eq_ok_iff {symbols : SymbolTable} {d : Declarations} :
    validateReferences symbols d = .ok () ↔ referenceFindings symbols d = [] := by
  unfold validateReferences
  rw [Except.ite_isEmpty_eq_ok_iff]

theorem unknownNames_eq_nil_iff {symbols : SymbolTable} {d : Declarations} :
    unknownNames symbols d = [] ↔ ∀ r ∈ d.references, (r.resolve? symbols).isSome = true := by
  unfold unknownNames
  simp [Option.isSome_iff_ne_none]

/-- Every reference of a linked module leads to a declaration, under the first of its kinds for
which there is one, and that declaration belongs to the module or to one that the module uses. The
references that were looked at are those of all modules and no others. -/
theorem linkModules_sound {modules : List Module} {l : Linked} (h : linkModules modules = .ok l) :
    (∀ m ∈ modules, ∀ r ∈ m.declarations.references, ∃ before k after,
      r.kinds = before ++ k :: after ∧ (∀ k' ∈ before, l.symbols.find? k' r.name = none) ∧
        (l.symbols.find? k r.name).isSome = true ∧
        ∃ o ∈ modules, l.symbols.owner? k r.name = some o.name ∧
          r.name ∈ o.declarations.namesOf k ∧ (o.name = m.name ∨ o.name ∈ m.uses)) ∧
      ∀ r, r ∈ l.declarations.references ↔ ∃ m ∈ modules, r ∈ m.declarations.references := by
  obtain ⟨order, hc⟩ := linkModules_eq_ok_iff.1 h
  have hperm := ModuleOrder.perm_of_orderModules hc.ordered
  have hsame : ∀ r, r ∈ l.declarations.references ↔
      ∃ m ∈ modules, r ∈ m.declarations.references := by
    intro r
    simp only [← hperm.mem_iff]
    exact SymbolTable.mem_references_declarations hc.symbols
  refine ⟨fun m hm r hr => ?_, hsame⟩
  -- the reference is one of the whole, so it leads somewhere
  have hfound := validateReferences_eq_ok_iff.1 hc.valid
  unfold referenceFindings at hfound
  simp only [List.append_eq_nil_iff] at hfound
  have hsome := unknownNames_eq_nil_iff.1 hfound.1.1.1.1.1.1 r ((hsame r).2 ⟨m, hm, hr⟩)
  obtain ⟨k, hk⟩ := Option.isSome_iff_exists.1 hsome
  obtain ⟨hname, before, after, hkinds, hbefore⟩ := Reference.resolve?_eq_some_iff.1 hk
  -- and it is one of its module, so it is visible
  have hvisible := checkVisibility_eq_ok_iff.1 hc.visible m (hperm.mem_iff.2 hm) r hr
  obtain ⟨owner, howner⟩ := Option.isSome_iff_exists.1 (SymbolTable.isSome_owner?_iff.2 hname)
  obtain ⟨o, ho, rfl, hdeclares⟩ := SymbolTable.exists_of_owner? hc.symbols howner
  have hsees := Module.violation?_eq_none_iff.1 hvisible k o.name hk howner
  refine ⟨before, k, after, hkinds, fun k' hk' => ?_, SymbolTable.find?_isSome_iff.2 hname, o,
    hperm.mem_iff.1 ho, howner, hdeclares, Module.sees_iff.1 hsees⟩
  rw [← Option.not_isSome_iff_eq_none, SymbolTable.find?_isSome_iff]
  exact hbefore k' hk'

/-- A module that declares customers. -/
def customersModule : Module :=
  let customer : Entity := { location := ⟨"customers.dsl", 1, 1, none⟩, name := "Customer" }
  { name := "customers", file := "customers.dsl", declarations := .ofList [⟨.entity, customer⟩] }

/-- A module that declares orders, each with the customer whom it is shown by. -/
def ordersModule : Module :=
  let customer : Field :=
    { name := "customer", fieldType := .relation { kind := .ref, target := "Customer" } }
  let order : Entity :=
    { location := ⟨"orders.dsl", 2, 1, none⟩
      name := "Order"
      fields := [customer]
      displayField := some "customer" }
  { name := "orders", file := "orders.dsl", uses := ["customers"]
    declarations := .ofList [⟨.entity, order⟩] }

/-- The customer of an order is referred to, and found in the module that is used. -/
theorem linkModules_sound_orders :
    ∃ l, linkModules [customersModule, ordersModule] = .ok l ∧
      (∀ r ∈ ordersModule.declarations.references, ∃ before k after,
        r.kinds = before ++ k :: after ∧ (∀ k' ∈ before, l.symbols.find? k' r.name = none) ∧
          (l.symbols.find? k r.name).isSome = true ∧
          ∃ o ∈ [customersModule, ordersModule], l.symbols.owner? k r.name = some o.name ∧
            r.name ∈ o.declarations.namesOf k ∧
            (o.name = "orders" ∨ o.name ∈ ["customers"])) ∧
      (∃ r ∈ ordersModule.declarations.references, r.kinds = [.entity] ∧ r.name = "Customer") ∧
      l.symbols.owner? .entity "Customer" = some "customers" := by
  obtain ⟨l, h, howner⟩ :=
    Except.exists_eq_ok_of_any (x := linkModules [customersModule, ordersModule])
    (p := fun l => l.symbols.owner? .entity "Customer" == some "customers") rfl
  exact ⟨l, h, (linkModules_sound h).1 ordersModule (by simp),
    ⟨_, List.mem_singleton_self _, rfl, rfl⟩,
    eq_of_beq howner⟩

end Blueprint
