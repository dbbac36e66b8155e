import Blueprint.Proofs.Validation

/-!
# What linking does not read

Linking reads names, places and references of declarations, and of some kinds their bodies. A change
of all bodies that keeps this (`Unnoticed`) commutes with linking (`Unnoticed.linkModules_alter`).
So modules that differ in nothing else are linked alike (`Unnoticed.exists_linked`).
-/

namespace Blueprint

variable (g : (k : DeclKind) → k.Body → k.Body)

def Declaration.alter (d : Declaration) : Declaration := ⟨d.kind, g d.kind d.body⟩

def Declarations.alter (d : Declarations) : Declarations :=
  { d with named := fun k => (d.named k).map (g k) }

def Module.alter (m : Module) : Module := { m with declarations := m.declarations.alter g }

/-- The kinds of declarations of which linking looks at more than the references. Of experiences, it
looks at the steps only. -/
def DeclKind.lookedAt : List DeclKind :=
  [.entity, .archetype, .surface, .integration, .ledger, .llmModel, .llmIntent]

/-- Linking does not see whether bodies have been changed like this. -/
structure Unnoticed : Prop where
  name : ∀ (k : DeclKind) body, k.name (g k body) = k.name body
  location : ∀ (k : DeclKind) body, k.location (g k body) = k.location body
  references : ∀ (k : DeclKind) body, k.references (g k body) = k.references body
  kept : ∀ k ∈ DeclKind.lookedAt, g k = id
  findings : ∀ e, Experience.findings (g .experience e) = Experience.findings e

/-- The table with its bodies changed. -/
def SymbolTable.alter (h : Unnoticed g) (t : SymbolTable) : SymbolTable :=
  { t with
    named := fun k => (t.named k).mapValues (g k)
    name_eq_key := by
      intro k e' he'
      obtain ⟨e, he, rfl⟩ := List.mem_map.1 he'
      exact (h.name k e.2).trans (t.name_eq_key k e he)
    mem_owners_iff := fun k n => by rw [OrderedMap.keys_mapValues, t.mem_owners_iff] }

def SymbolDraft.alter (h : Unnoticed g) (s : SymbolDraft) : SymbolDraft :=
  { s with table := s.table.alter g h }

def Linked.alter (h : Unnoticed g) (l : Linked) : Linked :=
  { l with symbols := l.symbols.alter g h }

namespace Unnoticed

variable {g} (h : Unnoticed g)

/-! ## Declarations -/

theorem toList_alter (d : Declarations) :
    (d.alter g).toList = d.toList.map (Declaration.alter g) := by
  unfold Declarations.toList
  rw [List.map_flatMap]
  refine List.flatMap_congr fun k _ => ?_
  unfold Declarations.ofKind Declarations.alter
  rw [List.map_map, List.map_map]
  rfl

include h

theorem named_alter (d : Declarations) {k : DeclKind} (hk : k ∈ DeclKind.lookedAt) :
    (d.alter g).named k = d.named k := by
  show (d.named k).map (g k) = d.named k
  rw [h.kept k hk, List.map_id]

theorem references_alter (d : Declarations) : (d.alter g).references = d.references := by
  unfold Declarations.references
  refine List.flatMap_congr fun k _ => ?_
  have hsingle : (d.alter g).singleReferences k = d.singleReferences k := by cases k <;> rfl
  have hnamed : ((d.alter g).named k).flatMap k.references = (d.named k).flatMap k.references := by
    show ((d.named k).map (g k)).flatMap k.references = _
    rw [List.flatMap_map]
    exact List.flatMap_congr fun body _ => h.references k body
  rw [hsingle, hnamed]

/-! ## Symbols -/

theorem add_alter (t : SymbolTable) (module : String) (d : Declaration) :
    (t.alter g h).add module (d.alter g) = (t.add module d).alter g h := by
  have hname : (d.alter g).name = d.name := h.name d.kind d.body
  have hnamed : SymbolTable.withNamed (fun k => (t.named k).mapValues (g k)) (d.alter g) =
      fun k => (SymbolTable.withNamed t.named d k).mapValues (g k) := by
    funext k
    by_cases hk : d.kind = k
    · subst hk
      rw [SymbolTable.withNamed_self, ← OrderedMap.insert_mapValues, ← hname]
      exact SymbolTable.withNamed_self _ (d.alter g)
    · rw [SymbolTable.withNamed_of_ne _ hk]
      exact SymbolTable.withNamed_of_ne _ hk
  unfold SymbolTable.add SymbolTable.alter
  simp only [hnamed, hname]
  rfl

theorem insert_alter (s : SymbolDraft) (module : String) (d : Declaration) :
    (s.alter g h).insert module (d.alter g) = (s.insert module d).alter g h := by
  have hname : (d.alter g).name = d.name := h.name d.kind d.body
  have hlocation : (d.alter g).location = d.location := h.location d.kind d.body
  have howner : (s.alter g h).table.owner? (d.alter g).kind (d.alter g).name =
      s.table.owner? d.kind d.name := by
    rw [hname]
    rfl
  unfold SymbolDraft.insert
  rw [howner, hname, hlocation]
  cases s.table.owner? d.kind d.name with
  | some owner => rfl
  | none => exact congrArg (fun t => { s with table := t }) (h.add_alter s.table module d)

theorem insertSingle_alter (s : SymbolDraft) (module : String) (what : Singleton)
    (body : what.Body) :
    (s.alter g h).insertSingle module what body =
      (s.insertSingle module what body).alter g h := by
  unfold SymbolDraft.insertSingle
  rw [show (s.alter g h).holder? what = s.holder? what from rfl]
  cases s.holder? what with
  | some owner => rfl
  | none => cases what <;> rfl

/-- Putting changed modules into a table is putting the modules into it and changing it. -/
theorem insertModule_alter (s : SymbolDraft) (m : Module) :
    (s.alter g h).insertModule (m.alter g) = (s.insertModule m).alter g h := by
  have hsingle (what : Singleton) :
      (m.alter g).declarations.single? what = m.declarations.single? what := by
    cases what <;> rfl
  unfold SymbolDraft.insertModule
  simp only [hsingle]
  rw [show (m.alter g).declarations.toList = _ from toList_alter m.declarations, List.foldl_map,
    List.foldl_hom (SymbolDraft.alter g h) fun s d => h.insert_alter s m.name d]
  refine List.foldl_hom (SymbolDraft.alter g h) fun s what => ?_
  cases m.declarations.single? what with
  | none => rfl
  | some body => exact h.insertSingle_alter s m.name what body

theorem of?_map_alter (modules : List Module) :
    SymbolTable.of? (modules.map (Module.alter g)) =
      (SymbolTable.of? modules).map (SymbolTable.alter g h) := by
  have hfold (s : SymbolDraft) :
      (modules.map (Module.alter g)).foldl SymbolDraft.insertModule (s.alter g h) =
        (modules.foldl SymbolDraft.insertModule s).alter g h := by
    induction modules generalizing s with
    | nil => rfl
    | cons m rest ih =>
      rw [List.map_cons, List.foldl_cons, h.insertModule_alter, ih, List.foldl_cons]
  have hdraft : SymbolDraft.ofModules (modules.map (Module.alter g)) =
      (SymbolDraft.ofModules modules).alter g h := hfold {}
  unfold SymbolTable.of?
  rw [hdraft]
  dsimp only
  rw [show ((SymbolDraft.ofModules modules).alter g h).clashes =
    (SymbolDraft.ofModules modules).clashes from rfl]
  split_ifs <;> rfl

section

variable (t : SymbolTable)

theorem owner?_alter (k : DeclKind) (n : String) : (t.alter g h).owner? k n = t.owner? k n := rfl

theorem declarations_alter : (t.alter g h).declarations = t.declarations.alter g := by
  unfold SymbolTable.declarations Declarations.alter SymbolTable.alter
  simp only [OrderedMap.values_mapValues]

theorem find?_alter {k : DeclKind} (hk : k ∈ DeclKind.lookedAt) (n : String) :
    (t.alter g h).find? k n = t.find? k n := by
  rw [SymbolTable.find?_eq, SymbolTable.find?_eq, h.declarations_alter]
  unfold Declarations.find?
  rw [h.named_alter _ hk]

theorem resolve?_alter (r : Reference) : r.resolve? (t.alter g h) = r.resolve? t := by
  have hcontains (k : DeclKind) (n : String) : (t.alter g h).contains k n = t.contains k n := by
    rw [SymbolTable.contains_eq_isSome_owner?, SymbolTable.contains_eq_isSome_owner?,
      h.owner?_alter]
  unfold Reference.resolve?
  simp only [hcontains]

theorem hasField_alter (e : Entity) (field : String) :
    (t.alter g h).hasField e field = t.hasField e field := by
  have harchetypes : (t.alter g h).archetypesOf e = t.archetypesOf e := by
    unfold SymbolTable.archetypesOf
    refine congrArg (e.archetypes.filterMap ·) (funext fun a => ?_)
    exact h.find?_alter t (k := .archetype) (by decide) a
  unfold SymbolTable.hasField
  rw [harchetypes]

end

/-! ## Checks -/

section

variable (t : SymbolTable)

theorem violation?_alter (m : Module) (r : Reference) :
    (m.alter g).violation? (t.alter g h) r = m.violation? t r := by
  unfold Module.violation?
  simp only [h.resolve?_alter, h.owner?_alter]
  rfl

theorem checkVisibility_alter (modules : List Module) :
    checkVisibility (modules.map (Module.alter g)) (t.alter g h) = checkVisibility modules t := by
  have hreferences (m : Module) : (m.alter g).declarations.references = m.declarations.references :=
    h.references_alter m.declarations
  unfold checkVisibility
  simp only [List.flatMap_map, hreferences, h.violation?_alter]

theorem unusedImports_alter (modules : List Module) :
    unusedImports (modules.map (Module.alter g)) (t.alter g h) = unusedImports modules t := by
  have hrefers (m : Module) (other : String) :
      (m.alter g).refersTo (t.alter g h) other = m.refersTo t other := by
    unfold Module.refersTo Reference.owner?
    simp only [h.resolve?_alter, h.owner?_alter]
    exact congrArg (List.any · _) (h.references_alter m.declarations)
  unfold unusedImports
  simp only [List.flatMap_map, hrefers]
  rfl

theorem unknownFields_alter (location : Location) (context entity : String) (fields : List String) :
    unknownFields (t.alter g h) location context entity fields =
      unknownFields t location context entity fields := by
  unfold unknownFields
  simp only [h.find?_alter t (k := .entity) (by decide), h.hasField_alter]

theorem finding?_alter (s : Surface) (a : SurfaceAction) :
    a.finding? (t.alter g h) s = a.finding? t s := by
  unfold SurfaceAction.finding?
  simp only [h.find?_alter t (k := .integration) (by decide)]

theorem validateReferences_alter (d : Declarations) :
    validateReferences (t.alter g h) (d.alter g) = validateReferences t d := by
  have hentities : (d.alter g).entities = d.entities := h.named_alter d (by decide)
  have hsurfaces : (d.alter g).surfaces = d.surfaces := h.named_alter d (by decide)
  have hexperiences : List.flatMap Experience.findings ((d.alter g).named .experience) =
      List.flatMap Experience.findings (d.named .experience) := by
    refine (List.flatMap_map ..).trans ?_
    exact List.flatMap_congr fun e _ => h.findings e
  have hintents : intentFindings (d.alter g) = intentFindings d := by
    unfold intentFindings
    rw [h.named_alter d (k := .llmModel) (by decide), h.named_alter d (k := .llmIntent) (by decide)]
    rfl
  unfold validateReferences referenceFindings unknownNames
  dsimp only
  rw [hentities, hsurfaces, hexperiences, hintents, h.references_alter,
    h.named_alter d (k := .ledger) (by decide)]
  unfold Entity.findings Surface.findings Policies.findings Ledger.findings
  simp only [h.resolve?_alter, h.unknownFields_alter, h.finding?_alter]
  rfl

end

/-! ## Linking -/

omit h in
theorem declaredApp?_alter (modules : List Module) :
    declaredApp? (modules.map (Module.alter g)) = declaredApp? modules := by
  unfold declaredApp?
  rw [List.filterMap_map]
  rfl

/-- Linking modules that are changed is linking the modules and changing what comes out. -/
theorem linkModules_alter (modules : List Module) :
    (linkModules modules).map (Linked.alter g h) = linkModules (modules.map (Module.alter g)) := by
  have hkeeps : ModuleOrder.Keeps (Module.alter g) := ⟨fun _ => rfl, fun _ => rfl, fun _ => rfl⟩
  have hcongr : ∀ {ε : Type} (f : ε → CompileError) e e', e = e' → f e = f e' :=
    fun f _ _ => congrArg f
  refine Except.alike_map_iff.1 ?_
  unfold linkModules
  refine ((Except.alike_map_iff.2 (hkeeps.orderModules_map modules).symm).mapError
    (hcongr _)).bind ?_
  rintro ordered _ rfl
  refine ((Except.alike_map_iff.2 (h.of?_map_alter ordered).symm).mapError (hcongr _)).bind ?_
  rintro t _ rfl
  rw [declaredApp?_alter, h.checkVisibility_alter, h.declarations_alter t,
    h.validateReferences_alter, h.unusedImports_alter]
  refine ((Except.Alike.refl (declaredApp? ordered)).mapError (hcongr _)).bind ?_
  rintro app _ rfl
  refine ((Except.Alike.refl (checkVisibility ordered t)).mapError (hcongr _)).bind fun _ _ _ => ?_
  refine ((Except.Alike.refl (validateReferences t t.declarations)).mapError (hcongr _)).bind
    fun _ _ _ => ?_
  refine .ok ?_
  unfold Linked.alter
  rw [show (t.declarations.alter g).entities = t.declarations.entities from
    h.named_alter t.declarations (by decide), List.map_map]
  rfl

/-- Modules that the change makes equal are linked alike, up to the change. -/
theorem exists_linked {modules others : List Module} {l : Linked} (hl : linkModules modules = .ok l)
    (hothers : others.map (Module.alter g) = modules.map (Module.alter g)) :
    ∃ l', linkModules others = .ok l' ∧ l'.alter g h = l.alter g h := by
  have hlinked := h.linkModules_alter modules
  rw [← hothers, ← h.linkModules_alter others, hl] at hlinked
  cases ho : linkModules others with
  | error e =>
    rw [ho] at hlinked
    cases hlinked
  | ok l' =>
    rw [ho] at hlinked
    exact ⟨l', rfl, (Except.ok.inj hlinked).symm⟩

end Unnoticed

end Blueprint
