import Blueprint.Proofs.Compilation
import Blueprint.Proofs.InputOrder
import Blueprint.Proofs.TenantScope

/-!
# Circles that come with expansion

The warnings about circles are made when modules are linked, before entities have the members of
their archetypes. So they cover the circles of references that entities declare themselves, and
those only: an entity of a compiled application is in a warning exactly if a circle that it is on
was declared as such (`compileModules_circles`). A circle that no warning covers has a reference
that is inherited from an archetype, or leads to a tenant.
-/

namespace Blueprint

open EntityCycle (Edge Distinct IsCircle arcs)
open List (IsRotated)
open ModuleOrder (perm_of_orderModules)

/-- The entities that modules declare. -/
def declaredEntities (modules : List Module) : List Entity :=
  modules.flatMap (·.declarations.entities)

/-- An archetype that the entity of the first name extends refers to the second. -/
def Inherits (modules : List Module) (a b : String) : Prop :=
  ∃ e ∈ declaredEntities modules, e.name = a ∧ ∃ m ∈ modules,
    ∃ archetype : Archetype, archetype ∈ m.declarations.named .archetype ∧
      archetype.name ∈ e.archetypes ∧ ∃ f ∈ archetype.fields, f.RefersTo b

/-- An entity of the name is a tenant, by its kind or as it is marked. -/
def NamesTenant (modules : List Module) (b : String) : Prop :=
  ∃ e ∈ declaredEntities modules, e.name = b ∧
    (e.archetypeKind = some .tenant ∨ e.isTenantRoot = true)

variable {modules order : List Module} {l : Linked} {t : SymbolTable} {e : Entity} {f : Field}
  {entities : List Entity} {tenant? : Option String} {a b n : String} {c : List String}

/-! ## References after expansion -/

theorem mem_of_soleTenant? (h : soleTenant? entities = some n) :
    ∃ e ∈ entities, e.name = n ∧ e.isTenant = true := by
  unfold soleTenant? at h
  split at h
  next tenant htenant =>
    have hmem : tenant ∈ entities.filter Entity.isTenant :=
      htenant ▸ List.mem_singleton_self tenant
    exact ⟨tenant, (List.mem_filter.1 hmem).1, Option.some.inj h, (List.mem_filter.1 hmem).2⟩
  next => cases h

/-- The entity as expansion leaves it. -/
def Entity.expanded (t : SymbolTable) (tenant? : Option String) (e : Entity) : Entity :=
  tenant?.elim (e.completed t) (e.completed t).scopedTo

theorem Entity.expanded_cases (t : SymbolTable) (tenant? : Option String) (e : Entity) :
    e.expanded t tenant? = e.completed t ∨ ∃ tenant, tenant? = some tenant ∧
      e.expanded t tenant? =
        { e.completed t with fields := tenantField tenant :: (e.completed t).fields } := by
  cases tenant? with
  | none => exact .inl rfl
  | some tenant =>
    show (e.completed t).scopedTo tenant = _ ∨ _
    unfold scopedTo
    split
    · exact .inl rfl
    · next h => exact .inr ⟨tenant, rfl, if_neg h⟩

theorem Entity.name_expanded : (e.expanded t tenant?).name = e.name := by
  rcases e.expanded_cases t tenant? with h | ⟨tenant, -, h⟩ <;> rw [h] <;> exact e.name_completed t

/-- Expansion adds fields of archetypes and the key of a tenant, and nothing else. -/
theorem Entity.mem_fields_expanded (hf : f ∈ (e.expanded t tenant?).fields) :
    f ∈ e.fields ∨ (∃ archetype ∈ t.archetypesOf e, f ∈ archetype.fields) ∨
      ∃ tenant, tenant? = some tenant ∧ f = tenantField tenant := by
  have hcompleted : f ∈ (e.completed t).fields →
      f ∈ e.fields ∨ ∃ archetype ∈ t.archetypesOf e, f ∈ archetype.fields := by
    intro hf
    rw [e.toMembers_completed t] at hf
    exact (List.mem_append.1 hf).symm.imp_right mem_fields_inherited
  rcases e.expanded_cases t tenant? with h | ⟨tenant, htenant, h⟩ <;> rw [h] at hf
  · exact (hcompleted hf).imp_right .inl
  · rcases List.mem_cons.1 hf with rfl | hf
    · exact .inr (.inr ⟨tenant, htenant, rfl⟩)
    · exact (hcompleted hf).imp_right .inl

theorem Entity.mem_fields_expanded_of_mem (hf : f ∈ e.fields) :
    f ∈ (e.expanded t tenant?).fields := by
  have hcompleted : f ∈ (e.completed t).fields := by
    rw [e.toMembers_completed t]
    exact List.mem_append_right _ hf
  rcases e.expanded_cases t tenant? with h | ⟨tenant, -, h⟩ <;> rw [h]
  · exact hcompleted
  · exact List.mem_cons_of_mem _ hcompleted

theorem Linked.expandedEntities_eq (l : Linked) :
    l.expandedEntities =
      l.declarations.entities.map
        (Entity.expanded l.symbols (soleTenant? l.declarations.entities)) :=
  expandEntities_eq l.symbols l.declarations.entities

/-! ## The graph of linked modules -/

section

theorem Linked.distinct_entities (l : Linked) : Distinct l.declarations.entities :=
  l.symbols.nodup_namesOf .entity

variable (hl : l.Checked modules order)

include hl

theorem perm_declaredEntities : l.declarations.entities.Perm (declaredEntities modules) := by
  rw [show l.declarations.entities = _ from SymbolTable.named_of_of? hl.symbols .entity]
  exact (perm_of_orderModules hl.ordered).flatMap_right _

theorem edge_declared : Edge l.declarations.entities = Edge (declaredEntities modules) :=
  (EntityCycle.edge_eq_of_perm (perm_declaredEntities hl)).symm

/-- A declared reference stays one. -/
theorem edge_expanded_of_declared (h : Edge (declaredEntities modules) a b) :
    Edge l.expandedEntities a b := by
  rw [← edge_declared hl] at h
  obtain ⟨hne, e, he, rfl, f, hf, hb⟩ := h
  rw [l.expandedEntities_eq]
  exact ⟨hne, _, List.mem_map_of_mem he, Entity.name_expanded, f,
    Entity.mem_fields_expanded_of_mem hf, hb⟩

/-- A reference of an expanded entity is declared, inherited, or leads to the tenant. -/
theorem edge_of_expanded (h : Edge l.expandedEntities a b) :
    Edge (declaredEntities modules) a b ∨ Inherits modules a b ∨ NamesTenant modules b := by
  obtain ⟨hne, e', he', hname, f, hf, hb⟩ := h
  rw [l.expandedEntities_eq] at he'
  obtain ⟨e, he, rfl⟩ := List.mem_map.1 he'
  rw [Entity.name_expanded] at hname
  have hperm := perm_declaredEntities hl
  rcases Entity.mem_fields_expanded hf with hf | ⟨archetype, ha, hf⟩ | ⟨tenant, htenant, rfl⟩
  · exact .inl ⟨hne, e, hperm.mem_iff.1 he, hname, f, hf, hb⟩
  · obtain ⟨n, hn, hfind⟩ := List.mem_filterMap.1 ha
    obtain ⟨hmem, hextends⟩ := SymbolTable.find?_eq_some_iff.1 hfind
    obtain ⟨m, hm, hnamed⟩ := (SymbolTable.mem_named_iff hl.symbols).1 hmem
    refine .inr (.inl ⟨e, hperm.mem_iff.1 he, hname, m, ?_, archetype, hnamed, ?_, f, hf, hb⟩)
    · exact (perm_of_orderModules hl.ordered).mem_iff.1 hm
    · rwa [show archetype.name = n from hextends]
  · obtain ⟨e', he', hname', hmark⟩ := mem_of_soleTenant? htenant
    obtain ⟨r, hr, -, rfl⟩ := hb
    obtain rfl : { kind := .ref, target := tenant } = r := FieldType.relation.inj hr
    unfold Entity.isTenant at hmark
    refine .inr (.inr ⟨e', hperm.mem_iff.1 he', hname', ?_⟩)
    simpa [or_comm] using hmark

/-- Of the warnings, those about circles are the ones about entities as they are declared. -/
theorem filter_warnings_eq :
    l.warnings.filter (·.kind == .entityCycle) = cycleWarnings l.declarations.entities := by
  have himports : ∀ w ∈ unusedImports order l.symbols, ¬ (w.kind == .entityCycle) := by
    intro w hw
    obtain ⟨m, -, hw⟩ := List.mem_flatMap.1 hw
    obtain ⟨used, -, rfl⟩ := List.mem_map.1 hw
    exact Bool.false_ne_true
  have hcycles : ∀ w ∈ cycleWarnings l.declarations.entities, w.kind == .entityCycle := by
    intro w hw
    obtain ⟨c, -, rfl⟩ := List.mem_map.1 hw
    rfl
  rw [hl.warnings, List.filter_append, List.filter_eq_nil_iff.2 himports,
    List.filter_eq_self.2 hcycles, List.nil_append]

end

/-! ## Which circles are warned about -/

theorem exists_mem_arcs_of_mem (h : n ∈ c) : ∃ b, (n, b) ∈ arcs c := by
  obtain ⟨front, back, rfl⟩ := List.append_of_mem h
  have hrot : front ++ n :: back ~r n :: (back ++ front) := List.isRotated_append
  obtain ⟨b, hb⟩ : ∃ b, (n, b) ∈ arcs (n :: (back ++ front)) := by
    rw [EntityCycle.arcs_cons]
    cases back ++ front with
    | nil => exact ⟨n, List.mem_cons_self⟩
    | cons b rest => exact ⟨b, List.mem_cons_self⟩
  exact ⟨b, (EntityCycle.mem_arcs_iff_of_isRotated hrot).1 hb⟩

theorem exists_mem_entityCycles_iff (hd : Distinct entities) :
    (∃ c ∈ entityCycles entities, n ∈ c) ↔ ∃ c, IsCircle entities c ∧ n ∈ c := by
  constructor
  · rintro ⟨c, hc, hn⟩
    exact ⟨c, (EntityCycle.isCircle_of_mem_entityCycles hd hc).1, hn⟩
  · rintro ⟨c, hc, hn⟩
    obtain ⟨b, hb⟩ := exists_mem_arcs_of_mem hn
    obtain ⟨d, hd', hmem⟩ :=
      EntityCycle.exists_mem_entityCycles_of_leads hd (hc.edge n b hb) (hc.reaches hb)
    exact ⟨d, hd', (EntityCycle.mem_of_mem_arcs hmem).1⟩

theorem isCircle_of_edges {others : List Entity} (h : IsCircle entities c)
    (hedges : ∀ a b, (a, b) ∈ arcs c → Edge others a b) : IsCircle others c :=
  ⟨h.two_le, h.nodup, hedges⟩

/-- The circles that a compiled application is warned about are declared ones, and an entity is on
one of them exactly if it is on any circle that is declared. Every other circle of the application
has a reference that is not declared, but inherited from an archetype or leading to a tenant. -/
theorem compileModules_circles {options : CompileOptions} {app : Application}
    (h : compileModules modules options = .ok app) :
    ∃ circles : List (List String),
      (app.warnings.filter (·.kind == .entityCycle)).map (·.message) =
        circles.map (fun c => "entity reference cycle: " ++ " -> ".intercalate (c ++ c.take 1)) ∧
      (∀ c ∈ circles,
        IsCircle (declaredEntities modules) c ∧ IsCircle app.declarations.entities c) ∧
      (∀ n, (∃ c ∈ circles, n ∈ c) ↔ ∃ c, IsCircle (declaredEntities modules) c ∧ n ∈ c) ∧
      ∀ c, IsCircle app.declarations.entities c → (∀ n ∈ c, ∃ d ∈ circles, n ∈ d) ∨
        ∃ a b, (a, b) ∈ arcs c ∧ ¬ Edge (declaredEntities modules) a b ∧
          (Inherits modules a b ∨ NamesTenant modules b) := by
  obtain ⟨l, hlink, rfl⟩ := compileModules_eq_ok h
  obtain ⟨order, hl⟩ := linkModules_eq_ok_iff.1 hlink
  have hd := l.distinct_entities
  have hdeclared : IsCircle l.declarations.entities = IsCircle (declaredEntities modules) := by
    funext c
    refine propext ⟨fun hc => isCircle_of_edges hc ?_, fun hc => isCircle_of_edges hc ?_⟩
    · exact edge_declared hl ▸ hc.edge
    · exact edge_declared hl ▸ hc.edge
  have hcover := fun n => exists_mem_entityCycles_iff (n := n) hd
  rw [hdeclared] at hcover
  refine ⟨entityCycles l.declarations.entities, ?_, fun c hc => ?_, hcover, fun c hc => ?_⟩
  · show ((l.warnings.filter _).map _) = _
    rw [filter_warnings_eq hl, cycleWarnings, List.map_map]
    rfl
  · have hcircle := (EntityCycle.isCircle_of_mem_entityCycles hd hc).1
    rw [hdeclared] at hcircle
    exact ⟨hcircle, isCircle_of_edges hcircle fun a b hab =>
      edge_expanded_of_declared hl (hcircle.edge a b hab)⟩
  · by_cases hall : ∀ a b, (a, b) ∈ arcs c → Edge (declaredEntities modules) a b
    · exact .inl fun n hn => (hcover n).2 ⟨c, isCircle_of_edges hc hall, hn⟩
    · push Not at hall
      obtain ⟨a, b, hab, hnot⟩ := hall
      exact .inr ⟨a, b, hab, hnot, (edge_of_expanded hl (hc.edge a b hab)).resolve_left hnot⟩

/-- A module with users, their latest documents and, in an archetype, the owners of these. -/
def documentsModule : Module :=
  let reference (name target : String) : Field :=
    { name, fieldType := .relation { kind := .ref, target } }
  let owned : Archetype :=
    { location := ⟨"docs.dsl", 1, 1, none⟩, name := "Owned", fields := [reference "owner" "User"] }
  let user : Entity :=
    { location := ⟨"docs.dsl", 4, 1, none⟩, name := "User", fields := [reference "latest" "Doc"] }
  let doc : Entity :=
    { location := ⟨"docs.dsl", 8, 1, none⟩, name := "Doc", archetypes := ["Owned"] }
  { name := "docs", file := "docs.dsl"
    declarations := .ofList [⟨.archetype, owned⟩, ⟨.entity, user⟩, ⟨.entity, doc⟩] }

/-- A module with folders and the drives that hold them. -/
def drivesModule : Module :=
  let reference (name target : String) : Field :=
    { name, fieldType := .relation { kind := .ref, target } }
  let drive : Entity :=
    { location := ⟨"drives.dsl", 1, 1, none⟩, name := "Drive",
      fields := [reference "root" "Folder"] }
  let folder : Entity :=
    { location := ⟨"drives.dsl", 4, 1, none⟩, name := "Folder", fields := [reference "on" "Drive"] }
  { name := "drives", file := "drives.dsl",
    declarations := .ofList [⟨.entity, drive⟩, ⟨.entity, folder⟩] }

/-- The circle of drives and folders is declared, and there is a warning about it. That of documents
and their owners is not, and has a reference that is inherited. -/
theorem compileModules_circles_documents :
    ∃ app, compileModules [documentsModule, drivesModule] {} = .ok app ∧
      app.warnings.map (·.message) = ["entity reference cycle: Drive -> Folder -> Drive"] ∧
      (∃ circles : List (List String),
        (app.warnings.filter (·.kind == .entityCycle)).map (·.message) =
          circles.map (fun c => "entity reference cycle: " ++ " -> ".intercalate (c ++ c.take 1)) ∧
        (∃ c ∈ circles, "Folder" ∈ c) ∧ ¬ ∃ c ∈ circles, "Doc" ∈ c) ∧
      IsCircle app.declarations.entities ["Doc", "User"] ∧
      ∃ a b, (a, b) ∈ arcs ["Doc", "User"] ∧
        ¬ Edge (declaredEntities [documentsModule, drivesModule]) a b ∧
        (Inherits [documentsModule, drivesModule] a b ∨
          NamesTenant [documentsModule, drivesModule] b) := by
  obtain ⟨app, h, hwarnings, hdocuments⟩ :
      ∃ app, compileModules [documentsModule, drivesModule] {} = .ok app ∧
        app.warnings.map (·.message) = ["entity reference cycle: Drive -> Folder -> Drive"] ∧
        IsCircle app.declarations.entities ["Doc", "User"] :=
    ⟨_, rfl, by decide +kernel,
      (EntityCycle.isCircle_iff (by decide +kernel)).2 (by decide +kernel)⟩
  obtain ⟨circles, hmessages, hcircles, hcovered, hother⟩ := compileModules_circles h
  have hdistinct : Distinct (declaredEntities [documentsModule, drivesModule]) := by decide
  have hdrives : IsCircle (declaredEntities [documentsModule, drivesModule]) ["Drive", "Folder"] :=
    (EntityCycle.isCircle_iff hdistinct).2 (by decide)
  -- a document declares no reference, so it is on no circle that is declared
  have hnot : ¬ ∃ c ∈ circles, "Doc" ∈ c := by
    rintro ⟨c, hc, hmem⟩
    obtain ⟨b, hb⟩ := exists_mem_arcs_of_mem hmem
    have hedge := (EntityCycle.mem_targets_iff hdistinct).2 ((hcircles c hc).1.edge _ b hb)
    exact List.not_mem_nil hedge
  refine ⟨app, h, hwarnings, ⟨circles, hmessages, (hcovered "Folder").2 ⟨_, hdrives, by decide⟩,
    hnot⟩, hdocuments, ?_⟩
  exact (hother _ hdocuments).resolve_left fun hall => hnot (hall "Doc" List.mem_cons_self)

/-- The documents and their owners, as compilation leaves them. -/
def documents : Application :=
  (⟨["docs"], (SymbolDraft.ofModules [documentsModule]).table, none, []⟩ : Linked).application {}

theorem isCircle_documents : IsCircle documents.declarations.entities ["Doc", "User"] :=
  (EntityCycle.isCircle_iff (by decide +kernel)).2 (by decide +kernel)

/-- The circle of documents and their owners is in the application, without a warning of it. -/
theorem documents_circle_unwarned :
    compileModules [documentsModule] {} = .ok documents ∧
      (∀ e ∈ documents.declarations.entities, e.archetypeKind ≠ some .tenant) ∧
      IsCircle documents.declarations.entities ["Doc", "User"] ∧ documents.warnings = [] :=
  ⟨rfl, by decide +kernel, isCircle_documents, rfl⟩

end Blueprint
