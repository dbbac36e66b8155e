import Blueprint.Proofs.Inheritance

/-!
# References to the tenant

If there is one tenant, every entity that is not shared gets to refer to it, unless the name of the
reference is in use: by the entity itself or by an archetype that it extends, and for whatever. Then
nothing is added, so the entity may be left without a reference (`expandEntities_unscoped`).
-/

namespace Blueprint

variable {t : SymbolTable} {e e' tenant : Entity} {entities : List Entity} {n : String}

/-- The name is in use for a field or a computed field, in the entity or in an archetype that it
extends. -/
def Entity.UsesName (t : SymbolTable) (e : Entity) (n : String) : Prop :=
  n ∈ e.names ∨ ∃ a ∈ t.archetypesOf e, n ∈ a.names

/-- Where the name of the key is in use, expansion leaves the entity with what it inherits.
Otherwise, if it is neither the tenant nor shared, it refers to the tenant. -/
structure Entity.IsScoped (t : SymbolTable) (tenant e e' : Entity) : Prop where
  refers : e ≠ tenant → e.archetypeKind ≠ some .settings → e.archetypeKind ≠ some .user →
    ¬ e.UsesName t (tenantKey tenant.name) → ∃ f ∈ e'.fields, f.RefersTo tenant.name
  kept : e.UsesName t (tenantKey tenant.name) → e' = e.completed t

theorem Entity.declares_completed_iff :
    (e.completed t).declares n = true ↔ e.UsesName t n := by
  unfold UsesName
  constructor
  · intro h
    rw [Members.declares_iff, e.toMembers_completed t, Members.names_append] at h
    refine h.symm.imp_right fun hin => ?_
    obtain ⟨d, hd, rfl⟩ := Members.mem_names_iff.1 hin
    obtain ⟨a, ha, hfind⟩ := List.exists_of_findSome?_eq_some (mem_named_inherited_iff.1 hd).2
    exact ⟨a, ha, Members.mem_names_iff.2 ⟨d, List.mem_of_find?_eq_some hfind, rfl⟩⟩
  · intro h
    refine (e.expands_completed t).declares n ?_
    unfold SymbolTable.hasField
    simpa [Members.declares_iff] using h

theorem Entity.any_references_iff :
    (e.references.any (·.2 == n)) = true ↔ ∃ f ∈ e.fields, f.RefersTo n := by
  rw [← mem_references_iff]
  simp

theorem Entity.isShared_iff :
    e.isShared = true ↔ e.archetypeKind = some .settings ∨ e.archetypeKind = some .user := by
  unfold isShared
  split <;> simp_all

theorem tenantField_refersTo (tenant : String) : (tenantField tenant).RefersTo tenant :=
  ⟨_, rfl, .inl rfl, rfl⟩

/-- An entity that is neither the tenant nor shared has a reference to the tenant before the key is
added, or after, or uses the name of the key. -/
theorem Entity.isScoped_scopedTo (hname : e ≠ tenant → e.name ≠ tenant.name) :
    IsScoped t tenant e ((e.completed t).scopedTo tenant.name) where
  refers hother hsettings huser hfree := by
    have hkind : (e.completed t).archetypeKind = e.archetypeKind :=
      (congrArg Entity.archetypeKind (e.kept_completed t) :)
    have hshared : (e.completed t).isShared = false := by
      rw [Bool.eq_false_iff, Ne, isShared_iff, hkind]
      tauto
    have hnot : ((e.completed t).name == tenant.name) = false := by
      simpa [e.name_completed t] using hname hother
    have hkey : (e.completed t).declares (tenantKey tenant.name) = false := by
      rwa [Bool.eq_false_iff, Ne, declares_completed_iff]
    unfold scopedTo
    rw [hnot, hshared, hkey, Bool.or_self, Bool.false_or, Bool.or_false]
    by_cases href : ((e.completed t).references.any (·.2 == tenant.name)) = true
    · rw [if_pos href]
      exact any_references_iff.1 href
    · rw [if_neg href]
      exact ⟨_, List.mem_cons_self, tenantField_refersTo _⟩
  kept hused := by
    unfold scopedTo
    rw [declares_completed_iff.2 hused, Bool.or_true, if_pos rfl]

theorem soleTenant?_eq_some (htenant : entities.filter (·.archetypeKind == some .tenant) = [tenant])
    (hmarks : ∀ e ∈ entities, e.isTenantRoot = true → e.archetypeKind = some .tenant) :
    soleTenant? entities = some tenant.name := by
  have hfilter : entities.filter Entity.isTenant =
      entities.filter (·.archetypeKind == some .tenant) := by
    refine List.filter_congr fun e he => ?_
    have := hmarks e he
    unfold Entity.isTenant
    rw [Bool.eq_iff_iff]
    simpa using this
  unfold soleTenant?
  rw [hfilter, htenant]

/-- If exactly one entity is a tenant, all entities that are not shared refer to it after expansion,
except where the name of the key is in use. -/
theorem expandEntities_scoped (t : SymbolTable) (hnames : (entities.map (·.name)).Nodup)
    (htenant : entities.filter (·.archetypeKind == some .tenant) = [tenant])
    (hmarks : ∀ e ∈ entities, e.isTenantRoot = true → e.archetypeKind = some .tenant) :
    List.Forall₂ (Entity.IsScoped t tenant) entities (expandEntities t entities) := by
  have hmem : tenant ∈ entities := by
    refine List.mem_of_mem_filter (p := (·.archetypeKind == some .tenant)) ?_
    rw [htenant]
    exact List.mem_singleton_self tenant
  rw [expandEntities_eq, soleTenant?_eq_some htenant hmarks, List.forall₂_map_right_iff,
    List.forall₂_same]
  intro e he
  refine Entity.isScoped_scopedTo fun hother heq => hother ?_
  exact List.inj_on_of_nodup_map hnames he hmem heq

def orgEntity : Entity :=
  { location := ⟨"shop.dsl", 1, 1, none⟩
    name := "Org"
    archetypeKind := some .tenant
    fields := [{ name := "id", fieldType := .uuid, modifiers := [.pk] }] }

/-- A task, with a text where the reference to the tenant would stand. -/
def taskEntity : Entity :=
  { location := ⟨"shop.dsl", 5, 1, none⟩
    name := "Task"
    fields := [{ name := "id", fieldType := .uuid, modifiers := [.pk] },
      { name := "org", fieldType := .str (some 20) }] }

def projectEntity : Entity :=
  { location := ⟨"shop.dsl", 9, 1, none⟩
    name := "Project"
    fields := [{ name := "id", fieldType := .uuid, modifiers := [.pk] }] }

def officeEntities : List Entity := [orgEntity, taskEntity, projectEntity]

theorem expandEntities_scoped_offices :
    officeEntities.filter (·.archetypeKind == some .tenant) = [orgEntity] ∧
      List.Forall₂ (Entity.IsScoped {} orgEntity) officeEntities
        (expandEntities {} officeEntities) ∧
      (expandEntities {} officeEntities).map (·.names) = [["id"], ["id", "org"], ["org", "id"]] :=
  ⟨rfl, expandEntities_scoped {} (by decide) rfl (by decide), rfl⟩

/-- The task is left without a reference to the tenant. -/
theorem expandEntities_unscoped :
    ([orgEntity, taskEntity].map (·.name)).Nodup ∧
      [orgEntity, taskEntity].filter (·.archetypeKind == some .tenant) = [orgEntity] ∧
      (∀ e ∈ [orgEntity, taskEntity], e.isTenantRoot = false) ∧ taskEntity.archetypeKind = none ∧
      ∃ e' ∈ expandEntities {} [orgEntity, taskEntity], e'.name = "Task" ∧
        ¬ ∃ f ∈ e'.fields, f.RefersTo "Org" :=
  ⟨by decide, rfl, by decide, rfl, by decide⟩

end Blueprint
