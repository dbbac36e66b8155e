import Blueprint.Proofs.Expansion
import Mathlib.Data.Set.Basic

/-!
# What an entity inherits

Under a name that an entity does not use itself, it inherits what the first archetype declares that
has the name.

1. The members that are inherited are, up to their order, the members of all archetypes in a row
   with the names left out that are taken (`named_inherited_perm`). So they are the first ones of
   their names (`mem_named_inherited_iff`), and no name comes twice (`nodup_names_inherited`).
2. What follows from the kind of an entity touches no member, and a reference to the tenant is only
   added under a name that is free (`Entity.merges_scopedTo`).
3. Which entity is the tenant depends on the entities as they were declared (`expandEntities_eq`).
4. References to fields are checked before entities are expanded: a field is known if the entity or
   one of its archetypes declares it. Expansion leaves out what is taken and keeps fields apart from
   computed ones, but ends with the same names (`hasField_exact`), as what is left out has a name
   that is there already.
-/

namespace Blueprint

/-! ## Members with names -/

/-- What is declared under a name. -/
inductive Member where
  | field (field : Field)
  | computed (field : ComputedField)
  deriving DecidableEq

def Member.name : Member → String
  | field f => f.name
  | computed f => f.name

variable {t : SymbolTable} {e e' : Entity} {entities : List Entity} {archetypes : List Archetype}
  {taken : List String} {n : String} {tenant? : Option String} {d : Member}

/-- The fields, and then the computed fields. -/
def Members.named (m : Members) : List Member :=
  m.fields.map .field ++ m.computedFields.map .computed

/-- What the first archetype declares under the name that has the name, a field before a computed
field. -/
def firstDeclared (archetypes : List Archetype) (n : String) : Option Member :=
  archetypes.findSome? fun a => a.named.find? (·.name == n)

theorem Members.map_name_named (m : Members) : m.named.map Member.name = m.names := by
  unfold named names
  simp [Member.name, Function.comp_def]

theorem Members.mem_names_iff {m : Members} : n ∈ m.names ↔ ∃ d ∈ m.named, d.name = n := by
  rw [← m.map_name_named, List.mem_map]

/-- Fields and computed fields do not share names either. -/
theorem Members.named_untaken (m : Members) (taken : List String) :
    (m.untaken taken).named = freshlyNamed Member.name taken m.named := by
  unfold named untaken
  rw [freshlyNamed_append, freshlyNamed_map, freshlyNamed_map, List.map_map]
  rfl

theorem Members.named_append_perm (m k : Members) : (m ++ k).named.Perm (m.named ++ k.named) := by
  show (m.append k).named.Perm _
  unfold named append
  simp only [List.map_append, List.append_assoc]
  exact (List.perm_append_comm_assoc _ _ _).append_left _

/-! ## What is inherited -/

theorem named_inherited_perm (taken : List String) (archetypes : List Archetype) :
    (inherited taken archetypes).named.Perm
      (freshlyNamed Member.name taken (archetypes.flatMap fun a => a.named)) := by
  induction archetypes generalizing taken with
  | nil => exact .refl _
  | cons a rest ih =>
    unfold inherited
    refine (Members.named_append_perm _ _).trans ?_
    rw [List.flatMap_cons, freshlyNamed_append, ← a.named_untaken, Members.map_name_named]
    exact (ih _).append_left _

theorem firstDeclared_eq (archetypes : List Archetype) (n : String) :
    firstDeclared archetypes n =
      (archetypes.flatMap fun a => a.named).find? (·.name == n) := by
  unfold firstDeclared
  rw [List.find?_flatMap]

/-- A member is inherited exactly if its name is free and it is what the first archetype with that
name declares. -/
theorem mem_named_inherited_iff :
    d ∈ (inherited taken archetypes).named ↔
      d.name ∉ taken ∧ firstDeclared archetypes d.name = some d := by
  rw [(named_inherited_perm taken archetypes).mem_iff, mem_freshlyNamed_iff, firstDeclared_eq]

theorem nodup_names_inherited (taken : List String) (archetypes : List Archetype) :
    (inherited taken archetypes).names.Nodup := by
  rw [← Members.map_name_named, ((named_inherited_perm taken archetypes).map _).nodup_iff]
  unfold List.Nodup
  rw [List.pairwise_map]
  exact pairwise_freshlyNamed taken _

theorem not_taken_of_mem_names_inherited (h : n ∈ (inherited taken archetypes).names) :
    n ∉ taken := by
  obtain ⟨d, hd, rfl⟩ := Members.mem_names_iff.1 h
  exact (mem_named_inherited_iff.1 hd).1

theorem invariants_inherited (taken : List String) (archetypes : List Archetype) :
    (inherited taken archetypes).invariants = archetypes.flatMap fun a => a.invariants := by
  induction archetypes generalizing taken with
  | nil => rfl
  | cons a rest ih =>
    rw [List.flatMap_cons, ← ih]
    rfl

theorem exists_firstDeclared {a : Archetype} (ha : a ∈ archetypes) (hn : n ∈ a.names) :
    ∃ d, firstDeclared archetypes n = some d ∧ d.name = n := by
  obtain ⟨d, hd, rfl⟩ := Members.mem_names_iff.1 hn
  have hsome : (firstDeclared archetypes d.name).isSome = true := by
    rw [firstDeclared_eq, List.find?_isSome]
    exact ⟨d, List.mem_flatMap.2 ⟨a, ha, hd⟩, by simp⟩
  obtain ⟨first, hfirst⟩ := Option.isSome_iff_exists.1 hsome
  refine ⟨first, hfirst, ?_⟩
  rw [firstDeclared_eq] at hfirst
  simpa using List.find?_some hfirst

/-! ## Merged entities -/

/-- The second entity is the first one with what it inherits, and maybe with a reference to the
tenant. -/
structure Entity.Merges (t : SymbolTable) (tenant? : Option String) (e e' : Entity) : Prop where
  /-- Nothing changes but the members and what follows from the kind. -/
  kept : { e' with
    toMembers := e.toMembers, access := e.access
    isSingleton := e.isSingleton, isTenantRoot := e.isTenantRoot } = e
  nodup : e'.names.Nodup
  invariants : e'.invariants =
    (t.archetypesOf e).flatMap (fun a => a.invariants) ++ e.invariants
  /-- Before its own members stand the ones it inherits, and before these the tenant's key. -/
  members : ∃ (key : List Field) (new : Members),
    (key = [] ∨ ∃ tenant ∈ tenant?, key = [tenantField tenant]) ∧
    e'.fields = key ++ (new.fields ++ e.fields) ∧
    e'.computedFields = new.computedFields ++ e.computedFields ∧
    ∀ d : Member, d ∈ new.named ↔
      d.name ∉ e.names ∧ firstDeclared (t.archetypesOf e) d.name = some d
  inherits : ∀ n, n ∉ e.names → ∀ a ∈ t.archetypesOf e, n ∈ a.names →
    e'.names.count n = 1 ∧
      ∃ d ∈ e'.named, d.name = n ∧ firstDeclared (t.archetypesOf e) n = some d

theorem Entity.Merges.name (h : e.Merges t tenant? e') : e'.name = e.name :=
  (congrArg Entity.name h.kept :)

theorem Members.nodup_names_append {m k : Members} :
    (m ++ k).names.Nodup ↔ (m.names ++ k.names).Nodup := by
  rw [← map_name_named, ← map_name_named, ← map_name_named, ← List.map_append]
  exact ((m.named_append_perm k).map _).nodup_iff

/-- An entity repeats no name after it has inherited if it does not before. -/
theorem Entity.nodup_names_inheriting (h : e.names.Nodup) (archetypes : List Archetype) :
    (e.inheriting archetypes).names.Nodup := by
  unfold inheriting
  rw [Members.nodup_names_append, List.nodup_append]
  refine ⟨nodup_names_inherited _ _, h, fun n hn k hk heq => ?_⟩
  exact not_taken_of_mem_names_inherited hn (heq ▸ hk)

theorem Entity.toMembers_completed (t : SymbolTable) (e : Entity) :
    (e.completed t).toMembers = inherited e.names (t.archetypesOf e) ++ e.toMembers :=
  (e.inheriting (t.archetypesOf e)).shaped_keeps.2.2.2.2

theorem Entity.kept_completed (t : SymbolTable) (e : Entity) :
    { e.completed t with
      toMembers := e.toMembers, access := e.access
      isSingleton := e.isSingleton, isTenantRoot := e.isTenantRoot } = e := by
  unfold completed shaped inheriting
  split <;> rfl

/-- What the first archetypes declare is there, once, if it is among the members. -/
theorem Entity.inherits_of_members (hnodup : e'.names.Nodup)
    (hmem : ∀ d : Member, d.name ∉ e.names → firstDeclared archetypes d.name = some d →
      d ∈ e'.named) :
    ∀ n, n ∉ e.names → ∀ a ∈ archetypes, n ∈ a.names →
      e'.names.count n = 1 ∧ ∃ d ∈ e'.named, d.name = n ∧ firstDeclared archetypes n = some d := by
  intro n hn a ha hna
  obtain ⟨d, hd, rfl⟩ := exists_firstDeclared ha hna
  have hd' := hmem d hn hd
  exact ⟨List.count_eq_one_of_mem hnodup (Members.mem_names_iff.2 ⟨d, hd', rfl⟩), d, hd', rfl, hd⟩

/-- The entity with a key before its own fields. -/
def Entity.keyed (key : List Field) (e : Entity) : Entity := { e with fields := key ++ e.fields }

theorem Entity.names_keyed (key : List Field) (e : Entity) :
    (e.keyed key).names = key.map Field.name ++ e.names := by
  unfold keyed Members.names
  simp

theorem Entity.named_keyed (key : List Field) (e : Entity) :
    (e.keyed key).named = key.map .field ++ e.named := by
  unfold keyed Members.named
  simp

/-- An entity is merged when it has inherited, with or without a key under a name that is free. -/
theorem Entity.merges_keyed (h : e.names.Nodup) {key : List Field}
    (hkey : key = [] ∨ ∃ tenant ∈ tenant?, key = [tenantField tenant])
    (hfree : ∀ f ∈ key, f.name ∉ (e.completed t).names) :
    e.Merges t tenant? ((e.completed t).keyed key) := by
  have hm := e.toMembers_completed t
  have hnodup : ((e.completed t).keyed key).names.Nodup := by
    rw [names_keyed, List.nodup_append]
    refine ⟨?_, ?_, fun n hn k hk heq => ?_⟩
    · rcases hkey with rfl | ⟨tenant, -, rfl⟩ <;> simp
    · rw [hm]
      exact e.nodup_names_inheriting h _
    · obtain ⟨f, hf, rfl⟩ := List.mem_map.1 hn
      exact hfree f hf (heq ▸ hk)
  refine ⟨e.kept_completed t, hnodup, ?_, ⟨key, inherited e.names (t.archetypesOf e), hkey, ?_, ?_,
    fun d => mem_named_inherited_iff⟩, inherits_of_members hnodup fun d hn hd => ?_⟩
  · rw [← invariants_inherited e.names]
    exact congrArg Members.invariants hm
  · exact congrArg (fun m : Members => key ++ m.fields) hm
  · exact congrArg Members.computedFields hm
  · rw [named_keyed, hm, List.mem_append, (Members.named_append_perm _ _).mem_iff]
    exact .inr (List.mem_append_left _ (mem_named_inherited_iff.2 ⟨hn, hd⟩))

theorem Entity.merges_scopedTo (h : e.names.Nodup) (tenant : String) :
    e.Merges t (some tenant) ((e.completed t).scopedTo tenant) := by
  unfold scopedTo
  split
  · exact merges_keyed h (.inl rfl) (by simp)
  · next hneeds =>
    refine merges_keyed h (.inr ⟨tenant, rfl, rfl⟩) fun f hf => ?_
    rw [List.mem_singleton.1 hf]
    simp only [Bool.or_eq_true, not_or] at hneeds
    exact mt Members.declares_iff.2 hneeds.2

/-! ## The tenant -/

/-- Whether the entity is a tenant, by its kind or as it is marked. -/
def Entity.isTenant (e : Entity) : Bool := e.isTenantRoot || e.archetypeKind == some .tenant

/-- The tenant that entities belong to, if there is exactly one. -/
def soleTenant? (entities : List Entity) : Option String :=
  match entities.filter Entity.isTenant with
  | [tenant] => some tenant.name
  | _ => none

theorem Entity.isTenantRoot_completed (t : SymbolTable) (e : Entity) :
    (e.completed t).isTenantRoot = e.isTenant := by
  unfold completed shaped inheriting isTenant
  split <;> simp_all

theorem Entity.name_completed (t : SymbolTable) (e : Entity) : (e.completed t).name = e.name :=
  (e.inheriting (t.archetypesOf e)).shaped_keeps.1

/-- Which entity is the tenant is seen before expansion. -/
theorem expandEntities_eq (t : SymbolTable) (entities : List Entity) :
    expandEntities t entities = entities.map fun e =>
      (soleTenant? entities).elim (e.completed t) (e.completed t).scopedTo := by
  have hroots : (entities.map (Entity.completed t)).filter (·.isTenantRoot) =
      (entities.filter Entity.isTenant).map (Entity.completed t) := by
    rw [List.filter_map]
    congr 2
    exact funext (Entity.isTenantRoot_completed t)
  show scopeToTenant (entities.map (Entity.completed t)) = _
  unfold scopeToTenant soleTenant?
  rw [hroots]
  match entities.filter Entity.isTenant with
  | [] => rfl
  | [tenant] => simp [Entity.name_completed]
  | tenant :: other :: rest => rfl

/-! ## Main result -/

theorem Entity.merges_expanded (t : SymbolTable) (h : e.names.Nodup) :
    ∀ tenant? : Option String,
      e.Merges t tenant? (tenant?.elim (e.completed t) (e.completed t).scopedTo)
  | none => merges_keyed h (.inl rfl) (by simp)
  | some tenant => merges_scopedTo h tenant

/-- Expansion keeps the entities in order and merges each of them. -/
theorem expandEntities_merges (t : SymbolTable) (h : ∀ e ∈ entities, e.names.Nodup) :
    (expandEntities t entities).map (·.name) = entities.map (·.name) ∧
      List.Forall₂ (Entity.Merges t (soleTenant? entities)) entities
        (expandEntities t entities) := by
  have hmerges : ∀ e ∈ entities, e.Merges t (soleTenant? entities)
      ((soleTenant? entities).elim (e.completed t) (e.completed t).scopedTo) :=
    fun e he => e.merges_expanded t (h e he) _
  rw [expandEntities_eq]
  constructor
  · rw [List.map_map]
    exact List.map_congr_left fun e he => (hmerges e he).name
  · rw [List.forall₂_map_right_iff, List.forall₂_same]
    exact hmerges

/-- Two archetypes that both declare a label, and one of them a date twice. -/
def shelfModule : Module :=
  let dated : Archetype :=
    { location := ⟨"shelf.dsl", 1, 1, none⟩
      name := "Dated"
      fields :=
        [{ name := "added", fieldType := .date }, { name := "added", fieldType := .datetime }]
      computedFields := [{ name := "label", expr := .number "1" }] }
  let labelled : Archetype :=
    { location := ⟨"shelf.dsl", 6, 1, none⟩
      name := "Labelled"
      fields := [{ name := "label", fieldType := .text }, { name := "title", fieldType := .text }] }
  { name := "shelf", file := "shelf.dsl"
    declarations := .ofList [⟨.archetype, dated⟩, ⟨.archetype, labelled⟩] }

def shelf : SymbolTable := (SymbolDraft.ofModules [shelfModule]).table

/-- Books of a shop, which extend both archetypes, one of them again, and one that there is not. -/
def shelved : List Entity :=
  [{ location := ⟨"shelf.dsl", 10, 1, none⟩
     name := "Shop"
     archetypeKind := some .tenant
     fields := [{ name := "id", fieldType := .uuid }] },
   { location := ⟨"shelf.dsl", 14, 1, none⟩
     name := "Book"
     archetypes := ["Dated", "Missing", "Labelled", "Dated"]
     fields := [{ name := "title", fieldType := .str (some 80) }] }]

theorem expandEntities_merges_shelf :
    (∀ e ∈ shelved, e.names.Nodup) ∧
      List.Forall₂ (Entity.Merges shelf (some "Shop")) shelved (expandEntities shelf shelved) ∧
      (expandEntities shelf shelved).map (·.names) =
        [["id"], ["shop", "added", "title", "label"]] ∧
      firstDeclared (shelved.flatMap shelf.archetypesOf) "added" =
        some (.field { name := "added", fieldType := .date }) := by
  have h : ∀ e ∈ shelved, e.names.Nodup := by decide
  exact ⟨h, (expandEntities_merges shelf h).2, rfl, by decide⟩

/-! ## Known fields -/

/-- Inherited are the names of archetypes that are not taken. -/
theorem mem_names_inherited_iff :
    n ∈ (inherited taken archetypes).names ↔ n ∉ taken ∧ ∃ a ∈ archetypes, n ∈ a.names := by
  constructor
  · intro h
    refine ⟨not_taken_of_mem_names_inherited h, ?_⟩
    obtain ⟨d, hd, rfl⟩ := Members.mem_names_iff.1 h
    obtain ⟨-, hfirst⟩ := mem_named_inherited_iff.1 hd
    obtain ⟨a, ha, hfind⟩ := List.exists_of_findSome?_eq_some hfirst
    exact ⟨a, ha, Members.mem_names_iff.2 ⟨d, List.mem_of_find?_eq_some hfind, rfl⟩⟩
  · rintro ⟨hfree, a, ha, hn⟩
    exact (mem_names_inherited taken ha hn).resolve_left hfree

/-- The names of an entity with its archetypes are its own ones and all of theirs. -/
theorem Entity.mem_names_inheriting :
    n ∈ (e.inheriting archetypes).names ↔ n ∈ e.names ∨ ∃ a ∈ archetypes, n ∈ a.names := by
  unfold inheriting
  rw [Members.names_append, mem_names_inherited_iff]
  by_cases hn : n ∈ e.names
  · exact iff_of_true (.inr hn) (.inl hn)
  · rw [and_iff_right hn, or_comm]

theorem SymbolTable.hasField_iff :
    t.hasField e n = true ↔ n ∈ (e.inheriting (t.archetypesOf e)).names := by
  unfold hasField
  rw [Entity.mem_names_inheriting, Bool.or_eq_true, List.any_eq_true, Members.declares_iff]
  simp only [Members.declares_iff]

/-- The fields that are known of an entity are the fields and computed fields that it has with the
members of its archetypes. So for every entity that is declared, exactly the fields are reported
that it will not have. -/
theorem hasField_exact (t : SymbolTable) (e : Entity) :
    let merged := e.inheriting (t.archetypesOf e)
    {n | t.hasField e n = true} =
      {n | n ∈ merged.fields.map (·.name)} ∪ {n | n ∈ merged.computedFields.map (·.name)} ∧
    ∀ location context entity fields, t.find? .entity entity = some e →
      unknownFields t location context entity fields =
        (fields.filter fun n => !merged.declares n).map fun n =>
          ⟨some location, .unknownField context n entity⟩ := by
  intro merged
  refine ⟨?_, fun location context entity fields hfind => ?_⟩
  · ext n
    show t.hasField e n = true ↔
      n ∈ merged.fields.map (·.name) ∨ n ∈ merged.computedFields.map (·.name)
    rw [t.hasField_iff, Members.names, List.mem_append]
  · have hknown : t.hasField e = merged.declares := by
      funext n
      rw [Bool.eq_iff_iff, t.hasField_iff, Members.declares_iff]
    unfold unknownFields
    rw [hfind]
    show (fields.filter fun n => !t.hasField e n).map _ = _
    rw [hknown]

/-- The archetypes of a shop, and books that extend both of them, one of them twice, and one that
there is not. -/
def shelves : SymbolTable :=
  (SymbolDraft.ofModules [shelfModule, {
    name := "books", file := "books.dsl"
    declarations := .ofList (shelved.map (⟨.entity, ·⟩)) }]).table

/-- Of a book, one field is its own, one is inherited, and one is reported. -/
theorem hasField_exact_book : ∃ book : Entity, shelves.find? .entity "Book" = some book ∧
    book.archetypes = ["Dated", "Missing", "Labelled", "Dated"] ∧
    unknownFields shelves book.location "list" "Book" ["title", "label", "pages"] =
      [⟨some book.location, .unknownField "list" "pages" "Book"⟩] := by
  obtain ⟨book, hbook, hextends, hunknown⟩ : ∃ book : Entity,
      shelves.find? .entity "Book" = some book ∧
      book.archetypes = ["Dated", "Missing", "Labelled", "Dated"] ∧
      (["title", "label", "pages"].filter fun n =>
        !(book.inheriting (shelves.archetypesOf book)).declares n) = ["pages"] :=
    ⟨_, rfl, rfl, by decide +kernel⟩
  refine ⟨book, hbook, hextends, ?_⟩
  rw [(hasField_exact shelves book).2 _ _ _ _ hbook, hunknown]
  rfl

end Blueprint
