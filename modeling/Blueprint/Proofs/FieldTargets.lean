import Blueprint.Proofs.Unread

/-!
# Where the types of fields lead

The type of a field may name an entity or an enum. What the fields of entities, archetypes, services
and processes name is looked up, so after linking it is declared. The fields of foreign models and
of the schemas of streams are not looked at by any stage: linking modules without them is linking
the modules and then leaving them out (`linkModules_bare`). There, any name passes.
-/

namespace Blueprint

/-! ## Fields of declarations -/

/-- The fields that stand in a declaration. -/
def DeclKind.fields : (k : DeclKind) → k.Body → List Field
  | .entity => fun (e : Entity) => e.fields
  | .archetype => fun (a : Archetype) => a.fields
  | .service => Service.fields
  | .foreignModel => ForeignModel.fields
  | .process => fun (p : Process) => p.inputs ++ p.outputs
  | .stream => fun (s : Stream) => s.schemas.flatMap (·.fields)
  | _ => fun _ => []

/-- What the type of the field names is declared, if it names anything. -/
def Field.Leads (d : Declarations) (f : Field) : Prop :=
  match f.fieldType with
  | .relation r => r.target ∈ d.namesOf .entity
  | .enumRef name => name ∈ d.namesOf .enum
  | _ => True

theorem Field.leads_iff {t : SymbolTable} {f : Field} (location : Location) (owner : String) :
    f.Leads t.declarations ↔
      ∀ r, f.reference? location owner = some r → (r.resolve? t).isSome = true := by
  unfold Leads reference?
  simp only [Reference.isSome_resolve?_iff]
  cases f.fieldType <;> simp [Reference.kinds]

/-- Fields lead somewhere if all that is looked up for them does. -/
theorem Field.leads_of_resolve? {t : SymbolTable} (location : Location) (owner : String)
    {fields : List Field}
    (h : ∀ r ∈ fieldReferences location owner fields, (r.resolve? t).isSome = true) :
    ∀ f ∈ fields, f.Leads t.declarations := by
  intro f hf
  refine (leads_iff location owner).2 fun r hr => h r ?_
  exact List.mem_filterMap.2 ⟨f, hf, hr⟩

/-- Apart from those of foreign models and streams, the fields of a declaration are among what it
refers with. -/
theorem DeclKind.fieldReferences_subset {k : DeclKind} (hm : k ≠ .foreignModel) (hs : k ≠ .stream)
    (body : k.Body) :
    ∃ location owner, fieldReferences location owner (k.fields body) ⊆ k.references body := by
  cases k
  case entity => exact ⟨_, _, List.subset_append_left _ _⟩
  case archetype => exact ⟨_, _, List.Subset.refl _⟩
  case service => exact ⟨_, _, List.Subset.refl _⟩
  case process =>
    let p : Process := body
    refine ⟨p.location, titled .process p.name, fun r hr => ?_⟩
    exact List.mem_append_left _ (List.mem_append_left _ (List.mem_append_right _ hr))
  case foreignModel => exact absurd rfl hm
  case stream => exact absurd rfl hs
  all_goals exact ⟨DeclKind.location _ body, "", List.nil_subset _⟩

/-! ## What no stage looks at -/

/-- The foreign model without its fields. -/
def ForeignModel.bare (m : ForeignModel) : ForeignModel := { m with fields := [] }

/-- The stream without its schemas. -/
def Stream.bare (s : Stream) : Stream := { s with schemas := [] }

def DeclKind.bare : (k : DeclKind) → k.Body → k.Body
  | .foreignModel => ForeignModel.bare
  | .stream => Stream.bare
  | _ => id

/-- The declarations without the fields of foreign models and the schemas of streams. -/
def Declarations.bare (d : Declarations) : Declarations :=
  { d with named := fun k => (d.named k).map k.bare }

def Module.bare (m : Module) : Module := { m with declarations := m.declarations.bare }

theorem unnoticed_bare : Unnoticed DeclKind.bare where
  name k body := by cases k <;> rfl
  location k body := by cases k <;> rfl
  references k body := by cases k <;> rfl
  kept := by
    simp only [DeclKind.lookedAt, List.forall_mem_cons]
    exact ⟨rfl, rfl, rfl, rfl, rfl, rfl, rfl, List.forall_mem_nil _⟩
  findings _ := rfl

/-- The table without the fields of foreign models and the schemas of streams. -/
def SymbolTable.bare (t : SymbolTable) : SymbolTable := t.alter DeclKind.bare unnoticed_bare

def Linked.bare (l : Linked) : Linked := { l with symbols := l.symbols.bare }

/-- Linking modules without the fields of foreign models and the schemas of streams is linking the
modules and leaving these out of the result. -/
theorem linkModules_bare (modules : List Module) :
    (linkModules modules).map Linked.bare = linkModules (modules.map Module.bare) :=
  unnoticed_bare.linkModules_alter modules

/-! ## Main result -/

/-- After linking, what the fields of entities, archetypes, services and processes name is declared.
What the fields of foreign models and of the schemas of streams name does not matter: with other
ones in their place, the modules link as before. -/
theorem linkModules_fields_lead {modules : List Module} {l : Linked}
    (h : linkModules modules = .ok l) :
    (∀ k, k ≠ .foreignModel → k ≠ .stream → ∀ body ∈ l.declarations.named k,
      ∀ f ∈ k.fields body, f.Leads l.declarations) ∧
    ∀ others : List Module, others.map Module.bare = modules.map Module.bare →
      ∃ l', linkModules others = .ok l' ∧ l'.bare = l.bare := by
  constructor
  · intro k hm hs body hbody
    obtain ⟨order, hl⟩ := linkModules_eq_ok_iff.1 h
    have hvalid := validateReferences_eq_ok_iff_valid.1 hl.valid
    obtain ⟨location, owner, hsubset⟩ := k.fieldReferences_subset hm hs body
    refine Field.leads_of_resolve? location owner fun r hr => ?_
    exact hvalid.references r (Declarations.mem_references.2 ⟨k, .inl ⟨body, hbody, hsubset hr⟩⟩)
  · intro others hothers
    have hlinked := linkModules_bare modules
    rw [← hothers, ← linkModules_bare others, h] at hlinked
    cases hl : linkModules others with
    | error e =>
      rw [hl] at hlinked
      cases hlinked
    | ok l' =>
      rw [hl] at hlinked
      exact ⟨l', rfl, (Except.ok.inj hlinked).symm⟩

theorem linkModules_fields_lead_orders :
    ∃ l, linkModules [customersModule, ordersModule] = .ok l ∧
      ∀ e ∈ l.declarations.entities, ∀ f ∈ e.fields, f.Leads l.declarations := by
  obtain ⟨l, h, -⟩ := Except.exists_eq_ok_of_any
    (x := linkModules [customersModule, ordersModule]) (p := fun _ => true) rfl
  exact ⟨l, h, (linkModules_fields_lead h).1 .entity (by decide) (by decide)⟩

/-- A module with a foreign model and a stream, of which the fields name what is not there. -/
def partnersModule : Module :=
  let bank : Service :=
    { location := ⟨"partners.dsl", 1, 1, none⟩, name := "bank", body := .api none none none }
  let payment : ForeignModel :=
    { location := ⟨"partners.dsl", 4, 1, none⟩
      name := "Payment"
      service := "bank"
      fields :=
        [{ name := "payer", fieldType := .relation { kind := .ref, target := "Customer" } }] }
  let payments : Stream :=
    { location := ⟨"partners.dsl", 8, 1, none⟩
      name := "payments"
      schemas := [⟨"Paid", [{ name := "currency", fieldType := .enumRef "Currency" }]⟩] }
  { name := "partners", file := "partners.dsl"
    declarations := .ofList [⟨.service, bank⟩, ⟨.foreignModel, payment⟩, ⟨.stream, payments⟩] }

/-- Modules can be linked although a field of a foreign model and one of a stream name what is not
declared. -/
theorem linkModules_fields_dangle :
    ∃ l, linkModules [partnersModule] = .ok l ∧ ∀ k ∈ [DeclKind.foreignModel, .stream],
      ∃ body ∈ l.declarations.named k, ∃ f ∈ k.fields body, ¬ f.Leads l.declarations := by
  refine ⟨_, rfl, fun k hk => ?_⟩
  obtain rfl | rfl := List.mem_pair.1 hk <;>
    exact ⟨_, List.mem_cons_self, _, List.mem_cons_self, List.not_mem_nil⟩

end Blueprint
