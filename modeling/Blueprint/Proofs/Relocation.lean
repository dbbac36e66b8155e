import Blueprint.Module.Basic

/-!
# Places of declarations

A declaration keeps the place of its first token. `Placed` says that what is declared has a place
and can be moved to another one, being the same otherwise.
-/

namespace Blueprint

/-- What is declared at a place. -/
class Placed (α : Type) where
  location : α → Location
  /-- The same declaration at another place. -/
  move : Location → α → α
  location_move : ∀ l v, location (move l v) = l
  move_location : ∀ v, move (location v) v = v

/-- The same declaration where its place is in another file. -/
def Placed.relocate {α : Type} [Placed α] (f : Location → Location) (v : α) : α :=
  move (f (location v)) v

instance : Placed Entity :=
  ⟨Entity.location, fun l v => { v with location := l }, fun _ _ => rfl, fun _ => rfl⟩
instance : Placed Archetype :=
  ⟨Archetype.location, fun l v => { v with location := l }, fun _ _ => rfl, fun _ => rfl⟩
instance : Placed EnumDecl :=
  ⟨EnumDecl.location, fun l v => { v with location := l }, fun _ _ => rfl, fun _ => rfl⟩
instance : Placed Surface :=
  ⟨Surface.location, fun l v => { v with location := l }, fun _ _ => rfl, fun _ => rfl⟩
instance : Placed Workspace :=
  ⟨Workspace.location, fun l v => { v with location := l }, fun _ _ => rfl, fun _ => rfl⟩
instance : Placed Experience :=
  ⟨Experience.location, fun l v => { v with location := l }, fun _ _ => rfl, fun _ => rfl⟩
instance : Placed Service :=
  ⟨Service.location, fun l v => { v with location := l }, fun _ _ => rfl, fun _ => rfl⟩
instance : Placed ForeignModel :=
  ⟨ForeignModel.location, fun l v => { v with location := l }, fun _ _ => rfl, fun _ => rfl⟩
instance : Placed Integration :=
  ⟨Integration.location, fun l v => { v with location := l }, fun _ _ => rfl, fun _ => rfl⟩
instance : Placed TestCase :=
  ⟨TestCase.location, fun l v => { v with location := l }, fun _ _ => rfl, fun _ => rfl⟩
instance : Placed Flow :=
  ⟨Flow.location, fun l v => { v with location := l }, fun _ _ => rfl, fun _ => rfl⟩
instance : Placed Persona :=
  ⟨Persona.location, fun l v => { v with location := l }, fun _ _ => rfl, fun _ => rfl⟩
instance : Placed Scenario :=
  ⟨Scenario.location, fun l v => { v with location := l }, fun _ _ => rfl, fun _ => rfl⟩
instance : Placed Story :=
  ⟨Story.location, fun l v => { v with location := l }, fun _ _ => rfl, fun _ => rfl⟩
instance : Placed LlmModel :=
  ⟨LlmModel.location, fun l v => { v with location := l }, fun _ _ => rfl, fun _ => rfl⟩
instance : Placed LlmIntent :=
  ⟨LlmIntent.location, fun l v => { v with location := l }, fun _ _ => rfl, fun _ => rfl⟩
instance : Placed Ledger :=
  ⟨Ledger.location, fun l v => { v with location := l }, fun _ _ => rfl, fun _ => rfl⟩
instance : Placed Transaction :=
  ⟨Transaction.location, fun l v => { v with location := l }, fun _ _ => rfl, fun _ => rfl⟩
instance : Placed Process :=
  ⟨Process.location, fun l v => { v with location := l }, fun _ _ => rfl, fun _ => rfl⟩
instance : Placed Schedule :=
  ⟨Schedule.location, fun l v => { v with location := l }, fun _ _ => rfl, fun _ => rfl⟩
instance : Placed Stream :=
  ⟨Stream.location, fun l v => { v with location := l }, fun _ _ => rfl, fun _ => rfl⟩
instance : Placed ApiInterface :=
  ⟨ApiInterface.location, fun l v => { v with location := l }, fun _ _ => rfl, fun _ => rfl⟩
instance : Placed DataProduct :=
  ⟨DataProduct.location, fun l v => { v with location := l }, fun _ _ => rfl, fun _ => rfl⟩
instance : Placed Approval :=
  ⟨Approval.location, fun l v => { v with location := l }, fun _ _ => rfl, fun _ => rfl⟩
instance : Placed Sla :=
  ⟨Sla.location, fun l v => { v with location := l }, fun _ _ => rfl, fun _ => rfl⟩
instance : Placed Webhook :=
  ⟨Webhook.location, fun l v => { v with location := l }, fun _ _ => rfl, fun _ => rfl⟩
instance : Placed View :=
  ⟨View.location, fun l v => { v with location := l }, fun _ _ => rfl, fun _ => rfl⟩
instance : Placed LlmConfig :=
  ⟨LlmConfig.location, fun l v => { v with location := l }, fun _ _ => rfl, fun _ => rfl⟩
instance : Placed Policies :=
  ⟨Policies.location, fun l v => { v with location := l }, fun _ _ => rfl, fun _ => rfl⟩
instance : Placed Tenancy :=
  ⟨Tenancy.location, fun l v => { v with location := l }, fun _ _ => rfl, fun _ => rfl⟩
instance : Placed App :=
  ⟨App.location, fun l v => { v with location := l }, fun _ _ => rfl, fun _ => rfl⟩

instance (k : DeclKind) : Placed k.Body :=
  match k with
  | .entity => inferInstanceAs (Placed Entity)
  | .archetype => inferInstanceAs (Placed Archetype)
  | .enum => inferInstanceAs (Placed EnumDecl)
  | .surface => inferInstanceAs (Placed Surface)
  | .workspace => inferInstanceAs (Placed Workspace)
  | .experience => inferInstanceAs (Placed Experience)
  | .service => inferInstanceAs (Placed Service)
  | .foreignModel => inferInstanceAs (Placed ForeignModel)
  | .integration => inferInstanceAs (Placed Integration)
  | .test => inferInstanceAs (Placed TestCase)
  | .flow => inferInstanceAs (Placed Flow)
  | .persona => inferInstanceAs (Placed Persona)
  | .scenario => inferInstanceAs (Placed Scenario)
  | .story => inferInstanceAs (Placed Story)
  | .llmModel => inferInstanceAs (Placed LlmModel)
  | .llmIntent => inferInstanceAs (Placed LlmIntent)
  | .ledger => inferInstanceAs (Placed Ledger)
  | .transaction => inferInstanceAs (Placed Transaction)
  | .process => inferInstanceAs (Placed Process)
  | .schedule => inferInstanceAs (Placed Schedule)
  | .stream => inferInstanceAs (Placed Stream)
  | .api => inferInstanceAs (Placed ApiInterface)
  | .dataProduct => inferInstanceAs (Placed DataProduct)
  | .approval => inferInstanceAs (Placed Approval)
  | .sla => inferInstanceAs (Placed Sla)
  | .webhook => inferInstanceAs (Placed Webhook)
  | .view => inferInstanceAs (Placed View)

namespace Placed

variable {α : Type} [Placed α]

/-- The place of a declaration that is moved is where it is moved to. -/
theorem location_relocate (f : Location → Location) (v : α) :
    location (relocate f v) = f (location v) :=
  location_move _ v

theorem relocate_id : relocate (id : Location → Location) = (id : α → α) :=
  funext move_location

end Placed

/-- Every kind of declaration has its place where `DeclKind.location` says. -/
theorem DeclKind.location_eq (k : DeclKind) (b : k.Body) : k.location b = Placed.location b := by
  cases k <;> rfl

/-- The declaration where its place is in another file. -/
def Declaration.relocate (f : Location → Location) (d : Declaration) : Declaration :=
  ⟨d.kind, Placed.relocate f d.body⟩

theorem Declaration.bodyOf?_relocate (k : DeclKind) (f : Location → Location) (d : Declaration) :
    (d.relocate f).bodyOf? k = (d.bodyOf? k).map (Placed.relocate f) := by
  obtain ⟨kind, body⟩ := d
  unfold bodyOf? relocate
  by_cases h : kind = k
  · subst h
    rw [dif_pos rfl, dif_pos rfl]
    rfl
  · rw [dif_neg h, dif_neg h]
    rfl

namespace Declarations

/-- The declarations where their places are in another file. -/
def relocate (f : Location → Location) (d : Declarations) : Declarations where
  named k := (d.named k).map (Placed.relocate f)
  llmConfig := d.llmConfig.map (Placed.relocate f)
  policies := d.policies.map (Placed.relocate f)
  tenancy := d.tenancy.map (Placed.relocate f)

/-- The declarations of one text and then those of another. -/
def followedBy (d d' : Declarations) : Declarations where
  named k := d.named k ++ d'.named k
  llmConfig := d.llmConfig.or d'.llmConfig
  policies := d.policies.or d'.policies
  tenancy := d.tenancy.or d'.tenancy

end Declarations

end Blueprint
