import Blueprint.Application.Encode
import Blueprint.Proofs.Json.Constructs
import Blueprint.Proofs.Json.Texts
import Blueprint.Proofs.Symbols

/-!
# What is handed on tells the application

An application is handed on as a text. Its parts have different forms wherever they differ, be it a
project without a name, an empty list or an empty text, and no two JSON values have the same text.
So nothing of an application is lost (`Application.render_inj`).
-/

namespace Blueprint

open Json (Settles several eq_of_obj_eq)

/-! ## Declarations -/

instance : (k : DeclKind) → Faithful k.Body
  | .entity => inferInstanceAs (Faithful Entity)
  | .archetype => inferInstanceAs (Faithful Archetype)
  | .enum => inferInstanceAs (Faithful EnumDecl)
  | .surface => inferInstanceAs (Faithful Surface)
  | .workspace => inferInstanceAs (Faithful Workspace)
  | .experience => inferInstanceAs (Faithful Experience)
  | .service => inferInstanceAs (Faithful Service)
  | .foreignModel => inferInstanceAs (Faithful ForeignModel)
  | .integration => inferInstanceAs (Faithful Integration)
  | .test => inferInstanceAs (Faithful TestCase)
  | .flow => inferInstanceAs (Faithful Flow)
  | .persona => inferInstanceAs (Faithful Persona)
  | .scenario => inferInstanceAs (Faithful Scenario)
  | .story => inferInstanceAs (Faithful Story)
  | .llmModel => inferInstanceAs (Faithful LlmModel)
  | .llmIntent => inferInstanceAs (Faithful LlmIntent)
  | .ledger => inferInstanceAs (Faithful Ledger)
  | .transaction => inferInstanceAs (Faithful Transaction)
  | .process => inferInstanceAs (Faithful Process)
  | .schedule => inferInstanceAs (Faithful Schedule)
  | .stream => inferInstanceAs (Faithful Stream)
  | .api => inferInstanceAs (Faithful ApiInterface)
  | .dataProduct => inferInstanceAs (Faithful DataProduct)
  | .approval => inferInstanceAs (Faithful Approval)
  | .sla => inferInstanceAs (Faithful Sla)
  | .webhook => inferInstanceAs (Faithful Webhook)
  | .view => inferInstanceAs (Faithful View)

/-- The declarations of each of the kinds, together with the kind. -/
def declaredOf (kinds : List DeclKind) (named : (k : DeclKind) → List k.Body) :
    List ((k : DeclKind) × List k.Body) :=
  kinds.map fun k => ⟨k, named k⟩

theorem eq_of_declaredOf_eq {named named' : (k : DeclKind) → List k.Body}
    (h : declaredOf DeclKind.all named = declaredOf DeclKind.all named') : named = named' := by
  funext k
  have hk : (⟨k, named k⟩ : (k : DeclKind) × List k.Body) = ⟨k, named' k⟩ :=
    List.map_inj_left.1 h k k.mem_all
  exact eq_of_heq (Sigma.mk.inj hk).2

/-- Kinds are told from each other by the keys their declarations stand under. -/
instance settles_declaredOf (named named' : (k : DeclKind) → List k.Body) :
    ∀ kinds : List DeclKind,
      Settles (kinds.flatMap fun k => several k.plural (named k))
        (kinds.flatMap fun k => several k.plural (named' k)) (kinds.map (·.plural))
        (declaredOf kinds named) (declaredOf kinds named')
  | [] => Settles.nil.imp fun _ => rfl
  | k :: kinds => by
    have hrest := settles_declaredOf named named' kinds
    rw [List.flatMap_cons, List.flatMap_cons]
    refine .imp inferInstance fun h => ?_
    obtain ⟨hk, hkinds⟩ := Prod.mk.inj h
    unfold declaredOf at hkinds ⊢
    rw [List.map_cons, List.map_cons, hk, hkinds]

instance : Faithful Declarations := ⟨by
  rintro ⟨⟩ ⟨⟩ h
  have hparts := eq_of_obj_eq h (by decide)
  simp only [Prod.mk.injEq] at hparts
  obtain ⟨⟨⟨hnamed, rfl⟩, rfl⟩, rfl⟩ := hparts
  rw [eq_of_declaredOf_eq hnamed]⟩

/-! ## Applications -/

instance : Faithful SecurityProfile := .spelled (by rintro ⟨⟩ ⟨⟩ <;> decide)
instance : Faithful AppConfig := ⟨by rintro ⟨⟩ ⟨⟩ h; cases eq_of_obj_eq h (by decide); rfl⟩
instance : Faithful App := ⟨by rintro ⟨⟩ ⟨⟩ h; cases eq_of_obj_eq h (by decide); rfl⟩
instance : Faithful WarningKind := .spelled (by rintro ⟨⟩ ⟨⟩ <;> decide)
instance : Faithful Warning := ⟨by rintro ⟨⟩ ⟨⟩ h; cases eq_of_obj_eq h (by decide); rfl⟩
instance : Faithful Application := ⟨by rintro ⟨⟩ ⟨⟩ h; cases eq_of_obj_eq h (by decide); rfl⟩

/-- Applications are handed on as the same text only if they are the same. -/
theorem Application.render_inj {a b : Application} : a.render = b.render ↔ a = b := by
  constructor
  · intro h
    exact Faithful.inj (Json.pretty_injective h)
  · rintro rfl
    rfl

end Blueprint
