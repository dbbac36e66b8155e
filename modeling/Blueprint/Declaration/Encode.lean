import Blueprint.Api.Encode
import Blueprint.Approval.Encode
import Blueprint.Declaration.Basic
import Blueprint.Experience.Encode
import Blueprint.Flow.Encode
import Blueprint.Integration.Encode
import Blueprint.Ledger.Encode
import Blueprint.Persona.Encode
import Blueprint.Process.Encode
import Blueprint.Service.Encode
import Blueprint.Stream.Encode
import Blueprint.Test.Encode
import Blueprint.View.Encode
import Blueprint.Workspace.Encode

/-!
# JSON form of declarations
-/

namespace Blueprint

open Json (optional several)

def DeclKind.encodeBody : (k : DeclKind) → k.Body → Json
  | .entity => fun (d : Entity) => encode d
  | .archetype => fun (d : Archetype) => encode d
  | .enum => fun (d : EnumDecl) => encode d
  | .surface => fun (d : Surface) => encode d
  | .workspace => fun (d : Workspace) => encode d
  | .experience => fun (d : Experience) => encode d
  | .service => fun (d : Service) => encode d
  | .foreignModel => fun (d : ForeignModel) => encode d
  | .integration => fun (d : Integration) => encode d
  | .test => fun (d : TestCase) => encode d
  | .flow => fun (d : Flow) => encode d
  | .persona => fun (d : Persona) => encode d
  | .scenario => fun (d : Scenario) => encode d
  | .story => fun (d : Story) => encode d
  | .llmModel => fun (d : LlmModel) => encode d
  | .llmIntent => fun (d : LlmIntent) => encode d
  | .ledger => fun (d : Ledger) => encode d
  | .transaction => fun (d : Transaction) => encode d
  | .process => fun (d : Process) => encode d
  | .schedule => fun (d : Schedule) => encode d
  | .stream => fun (d : Stream) => encode d
  | .api => fun (d : ApiInterface) => encode d
  | .dataProduct => fun (d : DataProduct) => encode d
  | .approval => fun (d : Approval) => encode d
  | .sla => fun (d : Sla) => encode d
  | .webhook => fun (d : Webhook) => encode d
  | .view => fun (d : View) => encode d

instance (k : DeclKind) : Encode k.Body := ⟨k.encodeBody⟩

instance : Encode Declarations where
  encode d := .obj <|
    (DeclKind.all.flatMap fun k => several k.plural (d.named k)) ++
      optional "llm_config" d.llmConfig ++ optional "policies" d.policies ++
      optional "tenancy" d.tenancy

end Blueprint
