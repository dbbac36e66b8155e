import Blueprint.Api.Basic
import Blueprint.Entity.Encode
import Blueprint.Llm.Encode

/-!
# JSON form of interfaces and webhooks
-/

namespace Blueprint

open Json (field optional several)

instance : Encode ApiStyle := ⟨fun s => .str s.spelling⟩
instance : Encode ApiAuth := ⟨fun a => .str a.spelling⟩

instance : Encode ApiExposure where
  encode e := .obj (field "entity" e.entity ++ field "operations" e.operations)

instance : Encode ApiInterface where
  encode a := .obj <|
    field "loc" a.location ++ field "name" a.name ++ optional "title" a.title ++
      field "style" a.style ++ optional "version" a.version ++ field "auth" a.auth ++
      field "exposes" a.exposes ++ optional "rate_limit" a.rateLimit

instance : Encode WebhookEvent := ⟨fun e => .str e.spelling⟩
instance : Encode WebhookAuthMethod := ⟨fun m => .str m.spelling⟩

instance : Encode WebhookAuth where
  encode a := .obj (field "method" a.method ++ optional "secret_ref" a.secret)

instance : Encode PayloadFormat := ⟨fun f => .str f.spelling⟩

instance : Encode WebhookPayload where
  encode p := .obj (several "include" p.included ++ field "format" p.format)

instance : Encode Webhook where
  encode w := .obj <|
    field "loc" w.location ++ field "name" w.name ++ optional "title" w.title ++
      field "entity" w.entity ++ field "events" w.events ++ field "url" w.url ++
      optional "auth" w.auth ++ optional "payload" w.payload ++ optional "retry" w.retry

end Blueprint
