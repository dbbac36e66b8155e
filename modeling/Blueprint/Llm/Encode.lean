import Blueprint.Entity.Encode
import Blueprint.Llm.Basic

/-!
# JSON form of language models
-/

namespace Blueprint

open Json (field optional several)

instance : Encode LlmProvider := ⟨fun p => .str p.spelling⟩
instance : Encode ModelTier := ⟨fun t => .str t.spelling⟩

instance : Encode LlmModel where
  encode m := .obj <|
    field "loc" m.location ++ field "name" m.name ++ optional "title" m.title ++
      field "provider" m.provider ++ field "model_id" m.modelId ++ field "tier" m.tier ++
      optional "max_tokens" m.maxTokens ++ optional "cost_per_1k_input" m.inputCost ++
      optional "cost_per_1k_output" m.outputCost

instance : Encode ArtifactStore := ⟨fun s => .str s.spelling⟩

instance : Encode LlmLogging where
  encode l := .obj <|
    field "log_prompts" l.prompts ++ field "log_completions" l.completions ++
      field "redact_pii" l.redactPii

instance : Encode RateLimit where
  encode l := .obj (field "model" l.model ++ field "per_minute" l.perMinute)

instance : Encode LlmConfig where
  encode c := .obj <|
    field "loc" c.location ++ optional "default_model" c.defaultModel ++
      field "artifact_store" c.artifactStore ++ field "logging" c.logging ++
      several "rate_limits" c.rateLimits

instance : Encode BackoffStrategy := ⟨fun s => .str s.spelling⟩

instance : Encode RetryPolicy where
  encode p := .obj <|
    field "max_attempts" p.maxAttempts ++ field "backoff" p.backoff ++
      optional "initial_delay" p.initialDelay

instance : Encode PiiAction := ⟨fun a => .str a.spelling⟩

instance : Encode PiiPolicy where
  encode p := .obj (field "scan" p.scan ++ field "action" p.action)

instance : Encode LlmIntent where
  encode i := .obj <|
    field "loc" i.location ++ field "name" i.name ++ optional "title" i.title ++
      optional "model" i.model ++ field "prompt" i.prompt ++
      optional "output_schema" i.outputSchema ++ optional "timeout" i.timeout ++
      optional "retry" i.retry ++ optional "pii" i.pii

end Blueprint
