import Blueprint.Llm.Basic
import Blueprint.Parser.Block

/-!
# Grammar of language models
-/

namespace Blueprint.Parser

/-! ## Models -/

/-- The directives of a model as far as they have been read. -/
structure LlmModelDraft where
  provider : Option LlmProvider := none
  modelId : Option String := none
  tier : ModelTier := .balanced
  maxTokens : Option Nat := none
  inputCost : Option String := none
  outputCost : Option String := none

def llmModelStatement (d : LlmModelDraft) : Parser LlmModelDraft := do
  match ← keyword? with
  | some .provider =>
    let provider ← keyed (choiceOf "provider" LlmProvider.all LlmProvider.spelling)
    return { d with provider := some provider }
  | some .modelId => return { d with modelId := some (← keyed string) }
  | some .tier =>
    return { d with tier := ← keyed (choiceOf "model tier" ModelTier.all ModelTier.spelling) }
  | some .maxTokens => return { d with maxTokens := some (← keyed count) }
  | some .costPer1kInput => return { d with inputCost := some (← keyed numberText) }
  | some .costPer1kOutput => return { d with outputCost := some (← keyed numberText) }
  | _ => passOver d

def llmModel : Parser LlmModel := do
  let location ← here
  let _ ← expectKeyword .llmModel
  let (n, title) ← header
  let d ← block llmModelStatement {}
  let provider ← required "llm_model" n "provider" location d.provider
  let modelId ← required "llm_model" n "model_id" location d.modelId
  return {
    location, name := n, title, provider, modelId, tier := d.tier, maxTokens := d.maxTokens,
    inputCost := d.inputCost, outputCost := d.outputCost }

/-! ## Settings -/

def loggingStatement (l : LlmLogging) : Parser LlmLogging := do
  if ← acceptText "log_prompts" then return { l with prompts := ← directive truth }
  else if ← acceptText "log_completions" then return { l with completions := ← directive truth }
  else if ← acceptText "redact_pii" then return { l with redactPii := ← directive truth }
  else passOver l

/-- `model ":" count`. -/
def rateLimit : Parser RateLimit := do
  return ⟨← name, ← directive count⟩

def llmConfigStatement (c : LlmConfig) : Parser LlmConfig := do
  match ← keyword? with
  | some .defaultModel => return { c with defaultModel := some (← keyed name) }
  | some .artifactStore =>
    let store ← keyed (choiceOf "artifact store" ArtifactStore.all ArtifactStore.spelling)
    return { c with artifactStore := store }
  | some .logging =>
    let _ ← advance
    return { c with logging := ← block loggingStatement c.logging }
  | some .rateLimits =>
    let _ ← advance
    return { c with rateLimits := ← block (fun l => do return l ++ [← rateLimit]) c.rateLimits }
  | _ => passOver c

def llmConfig : Parser LlmConfig := do
  let location ← here
  let _ ← expectKeyword .llmConfig
  block llmConfigStatement { location }

/-! ## Intents -/

def retryStatement (p : RetryPolicy) : Parser RetryPolicy := do
  match ← keyword? with
  | some .maxAttempts => return { p with maxAttempts := ← keyed count }
  | some .backoff =>
    let backoff ← keyed (choiceOf "backoff strategy" BackoffStrategy.all BackoffStrategy.spelling)
    return { p with backoff }
  | some .initialDelay => return { p with initialDelay := some (← keyed duration) }
  | _ => passOver p

/-- A block that tells how to try again. At least one attempt is made. -/
def retryPolicy : Parser RetryPolicy := do
  let p ← block retryStatement {}
  if p.maxAttempts = 0 then fail .noAttempts else return p

def piiStatement (p : PiiPolicy) : Parser PiiPolicy := do
  if ← acceptText "scan" then return { p with scan := ← directive truth }
  else if ← isAtKeyword .action then
    return { p with action := ← keyed (choiceOf "pii action" PiiAction.all PiiAction.spelling) }
  else passOver p

/-- The directives of an intent as far as they have been read. -/
structure LlmIntentDraft where
  model : Option String := none
  prompt : Option String := none
  outputSchema : Option String := none
  timeout : Option Duration := none
  retry : Option RetryPolicy := none
  pii : Option PiiPolicy := none

def llmIntentStatement (d : LlmIntentDraft) : Parser LlmIntentDraft := do
  match ← keyword? with
  | some .model => return { d with model := some (← keyed name) }
  | some .prompt => return { d with prompt := some (← keyed string) }
  | some .outputSchema => return { d with outputSchema := some (← keyed name) }
  | some .timeout => return { d with timeout := some (← keyed duration) }
  | some .retry =>
    let _ ← advance
    return { d with retry := some (← retryPolicy) }
  | some .pii =>
    let _ ← advance
    return { d with pii := some (← block piiStatement {}) }
  | _ => passOver d

def llmIntent : Parser LlmIntent := do
  let location ← here
  let _ ← expectKeyword .llmIntent
  let (n, title) ← header
  let d ← block llmIntentStatement {}
  let prompt ← required "llm_intent" n "prompt" location d.prompt
  return {
    location, name := n, title, model := d.model, prompt, outputSchema := d.outputSchema,
    timeout := d.timeout, retry := d.retry, pii := d.pii }

end Blueprint.Parser
