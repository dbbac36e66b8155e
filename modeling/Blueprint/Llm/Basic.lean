import Blueprint.Duration
import Blueprint.Location

/-!
# Language models

The language models of an application, the settings that hold for all of them, and the intents: what
they are asked to do.
-/

namespace Blueprint

inductive LlmProvider where
  | anthropic | openai | google | «local»
  deriving DecidableEq

namespace LlmProvider

def all : List LlmProvider := [anthropic, openai, google, «local»]

def spelling : LlmProvider → String
  | anthropic => "anthropic"
  | openai => "openai"
  | google => "google"
  | «local» => "local"

end LlmProvider

inductive ModelTier where
  | fast | balanced | quality
  deriving DecidableEq

namespace ModelTier

def all : List ModelTier := [fast, balanced, quality]

def spelling : ModelTier → String
  | fast => "fast"
  | balanced => "balanced"
  | quality => "quality"

end ModelTier

structure LlmModel where
  location : Location
  name : String
  title : Option String := none
  provider : LlmProvider
  modelId : String
  tier : ModelTier := .balanced
  maxTokens : Option Nat := none
  /-- A price, kept as it was spelled. -/
  inputCost : Option String := none
  outputCost : Option String := none
  deriving DecidableEq

/-- Where what a model returns is kept. -/
inductive ArtifactStore where
  | «local» | s3 | gcs
  deriving DecidableEq

namespace ArtifactStore

def all : List ArtifactStore := [«local», s3, gcs]

def spelling : ArtifactStore → String
  | «local» => "local"
  | s3 => "s3"
  | gcs => "gcs"

end ArtifactStore

structure LlmLogging where
  prompts : Bool := false
  completions : Bool := false
  redactPii : Bool := false
  deriving DecidableEq

/-- The number of requests that a model takes in a minute. -/
structure RateLimit where
  model : String
  perMinute : Nat
  deriving DecidableEq

structure LlmConfig where
  location : Location
  defaultModel : Option String := none
  artifactStore : ArtifactStore := .local
  logging : LlmLogging := {}
  rateLimits : List RateLimit := []
  deriving DecidableEq

inductive BackoffStrategy where
  | fixed | linear | exponential
  deriving DecidableEq

namespace BackoffStrategy

def all : List BackoffStrategy := [fixed, linear, exponential]

def spelling : BackoffStrategy → String
  | fixed => "fixed"
  | linear => "linear"
  | exponential => "exponential"

end BackoffStrategy

structure RetryPolicy where
  maxAttempts : Nat := 3
  backoff : BackoffStrategy := .exponential
  initialDelay : Option Duration := none
  deriving DecidableEq

inductive PiiAction where
  | redact | reject | warn
  deriving DecidableEq

namespace PiiAction

def all : List PiiAction := [redact, reject, warn]

def spelling : PiiAction → String
  | redact => "redact"
  | reject => "reject"
  | warn => "warn"

end PiiAction

/-- What is done about personal data in a prompt. -/
structure PiiPolicy where
  scan : Bool := true
  action : PiiAction := .redact
  deriving DecidableEq

structure LlmIntent where
  location : Location
  name : String
  title : Option String := none
  model : Option String := none
  prompt : String
  /-- The entity that the answer is read as. -/
  outputSchema : Option String := none
  timeout : Option Duration := none
  retry : Option RetryPolicy := none
  pii : Option PiiPolicy := none
  deriving DecidableEq

end Blueprint
