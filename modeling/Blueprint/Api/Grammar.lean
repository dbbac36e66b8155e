import Blueprint.Api.Basic
import Blueprint.Entity.Grammar
import Blueprint.Llm.Grammar

/-!
# Grammar of interfaces and webhooks
-/

namespace Blueprint.Parser

/-! ## Interfaces -/

/-- The operations of one word, without those that are there already. -/
def anotherOperation (operations : List AccessOperation) : Parser (List AccessOperation) := do
  return operations ++ (← accessOperations).filter fun o => !operations.contains o

/-- `entity ":" operations`. -/
def exposure : Parser ApiExposure := do
  return ⟨← name, ← directive (listedFold anotherOperation [])⟩

def apiStatement (a : ApiInterface) : Parser ApiInterface := do
  match ← keyword? with
  | some .style =>
    return { a with style := ← keyed (choiceOf "api style" ApiStyle.all ApiStyle.spelling) }
  | some .version => return { a with version := some (← keyed stringOrName) }
  | some .auth =>
    return { a with auth := ← keyed (choiceOf "api auth" ApiAuth.all ApiAuth.spelling) }
  | some .expose =>
    let _ ← advance
    return { a with exposes := a.exposes ++ [← exposure] }
  | some .rateLimit => return { a with rateLimit := some (← keyed count) }
  | _ => passOver a

def api : Parser ApiInterface := do
  let location ← here
  let _ ← expectKeyword .api
  let (n, title) ← header
  block apiStatement { location, name := n, title }

/-- A block of interfaces. -/
def interfaces : Parser (List ApiInterface) := do
  let _ ← expectKeyword .interfaces
  block (fun l => do
    if ← isAtKeyword .api then return l ++ [← api] else passOver l) []

/-! ## Webhooks -/

def anotherEvent (events : List WebhookEvent) : Parser (List WebhookEvent) := do
  let event ← choiceOf "webhook event" WebhookEvent.all WebhookEvent.spelling
  return if events.contains event then events else events ++ [event]

def webhookAuthMethod : Parser WebhookAuthMethod :=
  choiceOf "webhook auth method" WebhookAuthMethod.all WebhookAuthMethod.spelling

/-- `method ["secret" string]`. -/
def inlineAuth : Parser WebhookAuth := do
  let method ← webhookAuthMethod
  let secret ← if ← acceptText "secret" then some <$> string else pure none
  return { method, secret }

/-- The directives of a webhook's authentication as far as they have been read. -/
structure WebhookAuthDraft where
  method : Option WebhookAuthMethod := none
  secret : Option String := none

def authStatement (d : WebhookAuthDraft) : Parser WebhookAuthDraft := do
  if ← acceptText "method" then return { d with method := some (← directive webhookAuthMethod) }
  else if ← acceptText "secret" then return { d with secret := some (← directive stringOrName) }
  else passOver d

/-- Authentication, on one line or in a block. -/
def webhookAuth : Parser WebhookAuth := do
  if ← peekIs 1 .newline then
    let location ← here
    let d ← block authStatement {}
    match d.method with
    | some method => return { method, secret := d.secret }
    | none => failIn location (.missingIn "webhook auth" "method")
  else directive inlineAuth

def payloadStatement (p : WebhookPayload) : Parser WebhookPayload := do
  match ← keyword? with
  | some .include => return { p with included := ← keyed names }
  | some .format =>
    let format ← keyed (choiceOf "payload format" PayloadFormat.all PayloadFormat.spelling)
    return { p with format }
  | _ => passOver p

/-- The directives of a webhook as far as they have been read. -/
structure WebhookDraft where
  entity : Option String := none
  events : List WebhookEvent := []
  url : Option String := none
  auth : Option WebhookAuth := none
  payload : Option WebhookPayload := none
  retry : Option RetryPolicy := none

def webhookStatement (d : WebhookDraft) : Parser WebhookDraft := do
  match ← keyword? with
  | some .entity =>
    if ← peekIs 1 .colon then return { d with entity := some (← keyed name) } else passOver d
  | some .events => return { d with events := ← keyed (listedFold anotherEvent d.events) }
  | some .url => return { d with url := some (← keyed string) }
  | some .auth =>
    let _ ← advance
    return { d with auth := some (← webhookAuth) }
  | some .payload =>
    let _ ← advance
    return { d with payload := some (← block payloadStatement {}) }
  | some .retry =>
    let _ ← advance
    return { d with retry := some (← retryPolicy) }
  | _ => passOver d

/-- A webhook, with at least one event. -/
def webhook : Parser Webhook := do
  let location ← here
  let _ ← expectKeyword .webhook
  let (n, title) ← header
  let d ← block webhookStatement {}
  let target ← required "webhook" n "entity" location d.entity
  let url ← required "webhook" n "url" location d.url
  if d.events.isEmpty then failIn location (.missing "webhook" n "events")
  else return {
    location, name := n, title, entity := target, events := d.events, url, auth := d.auth,
    payload := d.payload, retry := d.retry }

end Blueprint.Parser
