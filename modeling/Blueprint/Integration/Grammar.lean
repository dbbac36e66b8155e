import Blueprint.Expr.Grammar
import Blueprint.Integration.Basic
import Blueprint.Parser.Block

/-!
# Grammar of integrations
-/

namespace Blueprint.Parser

/-- `service ["." operation]`. -/
def serviceCall : Parser ServiceCall := do
  let called ← name
  if ← accept .dot then return ⟨called, some (← name)⟩ else return ⟨called, none⟩

/-- `target "<-" path`. -/
def mappingRule : Parser MappingRule := do
  let target ← name
  let _ ← expect .backArrow
  return ⟨target, ← closing fieldPath⟩

def mappingRules : Parser (List MappingRule) :=
  block (fun l => do return l ++ [← mappingRule]) []

/-! ## Actions -/

/-- The directives of an action as far as they have been read. -/
structure ActionDraft where
  whenSurface : Option String := none
  whenEvent : Option String := none
  call : Option ServiceCall := none
  mapping : List MappingRule := []
  response : Option ResponseMapping := none

/-- `foreign_model "into" entity` and a block of mapping rules. -/
def responseMapping : Parser ResponseMapping := do
  let model ← name
  let _ ← expectKeyword .into
  return { foreignModel := model, entity := ← name, rules := ← mappingRules }

def actionStatement (d : ActionDraft) : Parser ActionDraft := do
  match ← keyword? with
  | some .when =>
    let _ ← advance
    let _ ← expectKeyword .surface
    let origin ← name
    let event ← if ← isAtWord then some <$> word else pure d.whenEvent
    endStatement
    return { d with whenSurface := some origin, whenEvent := event }
  | some .call =>
    let _ ← advance
    return { d with call := some (← closing serviceCall) }
  | some .mapping =>
    let _ ← advance
    return { d with mapping := ← mappingRules }
  | some .response =>
    let _ ← advance
    return { d with response := some (← responseMapping) }
  | _ => passOver d

def integrationAction : Parser IntegrationAction := do
  let location ← here
  let n ← name
  let d ← block actionStatement {}
  let call ← required "action" n "call" location d.call
  return {
    name := n, whenSurface := d.whenSurface, whenEvent := d.whenEvent, call,
    mapping := d.mapping, response := d.response }

/-! ## Syncs -/

/-- The directives of a sync as far as they have been read. -/
structure SyncDraft where
  mode : SyncMode := .eventDriven
  origin : Option ServiceCall := none
  foreignModel : Option String := none
  entity : Option String := none
  matchRules : List MatchRule := []

/-- `"scheduled" [cron]` or `"event_driven"`. -/
def syncMode : Parser SyncMode := do
  if ← acceptText "scheduled" then return .scheduled (← string?)
  else if ← acceptText "event_driven" then return .eventDriven
  else unexpected "'scheduled' or 'event_driven'"

/-- `foreign_field "<->" entity_field`. -/
def matchRule : Parser MatchRule := do
  let foreignField ← name
  let _ ← expect .bothArrow
  return ⟨foreignField, ← closing name⟩

def syncStatement (d : SyncDraft) : Parser SyncDraft := do
  match ← keyword? with
  | some .mode => return { d with mode := ← keyed syncMode }
  | some .from =>
    let _ ← advance
    let origin ← serviceCall
    let model ← if ← acceptKeyword .as then some <$> name else pure d.foreignModel
    endStatement
    return { d with origin := some origin, foreignModel := model }
  | some .into =>
    let _ ← advance
    return { d with entity := some (← closing name) }
  | some .match =>
    let _ ← advance
    let _ ← expectKeyword .rules
    let matchRules ← block (fun l => do return l ++ [← matchRule]) d.matchRules
    return { d with matchRules }
  | _ => passOver d

def integrationSync : Parser IntegrationSync := do
  let location ← here
  let n ← name
  let d ← block syncStatement {}
  let origin ← required "sync" n "from" location d.origin
  let target ← required "sync" n "into" location d.entity
  return {
    name := n, mode := d.mode, origin, foreignModel := d.foreignModel, entity := target,
    matchRules := d.matchRules }

/-! ## Integrations -/

/-- `"service" names` or `"foreign" names`. -/
def integrationUse (i : Integration) : Parser Integration := do
  if ← acceptKeyword .service then return { i with services := i.services ++ (← names) }
  else if ← acceptText "foreign" then
    return { i with foreignModels := i.foreignModels ++ (← names) }
  else unexpected "'service' or 'foreign'"

/-- One more action, which no other action may have the name of. -/
def anotherAction (actions : List IntegrationAction) : Parser (List IntegrationAction) := do
  let t ← current
  let a ← integrationAction
  if actions.any (·.name == a.name) then failAt t (.duplicate "action" a.name)
  else return actions ++ [a]

def integrationStatement (i : Integration) : Parser Integration := do
  match ← keyword? with
  | some .uses =>
    let _ ← advance
    closing (integrationUse i)
  | some .action =>
    let _ ← advance
    return { i with actions := ← anotherAction i.actions }
  | some .sync =>
    let _ ← advance
    return { i with syncs := i.syncs ++ [← integrationSync] }
  | _ => passOver i

def integration : Parser Integration := do
  let location ← here
  let _ ← expectKeyword .integration
  let (n, title) ← header
  block integrationStatement { location, name := n, title }

end Blueprint.Parser
