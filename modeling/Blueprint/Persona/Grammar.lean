import Blueprint.Parser.Block
import Blueprint.Persona.Basic

/-!
# Grammar of personas, scenarios and stories
-/

namespace Blueprint.Parser

/-! ## Personas -/

def personaDirective (p : Persona) : Parser Persona := do
  match ← keyword? with
  | some .description => return { p with description := some (← keyed string) }
  | some .goals => return { p with goals := ← keyedStrings }
  | some .proficiency =>
    let proficiency ← keyed (choiceOf "proficiency" Proficiency.all Proficiency.spelling)
    return { p with proficiency }
  | some .defaultWorkspace => return { p with defaultWorkspace := some (← keyed name) }
  | some .defaultRoute => return { p with defaultRoute := some (← keyed string) }
  | _ => passOver p

def persona : Parser Persona := do
  let location ← here
  let _ ← expectKeyword .persona
  let (n, title) ← header
  block personaDirective { location, name := n, title }

/-! ## Scenarios -/

def entryStatement (e : ScenarioEntry) : Parser ScenarioEntry := do
  match ← keyword? with
  | some .startRoute => return { e with startRoute := some (← keyed string) }
  | some .seedScript => return { e with seedScript := some (← keyed string) }
  | _ => passOver e

/-- `"persona" name` and a block of directives. -/
def scenarioEntry : Parser ScenarioEntry := do
  let _ ← expectKeyword .persona
  block entryStatement { persona := ← name }

def scenarioStatement (s : Scenario) : Parser Scenario := do
  match ← keyword? with
  | some .description => return { s with description := some (← keyed string) }
  | some .seedScript => return { s with seedScript := some (← keyed string) }
  | some .for =>
    let _ ← advance
    return { s with entries := s.entries ++ [← scenarioEntry] }
  | _ => passOver s

def scenario : Parser Scenario := do
  let location ← here
  let _ ← expectKeyword .scenario
  let (n, title) ← header
  block scenarioStatement { location, name := n, title }

/-! ## Stories -/

/-- `"then" ":" strings` adds outcomes. -/
def unlessStatement (c : UnlessClause) : Parser UnlessClause := do
  if ← isAtKeyword .then then return { c with outcomes := c.outcomes ++ (← keyedStrings) }
  else passOver c

/-- `"-" string`, with or without a block of outcomes. -/
def unlessClause : Parser UnlessClause := do
  let _ ← expect .minus
  blockOrEnd unlessStatement { condition := ← string }

/-- The directives of a story as far as they have been read. -/
structure StoryDraft where
  actor : Option String := none
  trigger : Option StoryTrigger := none
  scope : List String := []
  given : List String := []
  «when» : List String := []
  «then» : List String := []
  exceptions : List UnlessClause := []
  status : StoryStatus := .draft

def storyStatement (d : StoryDraft) : Parser StoryDraft := do
  match ← keyword? with
  | some .actor => return { d with actor := some (← keyed name) }
  | some .trigger =>
    let trigger ← keyed (choiceOf "story trigger" StoryTrigger.all StoryTrigger.spelling)
    return { d with trigger := some trigger }
  | some .scope => return { d with scope := ← keyed names }
  | some .given => return { d with given := ← keyedStrings }
  | some .when =>
    let lines ← keyedStrings
    return { d with «when» := lines }
  | some .then =>
    let lines ← keyedStrings
    return { d with «then» := lines }
  | some .unless =>
    let _ ← advance
    return { d with exceptions := ← block (fun l => do return l ++ [← unlessClause]) [] }
  | some .status =>
    return { d with
      status := ← keyed (choiceOf "story status" StoryStatus.all StoryStatus.spelling) }
  | _ => passOver d

def story : Parser Story := do
  let location ← here
  let _ ← expectKeyword .story
  let (n, title) ← header
  let d ← block storyStatement {}
  let actor ← required "story" n "actor" location d.actor
  let trigger ← required "story" n "trigger" location d.trigger
  return { location, name := n, title, actor, trigger, scope := d.scope, given := d.given,
           «when» := d.when, «then» := d.then, exceptions := d.exceptions, status := d.status }

end Blueprint.Parser
