import Blueprint.Expr.Grammar
import Blueprint.Parser.Block
import Blueprint.Surface.Basic

/-!
# Grammar of surfaces
-/

namespace Blueprint.Parser

/-! ## Sections and actions -/

/-- `name ["Title"]` and a block of `field name ["Label"]` lines. -/
def surfaceSection : Parser SurfaceSection := do
  let (n, title) ← header
  let elements ← block (fun l => do
    if ← acceptKeyword .field then
      let (fieldName, label) ← closing header
      return l ++ [⟨fieldName, label⟩]
    else passOver l) []
  return { name := n, title, elements }

/-- `kind target ["action" name]`. -/
def outcome : Parser Outcome := do
  let kind ← choiceOf "outcome" OutcomeKind.all OutcomeKind.spelling
  let target ← name
  if ← acceptKeyword .action then return { kind, target, action := some (← name) }
  else return { kind, target }

/-- `name ["Label"]`, with or without a block of `on event "->" outcome`. -/
def surfaceAction : Parser SurfaceAction := do
  let (n, label) ← header
  blockOrEnd (fun a => do
    if ← acceptKeyword .on then
      let trigger ← word
      let _ ← expect .arrow
      return { a with trigger, outcome := some (← closing outcome) }
    else passOver a) { name := n, label }

/-! ## Presentation -/

/-- `name ["asc" | "desc"]`. -/
def sortKey : Parser SortKey := do
  let n ← name
  if ← acceptText "desc" then return ⟨n, true⟩
  else
    let _ ← acceptText "asc"
    return ⟨n, false⟩

def sortKeys : Parser (List SortKey) := separated .comma sortKey

/-- The directives of an attention signal as far as they have been read. -/
structure AttentionDraft where
  condition : Option Condition := none
  message : Option String := none
  action : Option String := none

def attentionStatement (d : AttentionDraft) : Parser AttentionDraft := do
  match ← keyword? with
  | some .when => return { d with condition := some (← keyed condition) }
  | some .message => return { d with message := some (← keyed string) }
  | some .action => return { d with action := some (← keyed name) }
  | _ => passOver d

def attentionSignal : Parser AttentionSignal := do
  let location ← here
  let levelName := (← current).text
  let level ← choiceOf "attention level" AttentionLevel.all AttentionLevel.spelling
  let d ← block attentionStatement {}
  let c ← required "attention" levelName "when" location d.condition
  let message ← required "attention" levelName "message" location d.message
  return { level, condition := c, message, action := d.action }

/-- Whether the token `n` places ahead ends its statement. -/
def endsAt (n : Nat) : Parser Bool := do
  match (← peek n).kind with
  | .newline | .dedent | .endOfFile => return true
  | _ => return false

/-- The word `all` on its own, or a condition. -/
def personaScope : Parser PersonaScope := do
  if (← isAtText "all") && (← endsAt 1) then
    let _ ← advance
    return .all
  else return .filter (← condition)

def personaStatement (v : PersonaVariant) : Parser PersonaVariant := do
  match ← keyword? with
  | some .scope => return { v with scope := some (← keyed personaScope) }
  | some .hide => return { v with hide := ← keyed names }
  | some .show => return { v with shown := ← keyed names }
  | some .showAggregate => return { v with showAggregate := ← keyed names }
  | some .actionPrimary => return { v with actionPrimary := some (← keyed name) }
  | some .readOnly => return { v with readOnly := ← keyed truth }
  | _ => passOver v

def personaVariant : Parser PersonaVariant := do
  block personaStatement { persona := ← name }

def presentationStatement (p : Presentation) : Parser Presentation := do
  match ← keyword? with
  | some .purpose => return { p with purpose := some (← keyed string) }
  | some .sort => return { p with sort := ← keyed sortKeys }
  | some .filter => return { p with filter := ← keyed names }
  | some .search => return { p with search := ← keyed names }
  | some .empty => return { p with emptyMessage := some (← keyed string) }
  | some .attention =>
    let _ ← advance
    return { p with attentionSignals := p.attentionSignals ++ [← attentionSignal] }
  | some .for =>
    let _ ← advance
    return { p with personaVariants := p.personaVariants ++ [← personaVariant] }
  | _ => passOver p

/-! ## Surfaces -/

def surfaceAccessStatement (a : SurfaceAccess) : Parser SurfaceAccess := do
  match ← keyword? with
  | some .requireAuth => return { a with requireAuth := ← keyed truth }
  | some .allowPersonas => return { a with allowPersonas := ← keyed names }
  | some .denyPersonas => return { a with denyPersonas := ← keyed names }
  | _ => passOver a

/-- The surface with one action more, which no other action may have the name of. -/
def addAction (s : Surface) (a : SurfaceAction) : Parser Surface := do
  if s.actions.any (·.name == a.name) then fail (.duplicateAction a.name s.name)
  else return { s with actions := s.actions ++ [a] }

def surfaceStatement (s : Surface) : Parser Surface := do
  match ← keyword? with
  | some .uses =>
    let _ ← advance
    let _ ← expectKeyword .entity
    return { s with entity := some (← closing name) }
  | some .mode =>
    return { s with mode := ← keyed (choiceOf "surface mode" SurfaceMode.all SurfaceMode.spelling) }
  | some .section =>
    let _ ← advance
    return { s with sections := s.sections ++ [← surfaceSection] }
  | some .action =>
    let _ ← advance
    addAction s (← surfaceAction)
  | some .ux =>
    let _ ← advance
    return { s with presentation := some (← block presentationStatement {}) }
  | some .access =>
    let _ ← advance
    return { s with access := some (← block surfaceAccessStatement {}) }
  | _ => passOver s

/-- A surface. Without a mode it is a custom one. -/
def surface : Parser Surface := do
  let location ← here
  let _ ← expectKeyword .surface
  let (n, title) ← header
  block surfaceStatement { location, name := n, title }

end Blueprint.Parser
