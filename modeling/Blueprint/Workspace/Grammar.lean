import Blueprint.Surface.Grammar
import Blueprint.Workspace.Basic

/-!
# Grammar of workspaces

In the body of a workspace every `name:` that opens a block is a region, also one that is named like
a directive.
-/

namespace Blueprint.Parser

/-- `"public"`, `"authenticated"` or `"persona" "(" name ("," name)* ")"`. -/
def workspaceAccess : Parser WorkspaceAccess := do
  if ← acceptText "public" then return .everyone
  else if ← acceptText "authenticated" then return .authenticated
  else if ← acceptKeyword .persona then
    let _ ← expect .openParen
    let personas ← separated .comma name
    let _ ← expect .closeParen
    return .personas personas
  else unexpected "'public', 'authenticated' or 'persona(...)'"

/-- `name ":" expression`. -/
def regionAggregate : Parser RegionAggregate := do
  return ⟨← name, ← directive computed⟩

def regionStatement (r : Region) : Parser Region := do
  match ← keyword? with
  | some .source => return { r with source := some (← keyed name) }
  | some .filter => return { r with filter := some (← keyed condition) }
  | some .sort => return { r with sort := ← keyed sortKeys }
  | some .limit => return { r with limit := some (← keyed count) }
  | some .display =>
    return { r with
      display := ← keyed (choiceOf "display mode" DisplayMode.all DisplayMode.spelling) }
  | some .action => return { r with action := some (← keyed name) }
  | some .empty => return { r with emptyMessage := some (← keyed string) }
  | some .groupBy => return { r with groupBy := some (← keyed name) }
  | some .aggregate =>
    let _ ← advance
    let aggregates ← block (fun l => do return l ++ [← regionAggregate]) r.aggregates
    return { r with aggregates }
  | _ => passOver r

/-- One more region, which no other region may have the name of. -/
def region (regions : List Region) : Parser (List Region) := do
  let t ← current
  let r ← block regionStatement { name := ← name }
  if regions.any (·.name == r.name) then failAt t (.duplicate "region" r.name)
  else return regions ++ [r]

/-- Whether `word ":"` at the end of a line comes next. -/
def isAtRegion : Parser Bool := do
  return (← isAtWord) && (← peekIs 1 .colon) && (← peekIs 2 .newline)

def workspaceStatement (w : Workspace) : Parser Workspace := do
  let regionOrOther : Parser Workspace := do
    if ← isAtRegion then return { w with regions := ← region w.regions } else passOver w
  let opensLine ← peekIs 2 .newline
  match ← keyword? with
  | some .purpose =>
    if ← peekIs 2 .string then return { w with purpose := some (← keyed string) }
    else regionOrOther
  | some .stage =>
    if opensLine then regionOrOther else return { w with stage := some (← keyed stringOrName) }
  | some .access =>
    if opensLine then regionOrOther else return { w with access := ← keyed workspaceAccess }
  | _ => regionOrOther

/-- A workspace. Without a rule of access it is open to everyone who is signed in. -/
def workspace : Parser Workspace := do
  let location ← here
  let _ ← expectKeyword .workspace
  let (n, title) ← header
  block workspaceStatement { location, name := n, title }

end Blueprint.Parser
