import Blueprint.Entity.Basic
import Blueprint.Field.Grammar

/-!
# Grammar of entities

The bodies of `entity`, `archetype` and `enum`. A member is a field, `computed name: expression` or
`invariant: invariant` with an optional `message:` and `code:` underneath.
-/

namespace Blueprint.Parser

/-! ## Members -/

/-- A field that no other member has the name of. -/
def memberField (m : Members) : Parser Members := do
  let t ← current
  let f ← field
  if m.declares f.name then failAt t (.duplicate "field" f.name)
  else return { m with fields := m.fields ++ [f] }

/-- `name ":" expression`, behind the keyword. -/
def memberComputed (m : Members) : Parser Members := do
  let t ← current
  let n ← name
  if m.declares n then failAt t (.duplicate "field" n)
  else
    let expr ← directive computed
    return { m with computedFields := m.computedFields ++ [⟨n, expr⟩] }

/-- An invariant with what is reported when it is broken. -/
def invariantRule : Parser InvariantRule := do
  let expr ← invariant
  let _ ← expect .newline
  underneath (fun r => do
    match ← keyword? with
    | some .message => return { r with message := some (← keyed string) }
    | some .code => return { r with code := some (← keyed string) }
    | _ => passOver r) { expr }

/-- One more member, if one comes next. -/
def member? (m : Members) : Parser (Option Members) := do
  if ← isAtField then return some (← memberField m)
  else if ← isAtUnkeyed .computed then
    let _ ← advance
    return some (← memberComputed m)
  else if ← isAtKeyed .invariant then
    let _ ← advance
    let _ ← advance
    return some { m with invariants := m.invariants ++ [← invariantRule] }
  else return none

/-! ## State machines -/

/-- `"auto" "after" duration ["or" "manual"]`. -/
def autoTransition : Parser AutoTransition := do
  let _ ← expectKeyword .auto
  let _ ← expectKeyword .after
  let after ← duration
  if ← acceptKeyword .orOp then
    let _ ← expectKeyword .manual
    return { after, orManual := true }
  else return { after, orManual := false }

/-- One guard that is written on a line with others. -/
def inlineGuard (t : Transition) : Parser Transition := do
  match ← keyword? with
  | some .requires =>
    let _ ← advance
    return { t with guards := t.guards ++ [.requiresField (← name)] }
  | some .role => return { t with guards := t.guards ++ [.role (← roleCheck)] }
  | some .auto => return { t with trigger := .auto, auto := some (← autoTransition) }
  | _ => unexpected "'requires', 'role(...)' or 'auto after'"

/-- `guard ("," guard)*` with the end of its line. -/
def inlineGuards (t : Transition) : Parser Transition :=
  closing (separatedFold .comma inlineGuard t)

/-- The guards with the message of the last one, which has to be a condition. -/
def withMessage? (guards : List TransitionGuard) (message : String) :
    Option (List TransitionGuard) :=
  match guards.getLast? with
  | some (.expression expr _) => some (guards.dropLast ++ [.expression expr (some message)])
  | _ => none

/-- A line of the block under a transition. -/
def guardStatement (t : Transition) : Parser Transition := do
  match ← keyword? with
  | some .guard => return { t with guards := t.guards ++ [.expression (← keyed condition) none] }
  | some .message =>
    match withMessage? t.guards (← keyed string) with
    | some guards => return { t with guards }
    | none => fail .messageWithoutGuard
  | _ => inlineGuards t

def sourceState : Parser String := do
  if ← accept .star then return wildcardState else name

/-- `from "->" to`, with guards on the line or in a block under it. -/
def transition : Parser Transition := do
  let fromState ← sourceState
  let _ ← expect .arrow
  let t : Transition := { fromState, toState := ← name }
  if ← accept .colon then
    if ← accept .newline then
      let _ ← expect .indent
      statements guardStatement t
    else inlineGuards t
  else closing (return t)

def transitions : Parser (List Transition) :=
  block (fun l => do return l ++ [← transition]) []

/-! ## Access -/

def accessOperations : Parser (List AccessOperation) := do
  match (← keyword?).bind AccessOperation.ofKeyword? with
  | some operations =>
    let _ ← advance
    return operations
  | none => unexpected "access operation (read, list, create, update, delete, write)"

/-- `["permit" | "forbid"] operation ":" condition`, with one rule for each operation. -/
def accessRules : Parser (List AccessRule) := do
  let effect : PolicyEffect ←
    if ← acceptKeyword .forbid then pure .forbid
    else
      let _ ← acceptKeyword .permit
      pure .permit
  let operations ← accessOperations
  let c ← directive condition
  return operations.map fun operation => ⟨operation, effect, c⟩

def access : Parser Access := do
  return ⟨← block (fun rules => do return rules ++ (← accessRules)) []⟩

/-! ## Declarations -/

/-- `":" truth`, or the end of the line for true. -/
def flag : Parser Bool := do
  if ← isAt .colon then directive truth else closing (return true)

/-- A directive of an entity. Its transitions are kept apart until its fields are known. -/
def entityDirective (e : Entity) (found : List Transition) : Parser (Entity × List Transition) := do
  let keep (e : Entity) : Parser (Entity × List Transition) := return (e, found)
  let other : Parser (Entity × List Transition) := do
    return ({ e with fields := ← noField e.fields }, found)
  match ← keyword? with
  | some .intent =>
    if ← peekIs 1 .colon then keep { e with intent := some (← keyed string) } else other
  | some .domain =>
    if ← peekIs 1 .colon then keep { e with domain := some (← keyed string) } else other
  | some .patterns => keep { e with patterns := ← keyed names }
  | some .archetype =>
    let kind ← keyed (choiceOf "archetype kind" ArchetypeKind.all ArchetypeKind.spelling)
    keep { e with archetypeKind := some kind }
  | some .extends =>
    let _ ← advance
    let _ ← accept .colon
    keep { e with archetypes := e.archetypes ++ (← closing names) }
  | some .displayField => keep { e with displayField := some (← keyed name) }
  | some .softDelete =>
    let _ ← advance
    keep { e with softDelete := ← flag }
  | some .unique =>
    let _ ← advance
    keep { e with constraints := e.constraints ++ [⟨.unique, ← closing names⟩] }
  | some .index =>
    let _ ← advance
    keep { e with constraints := e.constraints ++ [⟨.index, ← closing names⟩] }
  | some .transitions =>
    let _ ← advance
    return (e, found ++ (← transitions))
  | some .access =>
    let _ ← advance
    let rules := ((e.access.map (·.rules)).getD []) ++ (← access).rules
    keep { e with access := some ⟨rules⟩ }
  | _ => other

/-- A statement of an entity. -/
def entityStatement : Entity × List Transition → Parser (Entity × List Transition)
  | (e, found) => do
    match ← member? e.toMembers with
    | some m => return ({ e with toMembers := m }, found)
    | none => entityDirective e found

def entity : Parser Entity := do
  let location ← here
  let _ ← expectKeyword .entity
  let (n, title) ← header
  let (e, found) ← block entityStatement ({ location, name := n, title }, [])
  return { e with stateMachine := StateMachine.of? e.fields found }

def archetype : Parser Archetype := do
  let location ← here
  let _ ← expectKeyword .archetype
  let n ← name
  let members ← block (fun m => do
    match ← member? m with
    | some next => return next
    | none => return { m with fields := ← noField m.fields }) {}
  return { toMembers := members, location, name := n }

/-- `value ["Label"]`. -/
def enumLine (values : List EnumValue) : Parser (List EnumValue) := do
  let t ← current
  let n ← name
  if values.any (·.name == n) then failAt t (.duplicate "enum value" n)
  else return values ++ [← closing (do return ⟨n, ← string?⟩)]

def enumDecl : Parser EnumDecl := do
  let location ← here
  let _ ← expectKeyword .enum
  let (n, title) ← header
  let values ← block enumLine []
  if values.isEmpty then failIn location (.emptyEnum n)
  else return { location, name := n, title, values }

end Blueprint.Parser
