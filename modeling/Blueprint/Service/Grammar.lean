import Blueprint.Field.Grammar
import Blueprint.Service.Basic

/-!
# Grammar of services

A service with a `kind`, an `input` or an `output` belongs to the domain, and then it needs the
`kind` and cannot have the directives of a third party.
-/

namespace Blueprint.Parser

/-! ## Services -/

/-- `"url" string` or `"inline" string`. -/
def specSource : Parser SpecSource := do
  if ← acceptKeyword .url then return .url (← string)
  else if ← acceptText "inline" then return .inline (← string)
  else unexpected "'url' or 'inline'"

/-- `key "=" value`, if a word and an equals sign come next. -/
def authOption? (options : List (String × String)) :
    Parser (Option (List (String × String))) := do
  if (← isAtWord) && (← peekIs 1 .equal) then
    let key := (← advance).text
    let _ ← advance
    match ← string? with
    | some s => return some (options ++ [(key, s)])
    | none => return some (options ++ [(key, ← word)])
  else return none

/-- `kind (key "=" value)*`. -/
def authProfile : Parser AuthProfile := do
  return ⟨← word, ← iterate authOption? []⟩

/-- The directives of a service as far as they have been read. -/
structure ServiceDraft where
  spec : Option SpecSource := none
  authProfile : Option AuthProfile := none
  owner : Option String := none
  kind : Option DomainServiceKind := none
  inputs : List Field := []
  outputs : List Field := []
  guarantees : List String := []
  stub : Option String := none

namespace ServiceDraft

def isDomain (d : ServiceDraft) : Bool :=
  d.kind.isSome || !d.inputs.isEmpty || !d.outputs.isEmpty

def isExternal (d : ServiceDraft) : Bool := d.spec.isSome || d.authProfile.isSome

end ServiceDraft

def serviceStatement (d : ServiceDraft) : Parser ServiceDraft := do
  match ← keyword? with
  | some .spec => return { d with spec := some (← keyed specSource) }
  | some .authProfile => return { d with authProfile := some (← keyed authProfile) }
  | some .owner => return { d with owner := some (← keyed stringOrName) }
  | some .kind =>
    let kind ← keyed (choiceOf "service kind" DomainServiceKind.all DomainServiceKind.spelling)
    return { d with kind := some kind }
  | some .input =>
    let _ ← advance
    return { d with inputs := ← fieldBlock }
  | some .output =>
    let _ ← advance
    return { d with outputs := ← fieldBlock }
  | some .guarantees => return { d with guarantees := ← keyedStrings }
  | some .stub => return { d with stub := some (← keyed stringOrName) }
  | _ => passOver d

def serviceBody (location : Location) (n : String) (d : ServiceDraft) : Parser ServiceBody := do
  if d.isDomain then
    if d.isExternal then failIn location (.mixedService n)
    else
      let kind ← required "service" n "kind" location d.kind
      return .domain kind d.inputs d.outputs d.guarantees d.stub
  else return .api d.spec d.authProfile d.owner

def service : Parser Service := do
  let location ← here
  let _ ← expectKeyword .service
  let (n, title) ← header
  let d ← block serviceStatement {}
  return { location, name := n, title, body := ← serviceBody location n d }

/-! ## Foreign models -/

def foreignDirective (m : ForeignModel) : Parser ForeignModel := do
  match ← keyword? with
  | some .key => return { m with keyFields := ← keyed names }
  | some .constraint =>
    let _ ← advance
    let c ← closing <|
      choiceOf "foreign model constraint" ForeignConstraint.all ForeignConstraint.spelling
    if m.constraints.contains c then return m
    else return { m with constraints := m.constraints ++ [c] }
  | _ => return { m with fields := ← noField m.fields }

def foreignStatement (m : ForeignModel) : Parser ForeignModel := do
  if ← isAtField then return { m with fields := ← anotherField m.fields }
  else foreignDirective m

/-- `name ["Title"] "from" service ["Title"]` and a block of fields. -/
def foreignModel : Parser ForeignModel := do
  let location ← here
  let _ ← expectKeyword .foreignModel
  let (n, early) ← header
  let _ ← expectKeyword .from
  let origin ← name
  let title ← if early.isSome then pure early else string?
  block foreignStatement { location, name := n, title, service := origin }

end Blueprint.Parser
