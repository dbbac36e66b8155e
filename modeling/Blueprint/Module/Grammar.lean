import Blueprint.Api.Grammar
import Blueprint.Approval.Grammar
import Blueprint.Experience.Grammar
import Blueprint.Flow.Grammar
import Blueprint.Integration.Grammar
import Blueprint.Ledger.Grammar
import Blueprint.Module.Basic
import Blueprint.Persona.Grammar
import Blueprint.Process.Grammar
import Blueprint.Service.Grammar
import Blueprint.Stream.Grammar
import Blueprint.Test.Grammar
import Blueprint.Token.Lexer
import Blueprint.View.Grammar
import Blueprint.Workspace.Grammar

/-!
# Grammar of modules

```text
module  = ["module" path] statement*
statement  = "use" path ["as" name] | app | declaration
```

Modules are used before anything is declared. `parseModule` reads a text, and `readModule` tokens.
-/

namespace Blueprint

/-- The keywords that open a declaration, in the order in which they are listed. -/
def Keyword.constructs : List Keyword :=
  [.entity, .archetype, .enum, .surface, .workspace, .experience, .service, .foreignModel,
   .integration, .test, .flow, .persona, .scenario, .story, .llmModel, .llmConfig, .llmIntent,
   .ledger, .transaction, .process, .schedule, .stream, .policies, .tenancy, .interfaces,
   .dataProducts, .approval, .sla, .webhook, .view]

namespace Parser

/-! ## The application -/

/-- `key ":" token`, a setting that is kept as it is written. -/
def extension (extensions : Table) : Parser Table := do
  let key ← advance
  let _ ← advance
  let value ← advance
  if value.kind.endsStatement then failAt value (.missingValue key.text)
  else
    endStatement
    return extensions.insert key.text value.text

def appStatement (c : AppConfig) : Parser AppConfig := do
  match ← keyword? with
  | some .description => return { c with description := some (← keyed string) }
  | some .multiTenant => return { c with multiTenant := ← keyed truth }
  | some .auditTrail => return { c with auditTrail := ← keyed truth }
  | some .securityProfile =>
    let profile ←
      keyed (choiceOf "security profile" SecurityProfile.all SecurityProfile.spelling)
    return { c with securityProfile := some profile }
  | _ =>
    if (← isAtWord) && (← peekIs 1 .colon) then
      return { c with extensions := ← extension c.extensions }
    else passOver c

/-- `"app" name ["Title"]`, with or without a block of settings. -/
def app : Parser App := do
  let location ← here
  let _ ← expectKeyword .app
  let (n, title) ← header
  return { location, name := n, title, config := ← blockOrEnd appStatement {} }

/-! ## Declarations -/

/-- What a file has declared so far. -/
structure FileDraft where
  uses : List String := []
  aliases : Table := []
  app : Option App := none
  named : List Declaration := []
  llmConfig : Option LlmConfig := none
  policies : Option Policies := none
  tenancy : Option Tenancy := none
  /-- Whether anything has been declared. -/
  started : Bool := false

namespace FileDraft

def declare (d : FileDraft) (k : DeclKind) (body : k.Body) : FileDraft :=
  { d with named := d.named ++ [⟨k, body⟩] }

def declareAll (d : FileDraft) (k : DeclKind) (bodies : List k.Body) : FileDraft :=
  { d with named := d.named ++ bodies.map fun body => ⟨k, body⟩ }

def declarations (d : FileDraft) : Declarations :=
  { Declarations.ofList d.named with
    llmConfig := d.llmConfig, policies := d.policies, tenancy := d.tenancy }

end FileDraft

/-- A declaration that was not made before. -/
def onlyOnce {α : Type} (what : String) (first : Option Location) (declaration : Parser α) :
    Parser α := do
  match first with
  | some location => fail (.alreadyDeclared what location)
  | none => declaration

/-- The declaration that a keyword opens, added to the others. -/
def construct? (d : FileDraft) : Keyword → Option (Parser FileDraft)
  | .entity => some (d.declare .entity <$> entity)
  | .archetype => some (d.declare .archetype <$> archetype)
  | .enum => some (d.declare .enum <$> enumDecl)
  | .surface => some (d.declare .surface <$> surface)
  | .workspace => some (d.declare .workspace <$> workspace)
  | .experience => some (d.declare .experience <$> experience)
  | .service => some (d.declare .service <$> service)
  | .foreignModel => some (d.declare .foreignModel <$> foreignModel)
  | .integration => some (d.declare .integration <$> integration)
  | .test => some (d.declare .test <$> testCase)
  | .flow => some (d.declare .flow <$> flow)
  | .persona => some (d.declare .persona <$> persona)
  | .scenario => some (d.declare .scenario <$> scenario)
  | .story => some (d.declare .story <$> story)
  | .llmModel => some (d.declare .llmModel <$> llmModel)
  | .llmConfig => some do
    let config ← onlyOnce "llm_config" (d.llmConfig.map (·.location)) llmConfig
    return { d with llmConfig := some config }
  | .llmIntent => some (d.declare .llmIntent <$> llmIntent)
  | .ledger => some (d.declare .ledger <$> ledger)
  | .transaction => some (d.declare .transaction <$> transaction)
  | .process => some (d.declare .process <$> process)
  | .schedule => some (d.declare .schedule <$> schedule)
  | .stream => some (d.declare .stream <$> stream)
  | .policies => some do
    let declared ← onlyOnce "policies" (d.policies.map (·.location)) policies
    return { d with policies := some declared }
  | .tenancy => some do
    let declared ← onlyOnce "tenancy" (d.tenancy.map (·.location)) tenancy
    return { d with tenancy := some declared }
  | .interfaces => some (d.declareAll .api <$> interfaces)
  | .dataProducts => some (d.declareAll .dataProduct <$> dataProducts)
  | .approval => some (d.declare .approval <$> approval)
  | .sla => some (d.declare .sla <$> sla)
  | .webhook => some (d.declare .webhook <$> webhook)
  | .view => some (d.declare .view <$> view)
  | _ => none

/-! ## Files -/

/-- `"use" path ["as" name]`, before anything is declared. -/
def useStatement (d : FileDraft) : Parser FileDraft := do
  if d.started then fail .lateUse
  else
    let _ ← advance
    let target ← modulePath
    let aliases ←
      if ← acceptKeyword .as then pure (d.aliases.insert (← name) target) else pure d.aliases
    endStatement
    let uses := if d.uses.contains target then d.uses else d.uses ++ [target]
    return { d with uses, aliases }

/-- The application or another declaration, opened by the keyword. -/
def declarationStatement (d : FileDraft) (k : Keyword) : Parser FileDraft := do
  if k = .app then
    let declared ← onlyOnce "app" (d.app.map (·.location)) app
    return { d with app := some declared, started := true }
  else match construct? d k with
    | some construct => return { ← construct with started := true }
    | none => unexpected "a top-level declaration"

/-- One statement of a file, if one comes next. -/
def fileStatement? (d : FileDraft) : Parser (Option FileDraft) := do
  skipNewlines
  match (← current).kind with
  | .endOfFile => return none
  | .keyword .module => fail .lateModule
  | .keyword .use => return some (← useStatement d)
  | .keyword k => return some (← declarationStatement d k)
  | .indent => fail .indentedDeclaration
  | _ => unexpected "a top-level declaration"

/-- `["module" path]`. -/
def moduleName? : Parser (Option String) := do
  skipNewlines
  if ← acceptKeyword .module then
    let path ← modulePath
    endStatement
    return some path
  else return none

def module : Parser Module := do
  let declared ← moduleName?
  withReader ({ · with inModule := declared }) do
    let d ← iterate fileStatement? {}
    let file := (← read).file
    return {
      name := declared.getD (Module.defaultName file), file, uses := d.uses, aliases := d.aliases,
      app := d.app, declarations := d.declarations }

end Parser

/-- The module that the tokens of a file declare. -/
def readModule (file : String) (tokens : List Token) : Except SyntaxError Module :=
  Parser.module.runOn file tokens

/-- The module that a text declares. An error quotes its line. -/
def parseModule (file text : String) : Except SyntaxError Module :=
  (tokenize file text >>= readModule file).mapError (·.quoting text)

end Blueprint
