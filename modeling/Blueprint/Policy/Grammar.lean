import Blueprint.Parser.Block
import Blueprint.Policy.Basic

/-!
# Grammar of policies and tenancy
-/

namespace Blueprint.Parser

def dataClass : Parser DataClass :=
  choiceOf "classification" DataClass.all DataClass.spelling

/-- `entity "." field "as" class`. -/
def classification : Parser Classification := do
  let classified ← name
  let _ ← expect .dot
  let part ← name
  let _ ← expectKeyword .as
  return ⟨classified, part, ← dataClass⟩

/-- `entity ":" mode`. -/
def erasure : Parser Erasure := do
  return ⟨← name, ← directive (choiceOf "erasure mode" ErasureMode.all ErasureMode.spelling)⟩

def policiesStatement (p : Policies) : Parser Policies := do
  match ← keyword? with
  | some .classify =>
    let _ ← advance
    return { p with classifications := p.classifications ++ [← closing classification] }
  | some .erasure =>
    let _ ← advance
    return { p with erasures := p.erasures ++ [← erasure] }
  | some .defaultRetention => return { p with defaultRetention := some (← keyed duration) }
  | some .auditAccess => return { p with auditAccess := ← keyed truth }
  | _ => passOver p

def policies : Parser Policies := do
  let location ← here
  let _ ← expectKeyword .policies
  block policiesStatement { location }

/-- The directives of a tenancy as far as they have been read. -/
structure TenancyDraft where
  mode : Option TenancyMode := none
  isolation : IsolationLevel := .strict
  provisioning : Provisioning := .auto

def tenancyStatement (d : TenancyDraft) : Parser TenancyDraft := do
  match ← keyword? with
  | some .mode =>
    let mode ← keyed (choiceOf "tenancy mode" TenancyMode.all TenancyMode.spelling)
    return { d with mode := some mode }
  | some .isolation =>
    let isolation ← keyed (choiceOf "isolation level" IsolationLevel.all IsolationLevel.spelling)
    return { d with isolation }
  | some .provisioning =>
    let provisioning ← keyed (choiceOf "provisioning" Provisioning.all Provisioning.spelling)
    return { d with provisioning }
  | _ => passOver d

def tenancy : Parser Tenancy := do
  let location ← here
  let _ ← expectKeyword .tenancy
  let d ← block tenancyStatement {}
  match d.mode with
  | some mode => return { location, mode, isolation := d.isolation, provisioning := d.provisioning }
  | none => failIn location (.missingIn "tenancy" "mode")

end Blueprint.Parser
