import Blueprint.Approval.Basic
import Blueprint.Expr.Grammar
import Blueprint.Parser.Block

/-!
# Grammar of approvals and service levels
-/

namespace Blueprint.Parser

/-! ## Approvals -/

/-- `decision "->" state`. -/
def approvalOutcome : Parser ApprovalOutcome := do
  let decision ← name
  let _ ← expect .arrow
  return ⟨decision, ← closing name⟩

/-- `":" count`, which is not zero. -/
def quorum : Parser Nat := do
  let t ← current
  let n ← directive count
  if n = 0 then failAt t .noQuorum else return n

/-- The directives of an approval as far as they have been read. -/
structure ApprovalDraft where
  entity : Option String := none
  trigger : Option Condition := none
  approverRole : Option String := none
  quorum : Nat := 1
  timeout : Option Duration := none
  onTimeout : Option TimeoutAction := none
  escalationRole : Option String := none
  outcomes : List ApprovalOutcome := []

def approvalStatement (d : ApprovalDraft) : Parser ApprovalDraft := do
  match ← keyword? with
  | some .entity =>
    if ← peekIs 1 .colon then return { d with entity := some (← keyed name) } else passOver d
  | some .trigger => return { d with trigger := some (← keyed condition) }
  | some .approverRole => return { d with approverRole := some (← keyed name) }
  | some .quorum =>
    let _ ← advance
    return { d with quorum := ← quorum }
  | some .timeout => return { d with timeout := some (← keyed duration) }
  | some .onTimeout =>
    let action ← keyed (choiceOf "timeout action" TimeoutAction.all TimeoutAction.spelling)
    return { d with onTimeout := some action }
  | some .escalationRole => return { d with escalationRole := some (← keyed name) }
  | some .outcomes =>
    let _ ← advance
    return { d with outcomes := ← block (fun l => do return l ++ [← approvalOutcome]) d.outcomes }
  | _ => passOver d

def approval : Parser Approval := do
  let location ← here
  let _ ← expectKeyword .approval
  let (n, title) ← header
  let d ← block approvalStatement {}
  let target ← required "approval" n "entity" location d.entity
  let approverRole ← required "approval" n "approver_role" location d.approverRole
  return {
    location, name := n, title, entity := target, trigger := d.trigger, approverRole,
    quorum := d.quorum, timeout := d.timeout, onTimeout := d.onTimeout,
    escalationRole := d.escalationRole, outcomes := d.outcomes }

/-! ## Service levels -/

/-- One more tier, `name ":" duration`, which no other tier may have the name of. -/
def slaTier (tiers : List SlaTier) : Parser (List SlaTier) := do
  let t ← current
  let n ← name
  if tiers.any (·.name == n) then failAt t (.duplicate "sla tier" n)
  else return tiers ++ [⟨n, ← directive duration⟩]

/-- `field "=" literal`. -/
def fieldAssignment : Parser FieldAssignment := do
  let assigned ← name
  let _ ← expect .equal
  return ⟨assigned, ← literal⟩

def breachStatement (a : BreachAction) : Parser BreachAction := do
  match ← keyword? with
  | some .notify => return { a with notify := some (← keyed stringOrName) }
  | some .set => return { a with assignments := a.assignments ++ [← keyed fieldAssignment] }
  | _ => passOver a

/-- The directives of a service level as far as they have been read. -/
structure SlaDraft where
  entity : Option String := none
  startsWhen : Option Condition := none
  pausesWhen : Option Condition := none
  completesWhen : Option Condition := none
  tiers : List SlaTier := []
  businessHours : Option String := none
  onBreach : Option BreachAction := none

def slaStatement (d : SlaDraft) : Parser SlaDraft := do
  match ← keyword? with
  | some .entity =>
    if ← peekIs 1 .colon then return { d with entity := some (← keyed name) } else passOver d
  | some .startsWhen => return { d with startsWhen := some (← keyed condition) }
  | some .pausesWhen => return { d with pausesWhen := some (← keyed condition) }
  | some .completesWhen => return { d with completesWhen := some (← keyed condition) }
  | some .tiers =>
    let _ ← advance
    return { d with tiers := ← block slaTier d.tiers }
  | some .businessHours => return { d with businessHours := some (← keyed stringOrName) }
  | some .onBreach =>
    let _ ← advance
    return { d with onBreach := some (← block breachStatement {}) }
  | _ => passOver d

/-- A service level, with at least one tier. -/
def sla : Parser Sla := do
  let location ← here
  let _ ← expectKeyword .sla
  let (n, title) ← header
  let d ← block slaStatement {}
  let target ← required "sla" n "entity" location d.entity
  let startsWhen ← required "sla" n "starts_when" location d.startsWhen
  let completesWhen ← required "sla" n "completes_when" location d.completesWhen
  if d.tiers.isEmpty then failIn location (.missing "sla" n "tiers")
  else return {
    location, name := n, title, entity := target, startsWhen, pausesWhen := d.pausesWhen,
    completesWhen, tiers := d.tiers, businessHours := d.businessHours, onBreach := d.onBreach }

end Blueprint.Parser
