import Blueprint.Expr.Grammar
import Blueprint.Parser.Block
import Blueprint.Test.Basic

/-!
# Grammar of tests
-/

namespace Blueprint.Parser

def testOperation : Parser TestOperation :=
  choiceOf "test operation" TestOperation.all TestOperation.spelling

/-- `key "=" value`. -/
def assignment : Parser Assignment := do
  let key ← name
  let _ ← expect .equal
  return ⟨key, ← conditionValue⟩

/-- `name ":" operation entity ["with" assignment ("," assignment)*]`. -/
def setupStep : Parser SetupStep := do
  let binding ← name
  let _ ← expect .colon
  let operation ← testOperation
  let target ← name
  let data ← if ← acceptKeyword .with then separated .comma assignment else pure []
  closing (return { binding, operation, entity := target, data })

/-- `operation entity [target]`. -/
def testAction : Parser TestAction := do
  let operation ← testOperation
  let acted ← name
  if ← isAtWord then return { operation, entity := acted, target := some (← name) }
  else return { operation, entity := acted }

/-- `key ":" value`. -/
def dataLine : Parser Assignment := do
  return ⟨← name, ← directive conditionValue⟩

/-- `field (":" | op) value`. -/
def expectation : Parser Expectation := do
  let observed ← name
  let op ← if ← accept .colon then pure .eq else comparisonOp
  return ⟨observed, op, ← closing conditionValue⟩

/-- The parts of a test as far as they have been read. -/
structure TestDraft where
  setup : List SetupStep := []
  action : Option TestAction := none
  data : List Assignment := []
  expected : List Expectation := []

def testStatement (d : TestDraft) : Parser TestDraft := do
  match ← keyword? with
  | some .setup =>
    let _ ← advance
    return { d with setup := ← block (fun l => do return l ++ [← setupStep]) d.setup }
  | some .action => return { d with action := some (← keyed testAction) }
  | some .data =>
    let _ ← advance
    return { d with data := ← block (fun l => do return l ++ [← dataLine]) d.data }
  | some .expect =>
    let _ ← advance
    return { d with expected := ← block (fun l => do return l ++ [← expectation]) d.expected }
  | _ => passOver d

def testCase : Parser TestCase := do
  let location ← here
  let _ ← expectKeyword .test
  let (n, title) ← header
  let d ← block testStatement {}
  let action ← required "test" n "action" location d.action
  return { location, name := n, title, setup := d.setup, action, data := d.data,
           expected := d.expected }

end Blueprint.Parser
