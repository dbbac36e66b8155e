import Blueprint.Flow.Basic
import Blueprint.Parser.Block

/-!
# Grammar of flows

```text
step    = "navigate" target | "click" target | "fill" target string | "wait" duration
        | "assert" word target* | "snapshot"
target  = string | number | word ("." word)*
```

The verb of a step counts by its text alone.
-/

namespace Blueprint.Parser

def flowTarget : Parser String := do
  let t ← current
  match t.kind with
  | .string | .number => return (← advance).text
  | _ => if t.isWord then modulePath else unexpected "target"

/-- Targets up to the end of the statement. -/
def flowTargets : Parser (List String) :=
  iterate (fun l => do
    match (← current).kind with
    | .newline | .dedent | .endOfFile => return none
    | _ => return some (l ++ [← flowTarget])) []

/-- A step without the end of its line. -/
def flowAction : Parser FlowStep := do
  match (← current).text with
  | "navigate" =>
    let _ ← advance
    return .navigate (← flowTarget)
  | "click" =>
    let _ ← advance
    return .click (← flowTarget)
  | "fill" =>
    let _ ← advance
    let filled ← flowTarget
    return .fill filled (← string)
  | "wait" =>
    let _ ← advance
    return .wait (← duration)
  | "assert" =>
    let _ ← advance
    let check ← word
    return .assert check (← flowTargets)
  | "snapshot" =>
    let _ ← advance
    return .snapshot
  | _ => unexpected "flow step (navigate, click, fill, wait, assert, snapshot)"

def flowStep : Parser FlowStep := closing flowAction

def preconditionStatement (p : FlowPreconditions) : Parser FlowPreconditions := do
  if ← acceptText "user_role" then return { p with userRole := some (← directive name) }
  else if ← acceptText "fixtures" then return { p with fixtures := ← directive names }
  else if ← acceptText "authenticated" then return { p with authenticated := ← directive truth }
  else if ← acceptText "view" then return { p with view := some (← directive stringOrName) }
  else passOver p

def flowStatement (f : Flow) : Parser Flow := do
  match ← keyword? with
  | some .priority =>
    let priority ← keyed (choiceOf "flow priority" FlowPriority.all FlowPriority.spelling)
    return { f with priority }
  | some .tags => return { f with tags := ← keyed names }
  | some .preconditions =>
    let _ ← advance
    return { f with preconditions := ← block preconditionStatement {} }
  | some .steps =>
    let _ ← advance
    return { f with steps := ← block (fun l => do return l ++ [← flowStep]) f.steps }
  | _ => passOver f

def flow : Parser Flow := do
  let location ← here
  let _ ← expectKeyword .flow
  let (n, title) ← header
  block flowStatement { location, name := n, title }

end Blueprint.Parser
