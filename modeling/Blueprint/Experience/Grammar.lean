import Blueprint.Experience.Basic
import Blueprint.Parser.Block

/-!
# Grammar of experiences
-/

namespace Blueprint.Parser

/-- A step as far as it has been read. -/
structure StepDraft where
  step : ExperienceStep
  /-- The kind that the step is said to have. -/
  stated : Option StepKind := none
  /-- The kind of the first target that the step has. -/
  inferred : Option StepKind := none

namespace StepDraft

/-- The draft with a target of the given kind. -/
def targeting (d : StepDraft) (kind : StepKind) (step : ExperienceStep) : StepDraft :=
  { d with step, inferred := d.inferred.or (some kind) }

/-- The step, with the kind it is said to have or that of its target. -/
def finish (d : StepDraft) : ExperienceStep :=
  { d.step with kind := (d.stated.or d.inferred).getD .surface }

end StepDraft

/-- `event "->" "step" name`. -/
def stepTransition : Parser StepTransition := do
  let event ← word
  let _ ← expect .arrow
  let _ ← expectKeyword .step
  return ⟨event, ← name⟩

def stepStatement (d : StepDraft) : Parser StepDraft := do
  match ← keyword? with
  | some .kind =>
    let kind ← keyed (choiceOf "step kind" StepKind.all StepKind.spelling)
    return { d with stated := some kind }
  | some .surface =>
    let _ ← advance
    let target ← closing name
    return d.targeting .surface { d.step with surface := some target }
  | some .process =>
    let _ ← advance
    let target ← closing name
    return d.targeting .process { d.step with process := some target }
  | some .integration =>
    let _ ← advance
    let integration ← name
    let action ← if ← acceptKeyword .action then some <$> name else pure d.step.action
    endStatement
    return d.targeting .integration { d.step with integration := some integration, action }
  | some .on =>
    let _ ← advance
    let transition ← closing stepTransition
    return { d with step := { d.step with transitions := d.step.transitions ++ [transition] } }
  | _ => passOver d

/-- One more step, which no other step may have the name of. -/
def experienceStep (steps : List ExperienceStep) : Parser (List ExperienceStep) := do
  let t ← current
  let d ← block stepStatement { step := { name := ← name } }
  let s := d.finish
  if steps.any (·.name == s.name) then failAt t (.duplicate "step" s.name)
  else return steps ++ [s]

/-- The start and the steps of an experience as far as they have been read. -/
structure ExperienceDraft where
  startStep : Option String := none
  steps : List ExperienceStep := []

def experienceStatement (d : ExperienceDraft) : Parser ExperienceDraft := do
  match ← keyword? with
  | some .start =>
    let _ ← advance
    let _ ← expectKeyword .at
    let _ ← expectKeyword .step
    return { d with startStep := some (← closing name) }
  | some .step =>
    let _ ← advance
    return { d with steps := ← experienceStep d.steps }
  | _ => passOver d

def experience : Parser Experience := do
  let location ← here
  let _ ← expectKeyword .experience
  let (n, title) ← header
  let d ← block experienceStatement {}
  let startStep ← required "experience" n "start at step" location d.startStep
  return { location, name := n, title, startStep, steps := d.steps }

end Blueprint.Parser
