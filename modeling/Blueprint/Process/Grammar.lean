import Blueprint.Field.Grammar
import Blueprint.Llm.Grammar
import Blueprint.Process.Basic

/-!
# Grammar of processes and schedules
-/

namespace Blueprint.Parser

/-! ## Steps -/

/-- `name "->" next`. -/
def taskOutcome : Parser TaskOutcome := do
  let n ← name
  let _ ← expect .arrow
  return ⟨n, ← closing name⟩

/-- The directives of a task as far as they have been read. -/
structure HumanTaskDraft where
  surface : Option String := none
  assigneeRole : Option String := none
  outcomes : List TaskOutcome := []

def humanTaskStatement (d : HumanTaskDraft) : Parser HumanTaskDraft := do
  match ← keyword? with
  | some .surface => return { d with surface := some (← keyed name) }
  | some .assigneeRole => return { d with assigneeRole := some (← keyed name) }
  | some .outcomes =>
    let _ ← advance
    return { d with outcomes := ← block (fun l => do return l ++ [← taskOutcome]) d.outcomes }
  | _ => passOver d

def humanTask : Parser HumanTask := do
  let location ← here
  let d ← block humanTaskStatement {}
  match d.surface with
  | some s => return { surface := s, assigneeRole := d.assigneeRole, outcomes := d.outcomes }
  | none => failIn location (.missingIn "human_task" "surface")

/-- The directives of a step as far as they have been read. -/
structure ProcessStepDraft where
  task : Option StepTask := none
  options : StepOptions := {}

def stepOption (o : StepOptions) : Parser StepOptions := do
  match ← keyword? with
  | some .condition => return { o with condition := some (← keyed condition) }
  | some .timeout => return { o with timeout := some (← keyed duration) }
  | some .retry =>
    let _ ← advance
    return { o with retry := some (← retryPolicy) }
  | some .onSuccess => return { o with onSuccess := some (← keyed name) }
  | some .onFailure => return { o with onFailure := some (← keyed name) }
  | some .onTimeout => return { o with onTimeout := some (← keyed name) }
  | _ => passOver o

def processStepStatement (d : ProcessStepDraft) : Parser ProcessStepDraft := do
  match ← keyword? with
  | some .service => return { d with task := some (.service (← keyed name)) }
  | some .waitFor => return { d with task := some (.waitFor (← keyed name)) }
  | some .subprocess => return { d with task := some (.subprocess (← keyed name)) }
  | some .humanTask =>
    let _ ← advance
    return { d with task := some (.humanTask (← humanTask)) }
  | _ => return { d with options := ← stepOption d.options }

def singleStep : Parser ProcessStep := do
  let location ← here
  let n ← name
  let d ← block processStepStatement {}
  let task ← required "step" n "service', 'wait_for', 'human_task' or 'subprocess" location d.task
  return .single n task d.options

/-- The name of a parallel step and a block with two steps or more. -/
def parallelStep (member : Parser (Option ProcessStep)) : Parser ProcessStep := do
  let location ← here
  let n ← name
  let branches ← block (fun l => do
    match ← member with
    | some s => return l ++ [s]
    | none => passOver l) []
  if branches.length < 2 then failIn location (.tooFewBranches n)
  else return .parallel n branches

/-- A step, if one comes next. -/
def step? : Parser (Option ProcessStep) :=
  nested fun member => do
    if ← isAtUnkeyed .step then
      let _ ← advance
      return some (← singleStep)
    else if ← isAtUnkeyed .parallel then
      let _ ← advance
      return some (← parallelStep member)
    else return none

/-! ## Processes -/

/-- `"status" [from] "->" to`, or one of the other events. -/
def entityEvent : Parser EntityEvent := do
  if ← acceptKeyword .status then
    let origin ← if ← isAt .arrow then pure none else some <$> name
    let _ ← expect .arrow
    return .statusChanged origin (← name)
  else if ← acceptText "created" then return .created
  else if ← acceptText "updated" then return .updated
  else if ← acceptText "deleted" then return .deleted
  else unexpected "'created', 'updated', 'deleted' or 'status'"

/-- `"entity" name event`, `"signal" name` or `"manual"`. -/
def processTrigger : Parser ProcessTrigger := do
  if ← acceptKeyword .entity then
    let observed ← name
    return .entity observed (← entityEvent)
  else if ← acceptText "signal" then return .signal (← name)
  else if ← acceptKeyword .manual then return .manual
  else unexpected "'entity', 'signal' or 'manual'"

/-- `name ":" service`. -/
def compensation : Parser Compensation := do
  return ⟨← name, ← directive name⟩

def overlapPolicy : Parser OverlapPolicy :=
  choiceOf "overlap policy" OverlapPolicy.all OverlapPolicy.spelling

def processDirective (p : Process) : Parser Process := do
  match ← keyword? with
  | some .implements => return { p with stories := ← keyed names }
  | some .trigger => return { p with trigger := ← keyed processTrigger }
  | some .input =>
    let _ ← advance
    return { p with inputs := ← fieldBlock }
  | some .output =>
    let _ ← advance
    return { p with outputs := ← fieldBlock }
  | some .compensations =>
    let _ ← advance
    return { p with
      compensations := ← block (fun l => do return l ++ [← compensation]) p.compensations }
  | some .timeout => return { p with timeout := some (← keyed duration) }
  | some .overlap => return { p with overlap := ← keyed overlapPolicy }
  | _ => passOver p

def processStatement (p : Process) : Parser Process := do
  match ← step? with
  | some s => return { p with steps := p.steps ++ [s] }
  | none => processDirective p

/-- A process, with at least one step and no two steps of one name. -/
def process : Parser Process := do
  let location ← here
  let _ ← expectKeyword .process
  let (n, title) ← header
  let p ← block processStatement { location, name := n, title }
  if p.steps.isEmpty then failIn location (.missing "process" n "step")
  else match p.repeatedStep? with
    | some s => failIn location (.repeatedStep "process" n s)
    | none => return p

/-! ## Schedules -/

/-- The directives of a schedule as far as they have been read. -/
structure ScheduleDraft where
  timing : Option ScheduleTiming := none
  timezone : Option String := none
  catchUp : Bool := false
  overlap : OverlapPolicy := .skip
  steps : List ProcessStep := []

def scheduleDirective (d : ScheduleDraft) : Parser ScheduleDraft := do
  match ← keyword? with
  | some .cron => return { d with timing := some (.cron (← keyed string)) }
  | some .interval => return { d with timing := some (.interval (← keyed duration)) }
  | some .timezone => return { d with timezone := some (← keyed string) }
  | some .catchUp => return { d with catchUp := ← keyed truth }
  | some .overlap => return { d with overlap := ← keyed overlapPolicy }
  | _ => passOver d

def scheduleStatement (d : ScheduleDraft) : Parser ScheduleDraft := do
  match ← step? with
  | some s => return { d with steps := d.steps ++ [s] }
  | none => scheduleDirective d

/-- A schedule, with a timing and at least one step. -/
def schedule : Parser Schedule := do
  let location ← here
  let _ ← expectKeyword .schedule
  let (n, title) ← header
  let d ← block scheduleStatement {}
  let timing ← required "schedule" n "cron' or 'interval" location d.timing
  if d.steps.isEmpty then failIn location (.missing "schedule" n "step")
  else return {
    location, name := n, title, timing, timezone := d.timezone, catchUp := d.catchUp,
    overlap := d.overlap, steps := d.steps }

end Blueprint.Parser
