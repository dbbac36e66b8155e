import Blueprint.Proofs.BodyLines
import Blueprint.Proofs.WellFormed.Modules

/-!
# Names of steps

A step is known by its name: other steps go on to it, and what the linker reports of it names it.
The steps of a process have names of their own, those inside of parallel steps included; a process
that repeats one is rejected. A schedule is read with the same grammar of steps, but nothing looks
at their names: it has the steps on the lines of its body, whatever they are called.

1. What is reported is the first name that an earlier one equals (`firstRepeated?_eq_some_iff`).
2. A line of a body adds the step that it opens (`steps_of_processStatement`,
   `steps_of_scheduleStatement`).
3. So what is made of a process or of a schedule can be told from the steps on its lines
   (`process_of_spans`, `schedule_of_spans`).
-/

namespace Blueprint

/-! ## The first name that is repeated -/

theorem firstRepeated?_eq_some_iff {seen l : List String} {n : String} :
    firstRepeated? seen l = some n ↔ ∃ before after, l = before ++ n :: after ∧
      (n ∈ before ∨ n ∈ seen) ∧ before.Nodup ∧ ∀ a ∈ before, a ∉ seen := by
  induction l generalizing seen with
  | nil => simp [firstRepeated?]
  | cons a l ih =>
    rw [firstRepeated?]
    split
    · next ha =>
      rw [List.contains_iff_mem] at ha
      constructor
      · rintro ⟨⟩
        exact ⟨[], l, rfl, .inr ha, .nil, List.forall_mem_nil _⟩
      · rintro ⟨before, after, e, -, -, hnot⟩
        cases before with
        | nil =>
          cases e
          rfl
        | cons b before =>
          cases e
          exact absurd ha (hnot a List.mem_cons_self)
    · next ha =>
      rw [List.contains_iff_mem] at ha
      rw [ih]
      constructor
      · rintro ⟨before, after, rfl, hn, hnodup, hnot⟩
        refine ⟨a :: before, after, rfl, ?_, ?_, ?_⟩
        · rcases hn with hn | hn
          · exact .inl (List.mem_cons_of_mem a hn)
          · exact (List.mem_cons.1 hn).imp_left fun e : n = a => e ▸ List.mem_cons_self
        · exact List.nodup_cons.2 ⟨fun h => hnot a h List.mem_cons_self, hnodup⟩
        · exact List.forall_mem_cons.2
            ⟨ha, fun b hb hseen => hnot b hb (List.mem_cons_of_mem a hseen)⟩
      · rintro ⟨before, after, e, hn, hnodup, hnot⟩
        cases before with
        | nil =>
          cases e
          exact absurd (hn.resolve_left List.not_mem_nil) ha
        | cons b before =>
          cases e
          obtain ⟨hfresh, hnodup⟩ := List.nodup_cons.1 hnodup
          refine ⟨before, after, rfl, ?_, hnodup, fun b hb hseen => ?_⟩
          · rcases hn with hn | hn
            · exact (List.mem_cons.1 hn).elim (fun e => .inr (e ▸ List.mem_cons_self)) .inl
            · exact .inr (List.mem_cons_of_mem a hn)
          · rcases List.mem_cons.1 hseen with rfl | hseen
            · exact hfresh hb
            · exact hnot b (List.mem_cons_of_mem a hb) hseen

/-! ## All steps -/

/-- The steps of a schedule, each followed by all steps inside it. -/
def Schedule.allSteps (s : Schedule) : List ProcessStep := ProcessStep.flattenAll s.steps

def Declarations.schedules (d : Declarations) : List Schedule := d.named .schedule

namespace Parser

variable {σ : Type} {scope : Scope} {ts line mid rest : List Token}

/-! ## The step on a line -/

/-- The step that the line opens, if it opens one. -/
def stepOn (scope : Scope) (line : List Token) : List ProcessStep :=
  match step? scope line with
  | .ok (some s, _) => [s]
  | _ => []

/-- A statement that takes a step, if one comes next, and otherwise leaves the steps alone. -/
theorem steps_of_step? (add : ProcessStep → σ) {steps : σ → List ProcessStep}
    {next : Option ProcessStep → Parser σ} {s s' : σ}
    (hsome : ∀ step, next (some step) = pure (add step))
    (hadd : ∀ step, steps (add step) = steps s ++ [step])
    (hnone : Keeps (next none) steps (steps s))
    (h : (step? >>= next) scope line = .ok (s', rest)) :
    steps s' = steps s ++ stepOn scope line := by
  obtain ⟨o, mid, ho, h⟩ := bind_eq_ok_iff.1 h
  unfold stepOn
  rw [ho]
  cases o with
  | some step =>
    rw [hsome] at h
    cases h
    exact hadd step
  | none => exact (hnone.gives h).trans (List.append_nil _).symm

instance {p : Process} : Keeps (processDirective p) (·.steps) p.steps := by
  unfold processDirective
  refine .cases fun k => ?_
  split <;> infer_instance

theorem steps_of_processStatement {p p' : Process}
    (h : processStatement p scope line = .ok (p', rest)) :
    p'.steps = p.steps ++ stepOn scope line := by
  unfold processStatement at h
  refine steps_of_step? (fun s => { p with steps := p.steps ++ [s] }) (fun _ => rfl)
    (fun _ => rfl) ?_ h
  exact inferInstanceAs (Keeps (processDirective p) _ _)

theorem steps_of_scheduleStatement {d d' : ScheduleDraft}
    (h : scheduleStatement d scope line = .ok (d', rest)) :
    d'.steps = d.steps ++ stepOn scope line := by
  unfold scheduleStatement at h
  refine steps_of_step? (fun s => { d with steps := d.steps ++ [s] }) (fun _ => rfl)
    (fun _ => rfl) ?_ h
  exact inferInstanceAs (Keeps (scheduleDirective d) _ _)

/-! ## Processes and schedules -/

/-- The checks of a process behind its body. -/
def checkedProcess (location : Location) (n : String) (p : Process) : Parser Process :=
  if p.steps.isEmpty then failIn location (.missing "process" n "step")
  else match p.repeatedStep? with
    | some s => failIn location (.repeatedStep "process" n s)
    | none => return p

@[reducible] def processBody : Body Process where
  Header := Location × String × Option String
  State := Process
  opening := titled .process
  start | (location, name, title) => { location, name, title }
  statement := processStatement
  finish | (location, n, _), p => checkedProcess location n p

theorem parser_processBody : processBody.parser = process := by
  show (titled .process >>= fun h => block processStatement _ >>= _) = _
  unfold titled process
  simp only [bind_assoc, pure_bind]
  rfl

/-- The checks of a schedule behind its body. -/
def checkedSchedule (location : Location) (n : String) (title : Option String)
    (d : ScheduleDraft) : Parser Schedule := do
  let timing ← required "schedule" n "cron' or 'interval" location d.timing
  if d.steps.isEmpty then failIn location (.missing "schedule" n "step")
  else return {
    location, name := n, title, timing, timezone := d.timezone, catchUp := d.catchUp,
    overlap := d.overlap, steps := d.steps }

@[reducible] def scheduleBody : Body Schedule where
  Header := Location × String × Option String
  State := ScheduleDraft
  opening := titled .schedule
  start _ := {}
  statement := scheduleStatement
  finish | (location, n, title), d => checkedSchedule location n title d

theorem parser_scheduleBody : scheduleBody.parser = schedule := by
  show (titled .schedule >>= fun h => block scheduleStatement _ >>= _) = _
  unfold titled schedule
  simp only [bind_assoc, pure_bind]
  rfl

section

variable {l : Location} {n : String} {title : Option String} {lines : List (List Token)}

theorem steps_of_processSpans {p : Process} {h : Location × String × Option String}
    (hspans : processBody.Spans scope ts h lines p rest) :
    p.steps = lines.flatMap (stepOn scope) :=
  hspans.part_eq (fun p : Process => p.steps) rfl steps_of_processStatement

theorem steps_of_scheduleSpans {d : ScheduleDraft} {h : Location × String × Option String}
    (hspans : scheduleBody.Spans scope ts h lines d rest) :
    d.steps = lines.flatMap (stepOn scope) :=
  hspans.part_eq (fun d : ScheduleDraft => d.steps) rfl steps_of_scheduleStatement

/-- A process that has steps is what its body was read as, unless a name is repeated. -/
theorem process_of_spans {p : Process}
    (hspans : processBody.Spans scope ts (l, n, title) lines p rest) (hsteps : p.steps ≠ []) :
    (NamesApart ProcessStep.name p.allSteps ∧ process scope ts = .ok (p, rest)) ∨
      ∃ before again after, p.allSteps.map (·.name) = before ++ again :: after ∧
        before.Nodup ∧ again ∈ before ∧
        process scope ts = .error ⟨l, .repeatedStep "process" n again, none⟩ := by
  have hparser : process scope ts = checkedProcess l n p scope rest := by
    rw [← parser_processBody, hspans.parser_eq]
  rw [hparser]
  unfold checkedProcess
  rw [if_neg (by rwa [List.isEmpty_iff])]
  cases hrepeated : p.repeatedStep? with
  | none => exact .inl ⟨(firstRepeated?_eq_none_iff.1 hrepeated).1, rfl⟩
  | some again =>
    obtain ⟨before, after, hnames, hagain, hnodup, -⟩ := firstRepeated?_eq_some_iff.1 hrepeated
    exact .inr ⟨before, again, after, hnames, hnodup, hagain.resolve_right List.not_mem_nil, rfl⟩

/-- A schedule that has a timing and steps is what its body was read as. -/
theorem schedule_of_spans {d : ScheduleDraft} {timing : ScheduleTiming}
    (hspans : scheduleBody.Spans scope ts (l, n, title) lines d rest)
    (htiming : d.timing = some timing) (hsteps : d.steps ≠ []) :
    schedule scope ts = .ok (⟨l, n, title, timing, d.timezone, d.catchUp, d.overlap, d.steps⟩,
      rest) := by
  have hparser : schedule scope ts = checkedSchedule l n title d scope rest := by
    rw [← parser_scheduleBody, hspans.parser_eq]
  rw [hparser]
  unfold checkedSchedule
  rw [htiming]
  show (if d.steps.isEmpty = true then _ else _ : Parser Schedule) scope rest = _
  rw [if_neg (by rwa [List.isEmpty_iff])]
  rfl

/-- A schedule that is read has the steps on the lines of its body. -/
theorem exists_spans_of_schedule {s : Schedule} (hs : schedule scope ts = .ok (s, rest)) :
    ∃ h lines d, scheduleBody.Spans scope ts h lines d rest ∧
      s.steps = lines.flatMap (stepOn scope) := by
  rw [← parser_scheduleBody] at hs
  obtain ⟨⟨l, n, title⟩, lines, d, mid, hspans, hs⟩ := Body.exists_spans hs
  have hs : checkedSchedule l n title d scope mid = .ok (s, rest) := hs
  unfold checkedSchedule at hs
  obtain ⟨found, _, hfound, hs⟩ := bind_eq_ok_iff.1 hs
  cases htiming : d.timing with
  | none =>
    rw [htiming] at hfound
    cases hfound
  | some timing =>
    rw [htiming] at hfound
    cases hfound
    split at hs
    · cases hs
    · cases hs
      exact ⟨_, lines, d, hspans, steps_of_scheduleSpans hspans⟩

/-- In a text that is read, the steps of a process have names of their own, at any depth. The steps
of a schedule are those on its lines, and have names of their own just where those have: of bodies
that can be read and have steps, that of a process is accepted if and only if the names of the steps
on its lines are apart, but that of a schedule with a timing always is. -/
theorem stepNames_apart_of_process {file text : String} {m : Module}
    (hm : parseModule file text = .ok m) :
    (∀ p ∈ m.declarations.processes, NamesApart ProcessStep.name p.allSteps) ∧
    (∀ s ∈ m.declarations.schedules, ∃ scope ts h lines d rest,
      schedule scope ts = .ok (s, rest) ∧ scheduleBody.Spans scope ts h lines d rest ∧
      s.allSteps = ProcessStep.flattenAll (lines.flatMap (stepOn scope))) ∧
    (∀ scope ts h lines p rest, processBody.Spans scope ts h lines p rest →
      p.steps = lines.flatMap (stepOn scope) ∧
      (p.steps ≠ [] → (process scope ts = .ok (p, rest) ↔
        NamesApart ProcessStep.name (ProcessStep.flattenAll (lines.flatMap (stepOn scope)))))) ∧
    ∀ scope ts h lines d rest, scheduleBody.Spans scope ts h lines d rest →
      d.steps = lines.flatMap (stepOn scope) ∧
      ∀ timing, d.timing = some timing → d.steps ≠ [] → ∃ s, schedule scope ts = .ok (s, rest) ∧
        s.steps = lines.flatMap (stepOn scope) := by
  refine ⟨fun p hp => ?_, fun s hs => ?_, ?_, ?_⟩
  · exact (wellFormed_of_isRead (parseModule_isRead hm .process p hp)).names
  · obtain ⟨scope, ts, rest, hs⟩ := parseModule_isRead hm .schedule s hs
    obtain ⟨h, lines, d, hspans, hsteps⟩ := exists_spans_of_schedule hs
    exact ⟨scope, ts, h, lines, d, rest, hs, hspans, congrArg _ hsteps⟩
  · rintro scope ts ⟨l, n, title⟩ lines p rest hspans
    have hlines := steps_of_processSpans hspans
    refine ⟨hlines, fun hsteps => ?_⟩
    rw [← hlines]
    show _ ↔ NamesApart ProcessStep.name (Process.allSteps p)
    rcases process_of_spans hspans hsteps with
      ⟨hapart, hok⟩ | ⟨before, again, after, hnames, -, hagain, herror⟩
    · exact iff_of_true hok hapart
    · refine iff_of_false (fun hok => ?_) fun hapart => ?_
      · rw [herror] at hok
        cases hok
      · unfold NamesApart at hapart
        rw [hnames] at hapart
        exact (List.nodup_append.1 hapart).2.2 again hagain again List.mem_cons_self rfl
  · rintro scope ts ⟨l, n, title⟩ lines d rest hspans
    have hlines := steps_of_scheduleSpans hspans
    exact ⟨hlines, fun timing htiming hsteps =>
      ⟨_, schedule_of_spans hspans htiming hsteps, hlines⟩⟩

/-- The same two lines, in a process and in a schedule. -/
theorem stepNames_apart_of_process_purge :
    let one := "  step purge:\n    service: purge_old\n"
    let both := one ++ "  step purge:\n    service: purge_new\n"
    let scope : Scope := ⟨"nightly.dsl", none, ⟨.endOfFile, "", 7, 1⟩⟩
    ∃ m, parseModule "nightly.dsl" ("process nightly:\n" ++ one) = .ok m ∧
      (∃ p ∈ m.declarations.processes, NamesApart ProcessStep.name p.allSteps) ∧
      (∃ tokens p rest, tokenize "nightly.dsl" ("process nightly:\n" ++ both) = .ok tokens ∧
        (∃ h lines, processBody.Spans scope tokens h lines p rest) ∧
        process scope tokens ≠ .ok (p, rest)) ∧
      ∃ tokens s rest, tokenize "nightly.dsl"
          ("schedule nightly:\n  cron: \"0 2 * * *\"\n" ++ both) = .ok tokens ∧
        schedule scope tokens = .ok (s, rest) ∧ s.steps.map (·.name) = ["purge", "purge"] := by
  intro one both scope
  obtain ⟨m, hm, hlength⟩ := Except.exists_eq_ok_of_any
    (x := parseModule "nightly.dsl" ("process nightly:\n" ++ one))
    (p := fun m => m.declarations.processes.length == 1) (by decide +kernel)
  obtain ⟨p, hp⟩ := List.exists_mem_of_length_pos
    (Nat.lt_of_lt_of_eq Nat.one_pos (beq_iff_eq.1 hlength).symm)
  obtain ⟨hapart, -, hprocess, hschedule⟩ := stepNames_apart_of_process hm
  refine ⟨m, hm, ⟨p, hp, hapart p hp⟩, ?_, ?_⟩
  · obtain ⟨⟨p, rest⟩, hread, hnames⟩ := Except.exists_eq_ok_of_any
      (x := tokenize "nightly.dsl" ("process nightly:\n" ++ both) >>= fun ts =>
        titled .process scope ts >>= fun r =>
          block processStatement (processBody.start r.1) scope r.2)
      (p := fun r => (ProcessStep.flattenAll r.1.steps).map (·.name) == ["purge", "purge"])
      (by decide +kernel)
    obtain ⟨tokens, htokens, hread⟩ := Except.bind_eq_ok_iff.1 hread
    obtain ⟨⟨h, colon⟩, hopening, hblock⟩ := Except.bind_eq_ok_iff.1 hread
    obtain ⟨lines, hspans⟩ := processBody.exists_spans_of_block hopening hblock
    obtain ⟨hlines, hiff⟩ := hprocess _ _ _ _ _ _ hspans
    have hne : p.steps ≠ [] := fun hnil => by
      rw [hnil] at hnames
      cases hnames
    refine ⟨tokens, p, rest, htokens, ⟨h, lines, hspans⟩, fun hok => ?_⟩
    have hrepeats := (hiff hne).1 hok
    rw [← hlines] at hrepeats
    unfold NamesApart at hrepeats
    rw [beq_iff_eq.1 hnames] at hrepeats
    exact absurd hrepeats (by decide)
  · obtain ⟨⟨d, rest⟩, hread, hsteps⟩ := Except.exists_eq_ok_of_any
      (x := tokenize "nightly.dsl" ("schedule nightly:\n  cron: \"0 2 * * *\"\n" ++ both) >>=
        fun ts => titled .schedule scope ts >>= fun r =>
          block scheduleStatement (scheduleBody.start r.1) scope r.2)
      (p := fun r => r.1.steps.map (·.name) == ["purge", "purge"] && r.1.timing.isSome)
      (by decide +kernel)
    obtain ⟨tokens, htokens, hread⟩ := Except.bind_eq_ok_iff.1 hread
    obtain ⟨⟨h, colon⟩, hopening, hblock⟩ := Except.bind_eq_ok_iff.1 hread
    obtain ⟨lines, hspans⟩ := scheduleBody.exists_spans_of_block hopening hblock
    simp only [Bool.and_eq_true, beq_iff_eq, Option.isSome_iff_exists] at hsteps
    obtain ⟨hnames, timing, htiming⟩ := hsteps
    have hne : d.steps ≠ [] := fun hnil => by
      rw [hnil] at hnames
      cases hnames
    obtain ⟨hlines, haccepts⟩ := hschedule _ _ _ _ _ _ hspans
    obtain ⟨s, hs, hsteps⟩ := haccepts timing htiming hne
    refine ⟨tokens, s, rest, htokens, hs, ?_⟩
    rw [hsteps, ← hlines, hnames]

/-- A text with a schedule both steps of which have one name is read. -/
theorem schedule_repeats_step : ∃ m,
    parseModule "nightly.dsl" ("schedule nightly:\n  cron: \"0 2 * * *\"\n" ++
      "  step purge:\n    service: purge_old\n" ++
      "  step purge:\n    service: purge_new\n") = .ok m ∧
    ∃ s ∈ m.declarations.schedules, ¬ NamesApart ProcessStep.name s.allSteps := by
  obtain ⟨m, hm, hsteps⟩ := Except.exists_eq_ok_of_any
    (x := parseModule "nightly.dsl" ("schedule nightly:\n  cron: \"0 2 * * *\"\n" ++
      "  step purge:\n    service: purge_old\n" ++
      "  step purge:\n    service: purge_new\n"))
    (p := fun m => m.declarations.schedules.any fun s =>
      s.allSteps.map (·.name) == ["purge", "purge"])
    (by decide +kernel)
  obtain ⟨s, hs, hnames⟩ := List.any_eq_true.1 hsteps
  refine ⟨m, hm, s, hs, fun hapart => ?_⟩
  unfold NamesApart at hapart
  rw [beq_iff_eq.1 hnames] at hapart
  exact absurd hapart (by decide)

end

end Parser

end Blueprint
