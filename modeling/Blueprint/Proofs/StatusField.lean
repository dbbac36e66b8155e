import Blueprint.Proofs.BodyLines
import Blueprint.Proofs.Directives
import Blueprint.Proofs.WellFormed.Entities

/-!
# The field that transitions move

An entity can hold several blocks of transitions, in front of its fields as well as behind them.
What all of them say is collected in the order of the text, and the field that is moved is chosen
once the body has been read (`stateMachine_of_entity`).

1. A line of an entity adds the transitions of the block that it opens, and no other line adds any
   (`found_of_entityStatement`), so that an entity has those of all its lines.
2. The states are those that are mentioned, each at its first mention (`transitionStates_eq`).
3. The field is the first enum that has them all, or else the one named `status`
   (`selectStatusField?_eq_some_iff`); as no two fields share a name, its own values are the states
   (`StateMachine.of?_eq_some_iff`).
-/

namespace Blueprint

namespace Parser

variable {scope : Scope}

/-! ## The transitions on a line -/

section

variable {line mid rest : List Token}

/-- The transitions of the block that the line opens. There are none if the line declares a field
or begins with another word. -/
def transitionsOn (scope : Scope) (line : List Token) : List Transition :=
  match isAtField scope line with
  | .ok (true, _) => []
  | _ =>
    if (head scope line).kind = .keyword .transitions then
      ((transitions scope line.tail).toOption.map (·.1)).getD []
    else []

theorem transitionsOn_of_ne (h : (head scope line).kind ≠ .keyword .transitions) :
    transitionsOn scope line = [] := by
  unfold transitionsOn
  split
  · rfl
  · exact if_neg h

/-- A line that begins with `transitions` and is a member declares a field. -/
theorem isAtField_of_member? {m m' : Members}
    (hhead : (head scope line).kind = .keyword .transitions)
    (h : member? m scope line = .ok (some m', mid)) : isAtField scope line = .ok (true, line) := by
  obtain ⟨b, hb⟩ := exists_isAtField scope line
  cases b with
  | true => exact hb
  | false =>
    have hkeyword {k : Keyword} (hk : k ≠ .transitions) :
        isAtKeyword k scope line = .ok (false, line) := by
      rw [isAtKeyword_apply, hhead, beq_eq_false_iff_ne.2]
      exact fun e => hk (TokenKind.keyword.inj e).symm
    have hcomputed : isAtUnkeyed .computed scope line = .ok (false, line) := by
      unfold isAtUnkeyed
      rw [bind_eq_ok (hkeyword (by decide))]
      rfl
    have hinvariant : isAtKeyed .invariant scope line = .ok (false, line) := by
      unfold isAtKeyed
      rw [bind_eq_ok (hkeyword (by decide))]
      rfl
    unfold member? at h
    rw [bind_eq_ok hb, if_neg Bool.false_ne_true, bind_eq_ok hcomputed, if_neg Bool.false_ne_true,
      bind_eq_ok hinvariant] at h
    cases h

theorem transitionsOn_of_member? {m m' : Members}
    (h : member? m scope line = .ok (some m', mid)) : transitionsOn scope line = [] := by
  by_cases hhead : (head scope line).kind = .keyword .transitions
  · unfold transitionsOn
    rw [isAtField_of_member? hhead h]
  · exact transitionsOn_of_ne hhead

/-- Of the directives only `transitions` adds to the transitions. -/
theorem found_of_entityDirective {e : Entity} {found : List Transition}
    {s : Entity × List Transition} (hfield : isAtField scope line = .ok (false, line))
    (h : entityDirective e found scope line = .ok (s, rest)) :
    s.2 = found ++ transitionsOn scope line := by
  unfold entityDirective at h
  obtain ⟨k, _, hk, h⟩ := bind_eq_ok_iff.1 h
  rw [keyword?_apply] at hk
  cases hk
  by_cases hhead : (head scope line).kind = .keyword .transitions
  · have hkeyword : (head scope line).keyword? = some .transitions := by
      unfold Token.keyword?
      rw [hhead]
    rw [hkeyword] at h
    obtain ⟨_, _, hadvance, h⟩ := bind_eq_ok_iff.1 h
    rw [advance_apply] at hadvance
    cases hadvance
    obtain ⟨l, _, hl, h⟩ := bind_eq_ok_iff.1 h
    cases h
    unfold transitionsOn
    rw [hfield]
    show found ++ l = found ++ if _ then _ else _
    rw [if_pos hhead, hl]
    rfl
  · rw [transitionsOn_of_ne hhead, List.append_nil]
    refine (?_ : Keeps _ (fun s : Entity × List Transition => s.2) found).gives h
    split
    case h_10 hk => exact absurd hk (keyword?_ne hhead)
    all_goals infer_instance

/-- A statement of an entity adds the transitions of its line. -/
theorem found_of_entityStatement {s s' : Entity × List Transition}
    (h : entityStatement s scope line = .ok (s', rest)) :
    s'.2 = s.2 ++ transitionsOn scope line := by
  obtain ⟨e, found⟩ := s
  obtain ⟨m, mid, hm, hs'⟩ := bind_eq_ok_iff.1 h
  cases m with
  | some m =>
    cases hs'
    exact (transitionsOn_of_member? hm).symm ▸ (List.append_nil found).symm
  | none =>
    obtain rfl := eq_of_member?_none hm
    exact found_of_entityDirective (isAtField_of_member?_none hm) hs'

end

end Parser

/-! ## States -/

/-- The states that transitions mention, without the one that stands for every state. Each comes
once, at its first mention. -/
def mentionedStates (found : List Transition) : List String :=
  ((found.flatMap fun t => [t.fromState, t.toState]).filter (· != wildcardState)).eraseDups

theorem mem_mentionedStates_iff {found : List Transition} {s : String} :
    s ∈ mentionedStates found ↔
      (∃ t ∈ found, s = t.fromState ∨ s = t.toState) ∧ s ≠ wildcardState := by
  unfold mentionedStates
  simp only [List.mem_eraseDups, List.mem_filter, List.mem_flatMap, List.mem_cons,
    List.not_mem_nil, or_false, bne_iff_ne]

/-- The states so far stay in front, and those of them that come again are left out. -/
theorem foldl_unseen_eq (l states : List String) : l.foldl (fun states s =>
    if s == wildcardState || states.contains s then states else states ++ [s]) states =
    states ++ ((l.filter (· != wildcardState)).filter (!states.contains ·)).eraseDups := by
  induction l generalizing states with
  | nil => exact (List.append_nil states).symm
  | cons s l ih =>
    rw [List.foldl_cons, ih]
    by_cases hw : s = wildcardState
    · rw [if_pos (by rw [beq_iff_eq.2 hw]; rfl), List.filter_cons_of_neg (by simp [hw])]
    rw [List.filter_cons_of_pos (by simp [hw])]
    by_cases hs : s ∈ states
    · rw [if_pos (by simp [hs]), List.filter_cons_of_neg (by simp [hs])]
    · rw [if_neg (by simp [hw, hs]), List.filter_cons_of_pos (by simp [hs]),
        List.eraseDups_cons, List.append_assoc, List.singleton_append]
      simp only [List.filter_filter]
      refine congrArg (fun l => states ++ s :: List.eraseDups l) (List.filter_congr fun a _ => ?_)
      rw [List.contains_append, Bool.not_or, List.contains_cons, List.contains_nil, Bool.or_false,
        Bool.and_comm (!states.contains a), Bool.and_assoc]

theorem transitionStates_eq (found : List Transition) :
    transitionStates found = mentionedStates found := by
  unfold transitionStates mentionedStates
  rw [foldl_unseen_eq, List.nil_append]
  exact congrArg List.eraseDups (List.filter_eq_self.2 fun _ _ => rfl)

/-! ## The choice of the field -/

/-- The field is an enum whose values stand at it, and has all the states. -/
def Field.HasStates (f : Field) (states : List String) : Prop :=
  ∃ values, f.fieldType = .enum values ∧ ∀ s ∈ states, s ∈ values

theorem Field.covers_iff {f : Field} {states : List String} :
    f.fieldType.covers states = true ↔ f.HasStates states := by
  unfold FieldType.covers HasStates
  split
  · next values e => simp [e]
  · next h => exact iff_of_false Bool.false_ne_true fun ⟨values, e, _⟩ => h values e

/-- Transitions between the states move the field: it is the first one that has them all, or, where
none has, the one of the name `status`. -/
inductive Moved (fields : List Field) (states : List String) (f : Field) : Prop where
  | first {before after : List Field} : fields = before ++ f :: after → f.HasStates states →
    (∀ g ∈ before, ¬ g.HasStates states) → Moved fields states f
  | status : f ∈ fields → f.name = "status" → (∀ g ∈ fields, ¬ g.HasStates states) →
    Moved fields states f

section

variable {fields : List Field} {states : List String} {found : List Transition} {f g : Field}

theorem Moved.mem (h : Moved fields states f) : f ∈ fields := by
  cases h with
  | first e => exact e ▸ List.mem_append_right _ List.mem_cons_self
  | status hf => exact hf

theorem find?_covers_eq_some_iff : fields.find? (·.fieldType.covers states) = some f ↔
    ∃ before after, fields = before ++ f :: after ∧ f.HasStates states ∧
      ∀ g ∈ before, ¬ g.HasStates states := by
  have hnot (g : Field) : (!g.fieldType.covers states) = true ↔ ¬ g.HasStates states := by
    rw [Bool.not_eq_true', ← Bool.not_eq_true, Field.covers_iff]
  simp only [List.find?_eq_some_iff_append, Field.covers_iff, hnot]
  constructor
  · rintro ⟨hf, before, after, e, hbefore⟩
    exact ⟨before, after, e, hf, hbefore⟩
  · rintro ⟨before, after, e, hf, hbefore⟩
    exact ⟨hf, before, after, e, hbefore⟩

theorem find?_covers_eq_none_iff :
    fields.find? (·.fieldType.covers states) = none ↔ ∀ g ∈ fields, ¬ g.HasStates states := by
  simp only [List.find?_eq_none, Field.covers_iff]

/-- Where fields have all the states, the first of them is moved. -/
theorem moved_iff_of_covers (hf : fields.find? (·.fieldType.covers states) = some f) :
    Moved fields states g ↔ g = f := by
  obtain ⟨before, after, e, hcovers, hbefore⟩ := find?_covers_eq_some_iff.1 hf
  constructor
  · intro hg
    cases hg with
    | first e' hg hbefore' =>
      have hsame := hf.symm.trans (find?_covers_eq_some_iff.2 ⟨_, _, e', hg, hbefore'⟩)
      exact (Option.some.inj hsame).symm
    | status _ _ hnone =>
      exact absurd hcovers (hnone f (e ▸ List.mem_append_right _ List.mem_cons_self))
  · rintro rfl
    exact .first e hcovers hbefore

/-- Where no field has all the states, the name decides. -/
theorem moved_iff_of_not_covers (hnone : fields.find? (·.fieldType.covers states) = none) :
    Moved fields states g ↔ g ∈ fields ∧ g.name = "status" := by
  rw [find?_covers_eq_none_iff] at hnone
  constructor
  · intro hg
    have hmem := hg.mem
    cases hg with
    | first _ hcovers => exact absurd hcovers (hnone g hmem)
    | status _ hname => exact ⟨hmem, hname⟩
  · rintro ⟨hmem, hname⟩
    exact .status hmem hname hnone

/-- There is a field to move if one has all the states or has the name. -/
theorem exists_moved_iff : (∃ f, Moved fields states f) ↔
    (∃ f ∈ fields, f.HasStates states) ∨ ∃ f ∈ fields, f.name = "status" := by
  cases hfirst : fields.find? (·.fieldType.covers states) with
  | some f =>
    have hcovers := List.find?_some (p := fun f : Field => f.fieldType.covers states) hfirst
    rw [Field.covers_iff] at hcovers
    exact iff_of_true ⟨f, (moved_iff_of_covers hfirst).2 rfl⟩
      (.inl ⟨f, List.mem_of_find?_eq_some hfirst, hcovers⟩)
  | none =>
    simp only [moved_iff_of_not_covers hfirst]
    refine (or_iff_right ?_).symm
    rintro ⟨f, hf, hcovers⟩
    exact find?_covers_eq_none_iff.1 hfirst f hf hcovers

theorem selectStatusField?_eq_some_iff {n : String} : selectStatusField? fields found = some n ↔
    ∃ f, Moved fields (mentionedStates found) f ∧ f.name = n := by
  unfold selectStatusField?
  rw [transitionStates_eq]
  cases hfirst : fields.find? (·.fieldType.covers (mentionedStates found)) with
  | some f =>
    simp only [hfirst, moved_iff_of_covers hfirst, Option.some.injEq, exists_eq_left]
  | none =>
    simp only [hfirst, moved_iff_of_not_covers hfirst, Option.map_eq_some_iff]
    constructor
    · rintro ⟨f, hf, hn⟩
      have hname := List.find?_some (p := fun f : Field => f.name == "status") hf
      exact ⟨f, ⟨List.mem_of_find?_eq_some hf, eq_of_beq hname⟩, hn⟩
    · rintro ⟨g, ⟨hg, hstatus⟩, rfl⟩
      have hsome : (fields.find? (·.name == "status")).isSome = true :=
        List.find?_isSome.2 ⟨g, hg, beq_iff_eq.2 hstatus⟩
      obtain ⟨f, hf⟩ := Option.isSome_iff_exists.1 hsome
      have hname := List.find?_some (p := fun f : Field => f.name == "status") hf
      exact ⟨f, hf, (eq_of_beq hname).trans hstatus.symm⟩

/-- What is made of fields and transitions: the field that is moved, and its own values or else the
states that are mentioned. -/
theorem StateMachine.of?_eq_some_iff {machine : StateMachine}
    (hnames : NamesApart Field.name fields) (hfound : found ≠ []) :
    StateMachine.of? fields found = some machine ↔
      ∃ f, Moved fields (mentionedStates found) f ∧ machine =
        ⟨f.name, f.fieldType.enumValues?.getD (mentionedStates found), found⟩ := by
  have hof : StateMachine.of? fields found = (selectStatusField? fields found).map fun n =>
      ⟨n, ((fields.find? (·.name == n)).bind (·.fieldType.enumValues?)).getD
        (transitionStates found), found⟩ := by
    unfold StateMachine.of?
    rw [if_neg (by rwa [List.isEmpty_iff])]
    cases selectStatusField? fields found <;> rfl
  rw [hof, Option.map_eq_some_iff, transitionStates_eq]
  constructor
  · rintro ⟨n, hn, rfl⟩
    obtain ⟨f, hf, rfl⟩ := selectStatusField?_eq_some_iff.1 hn
    refine ⟨f, hf, ?_⟩
    rw [hnames.find?_eq_some_iff.2 ⟨hf.mem, rfl⟩]
    rfl
  · rintro ⟨f, hf, rfl⟩
    refine ⟨f.name, selectStatusField?_eq_some_iff.2 ⟨f, hf, rfl⟩, ?_⟩
    rw [hnames.find?_eq_some_iff.2 ⟨hf.mem, rfl⟩]
    rfl

end

/-! ## State machines -/

namespace Parser

variable {scope : Scope} {ts rest : List Token} {e : Entity}

/-- The blocks of transitions in the body of the entity in front say these, one after the other. -/
def DeclaresTransitions (scope : Scope) (ts : List Token) (found : List Transition) : Prop :=
  ∃ h lines s rest, entityBody.Spans scope ts h lines s rest ∧
    found = lines.flatMap (transitionsOn scope)

theorem DeclaresTransitions.unique {found found' : List Transition}
    (h : DeclaresTransitions scope ts found) (h' : DeclaresTransitions scope ts found') :
    found = found' := by
  obtain ⟨_, lines, _, _, hspans, rfl⟩ := h
  obtain ⟨_, lines', _, _, hspans', rfl⟩ := h'
  rw [hspans.unique hspans']

/-- An entity that is read has the state machine of its fields and of what its blocks of transitions
say. -/
theorem stateMachine_eq_of_entity (h : entity scope ts = .ok (e, rest)) :
    ∃ found, DeclaresTransitions scope ts found ∧
      e.stateMachine = StateMachine.of? e.fields found := by
  rw [← parser_entityBody] at h
  obtain ⟨header, lines, ⟨e', found⟩, mid, hspans, h⟩ := Body.exists_spans h
  cases h
  have hfound : found = lines.flatMap (transitionsOn scope) :=
    hspans.part_eq (fun s : Entity × List Transition => s.2) rfl found_of_entityStatement
  exact ⟨found, ⟨header, lines, _, _, hspans, hfound⟩, rfl⟩

/-- The state machine of an entity that is read. If its blocks declare any transitions, there is one
just where a field has all of their states or is named `status`. It moves the first field that has
them all, or else `status`. It keeps all transitions. Its states are the values of the field if they
stand there, and otherwise those that the transitions mention. So every state that is mentioned is
among them, unless the field is only moved for its name and has values of its own. -/
theorem stateMachine_of_entity (h : entity scope ts = .ok (e, rest)) :
    ∃ found, (∀ l, DeclaresTransitions scope ts l ↔ l = found) ∧
      (found = [] → e.stateMachine = none) ∧
      (found ≠ [] →
        (e.stateMachine ≠ none ↔ (∃ f ∈ e.fields, f.HasStates (mentionedStates found)) ∨
          ∃ f ∈ e.fields, f.name = "status") ∧
        ∀ machine, e.stateMachine = some machine →
          machine.transitions = found ∧
          ∃ f, Moved e.fields (mentionedStates found) f ∧ machine.statusField = f.name ∧
            (∀ values, f.fieldType = .enum values → machine.states = values) ∧
            ((∀ values, f.fieldType ≠ .enum values) →
              machine.states = mentionedStates found) ∧
            (f.HasStates (mentionedStates found) ∨ (∀ values, f.fieldType ≠ .enum values) →
              ∀ t ∈ found, ∀ s, s = t.fromState ∨ s = t.toState → s ≠ wildcardState →
                s ∈ machine.states)) := by
  obtain ⟨found, hdeclares, hmachine⟩ := stateMachine_eq_of_entity h
  have hnames : NamesApart Field.name e.fields :=
    (List.nodup_append.1 (entity_gives h).names).1
  refine ⟨found, fun l => ⟨fun hl => hl.unique hdeclares, fun hl => hl ▸ hdeclares⟩, ?_, ?_⟩
  · rintro rfl
    exact hmachine
  intro hfound
  refine ⟨?_, fun machine hsome => ?_⟩
  · rw [hmachine, ← exists_moved_iff, Option.ne_none_iff_exists']
    simp only [StateMachine.of?_eq_some_iff hnames hfound]
    exact ⟨fun ⟨_, f, hf, _⟩ => ⟨f, hf⟩, fun ⟨f, hf⟩ => ⟨_, f, hf, rfl⟩⟩
  · rw [hmachine] at hsome
    obtain ⟨f, hf, rfl⟩ := (StateMachine.of?_eq_some_iff hnames hfound).1 hsome
    have henum (values : List String) (hvalues : f.fieldType = .enum values) :
        f.fieldType.enumValues?.getD (mentionedStates found) = values := by
      rw [hvalues]
      rfl
    have hother (hvalues : ∀ values, f.fieldType ≠ .enum values) :
        f.fieldType.enumValues?.getD (mentionedStates found) = mentionedStates found := by
      unfold FieldType.enumValues?
      split
      · next values e => exact absurd e (hvalues values)
      · rfl
    refine ⟨rfl, f, hf, rfl, henum, hother, fun hchoice t ht s hs hwild => ?_⟩
    have hmem := mem_mentionedStates_iff.2 ⟨⟨t, ht, hs⟩, hwild⟩
    rcases hchoice with ⟨values, hvalues, hall⟩ | hvalues
    · exact (henum values hvalues).symm ▸ hall s hmem
    · exact (hother hvalues).symm ▸ hmem

/-- The blocks stand in front of the fields and behind them. The first enum lacks states, the last
is named `status`. -/
theorem stateMachine_of_entity_stage :
    let text := "entity Task:\n  transitions:\n    draft -> review\n" ++
      "  priority: enum[low, high]\n  stage: enum[draft, review, done]\n" ++
      "  status: enum[draft, done]\n  transitions:\n    * -> done\n"
    let scope : Scope := ⟨"task.dsl", none, ⟨.endOfFile, "", 9, 1⟩⟩
    ∃ tokens e rest machine, tokenize "task.dsl" text = .ok tokens ∧
      entity scope tokens = .ok (e, rest) ∧ e.stateMachine = some machine ∧
      machine.statusField = "stage" ∧ machine.states = ["draft", "review", "done"] ∧
      ∃ found f, (∀ l, DeclaresTransitions scope tokens l ↔ l = found) ∧
        found.map (fun t => (t.fromState, t.toState)) = [("draft", "review"), ("*", "done")] ∧
        Moved e.fields (mentionedStates found) f ∧ f.name = "stage" := by
  intro text scope
  obtain ⟨⟨e, rest⟩, hread, hmachine⟩ := Except.exists_eq_ok_of_any
    (x := tokenize "task.dsl" text >>= entity scope)
    (p := fun r => r.1.stateMachine.any fun m => m.statusField == "stage" &&
      m.states == ["draft", "review", "done"] &&
      m.transitions.map (fun t => (t.fromState, t.toState)) ==
        [("draft", "review"), ("*", "done")]) (by decide +kernel)
  obtain ⟨tokens, htokens, hentity⟩ := Except.bind_eq_ok_iff.1 hread
  obtain ⟨machine, hsome, hall⟩ := (Option.any_eq_true _ _).1 hmachine
  simp only [Bool.and_eq_true, beq_iff_eq] at hall
  obtain ⟨⟨hfield, hstates⟩, htransitions⟩ := hall
  obtain ⟨found, hdeclares, hnone, hpolicy⟩ := stateMachine_of_entity hentity
  have hfound : found ≠ [] := fun hnil => by
    rw [hnone hnil] at hsome
    cases hsome
  obtain ⟨rfl, f, hf, hname, -⟩ := (hpolicy hfound).2 machine hsome
  exact ⟨tokens, e, rest, machine, htokens, hentity, hsome, hfield, hstates, _, f, hdeclares,
    htransitions, hf, hname.symm.trans hfield⟩

end Parser

end Blueprint
