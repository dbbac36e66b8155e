import Blueprint.Module.Grammar
import Blueprint.Proofs.Bodies
import Blueprint.Proofs.WellFormed.Entities
import Blueprint.Proofs.Written.Words

/-!
# Directives of entities and foreign models

A line of a word, a colon and a value declares a field if the value begins with the name of a type,
whatever the word. Any other value of `invariant`, `display_field` or `key` that its own grammar
accepts is recorded (`directives_recorded`): the line is one round of the loop over the body, the
round cannot fail, and what is recorded is in what is made of the body.
-/

namespace Blueprint.Parser

variable {α κ σ : Type} {scope : Scope}

/-! ## Lines -/

/-- The name of a type comes first. -/
def OpensType (value : List Token) : Prop :=
  ∃ t ∈ value.head?, t.keyword?.any Keyword.opensType = true

/-- The tokens begin with ends of lines and the line `k: value`. The parser reads the value up to
the end of the line, behind which there are the other tokens. -/
def DirectiveLine (scope : Scope) (k : Keyword) (p : Parser α) (v : α)
    (value behind ts : List Token) : Prop :=
  ∃ word colon newline, word.kind = .keyword k ∧ colon.kind = .colon ∧ newline.kind = .newline ∧
    behindNewlines ts = word :: colon :: (value ++ newline :: behind) ∧
    p scope (value ++ newline :: behind) = .ok (v, newline :: behind)

section

variable {k : Keyword} {word colon newline : Token} {us value behind : List Token}

theorem keyword?_of_keyword (hword : word.kind = .keyword k) (us : List Token) :
    keyword? scope (word :: us) = .ok (some k, word :: us) := by
  rw [keyword?_apply, head_cons]
  unfold Token.keyword?
  rw [hword]

theorem peekIs_one_of_eq {kind : TokenKind} (hcolon : colon.kind = kind) (us : List Token) :
    peekIs 1 kind scope (word :: colon :: us) = .ok (true, word :: colon :: us) := by
  show Except.ok (colon.kind == kind, _) = _
  rw [beq_iff_eq.2 hcolon]

theorem isWord_of_keyword (hword : word.kind = .keyword k) : word.isWord = true := by
  unfold Token.isWord
  rw [hword]

theorem isAtField_of_colon (hword : word.isWord = true) (hcolon : colon.kind = .colon) :
    isAtField scope (word :: colon :: us) =
      .ok ((head scope us).keyword?.any Keyword.opensType, word :: colon :: us) := by
  have hpeek : peek 2 scope (word :: colon :: us) = .ok (head scope us, word :: colon :: us) := by
    show Except.ok (us[0]?.getD scope.final, _) = _
    rw [← List.head?_eq_getElem?]
    rfl
  unfold isAtField
  rw [bind_eq_ok (isAtWord_apply _ _), head_cons, if_pos hword,
    bind_eq_ok (peekIs_one_of_eq hcolon us), if_pos rfl, bind_eq_ok hpeek]
  rfl

theorem not_opensType_head (hnewline : newline.kind = .newline) (hvalue : ¬ OpensType value) :
    (head scope (value ++ newline :: behind)).keyword?.any Keyword.opensType = false := by
  cases value with
  | nil =>
    show newline.keyword?.any Keyword.opensType = false
    unfold Token.keyword?
    rw [hnewline]
    rfl
  | cons t us => exact Bool.eq_false_iff.2 fun h => hvalue ⟨t, rfl, h⟩

/-- The keyword of a directive, a colon and what ends its line. -/
theorem keyed_of_line {p : Parser α} {v : α} (hcolon : colon.kind = .colon)
    (hnewline : newline.kind = .newline) (h : p scope us = .ok (v, newline :: behind)) :
    keyed p scope (word :: colon :: us) = .ok (v, behind) := by
  have hend : endStatement scope (newline :: behind) = .ok ((), behind) := by
    unfold endStatement
    rw [bind_eq_ok (isAt_of_ne (by rw [hnewline]; decide)), if_neg Bool.false_ne_true,
      bind_eq_ok (isAt_of_ne (by rw [hnewline]; decide)), if_neg Bool.false_ne_true,
      bind_eq_ok (expect_of_eq hnewline)]
    rfl
  unfold keyed directive closing
  rw [bind_eq_ok (advance_apply _ _), List.tail_cons, bind_eq_ok (expect_of_eq hcolon),
    bind_eq_ok h, bind_eq_ok hend]
  rfl

end

/-! ## Members -/

/-- A line of the block under an invariant. -/
def ruleStatement (r : InvariantRule) : Parser InvariantRule := do
  match ← keyword? with
  | some .message => return { r with message := some (← keyed string) }
  | some .code => return { r with code := some (← keyed string) }
  | _ => passOver r

theorem invariantRule_eq : invariantRule = invariant >>= fun expr => expect .newline >>= fun _ =>
    underneath ruleStatement { expr } := rfl

section

variable {k : Keyword} {word colon newline : Token} {us value behind rest : List Token}
  {m : Members} {i : Invariant} {r : InvariantRule}

/-- The members do not take a line with another keyword. -/
theorem member?_eq_none (hword : word.kind = .keyword k) (hcolon : colon.kind = .colon)
    (htype : (head scope us).keyword?.any Keyword.opensType = false) (hinvariant : k ≠ .invariant) :
    member? m scope (word :: colon :: us) = .ok (none, word :: colon :: us) := by
  have hcomputed : isAtUnkeyed .computed scope (word :: colon :: us) =
      .ok (false, word :: colon :: us) := by
    unfold isAtUnkeyed isAtKeyword
    by_cases hk : k = .computed
    · rw [bind_eq_ok (isAt_of_eq (hk ▸ hword)), if_pos rfl,
        bind_eq_ok (peekIs_one_of_eq hcolon us)]
      rfl
    · rw [bind_eq_ok (isAt_of_ne (by rw [hword]; exact fun h => hk (TokenKind.keyword.inj h)))]
      rfl
  have hkeyed : isAtKeyed .invariant scope (word :: colon :: us) =
      .ok (false, word :: colon :: us) := by
    unfold isAtKeyed isAtKeyword
    have hne : word.kind ≠ .keyword .invariant := by
      rw [hword]
      exact fun h => hinvariant (TokenKind.keyword.inj h)
    rw [bind_eq_ok (isAt_of_ne hne)]
    rfl
  unfold member?
  rw [bind_eq_ok (isAtField_of_colon (isWord_of_keyword hword) hcolon), htype,
    if_neg Bool.false_ne_true, bind_eq_ok hcomputed, if_neg Bool.false_ne_true, bind_eq_ok hkeyed]
  rfl

/-- An invariant is one more member. -/
theorem member?_of_invariant (hword : word.kind = .keyword .invariant)
    (hcolon : colon.kind = .colon) (hnewline : newline.kind = .newline)
    (htype : (head scope us).keyword?.any Keyword.opensType = false)
    (hinvariant : invariant scope us = .ok (i, newline :: behind))
    (hunder : underneath ruleStatement { expr := i } scope behind = .ok (r, rest)) :
    member? m scope (word :: colon :: us) =
      .ok (some { m with invariants := m.invariants ++ [r] }, rest) := by
  have hcomputed : isAtUnkeyed .computed scope (word :: colon :: us) =
      .ok (false, word :: colon :: us) := by
    unfold isAtUnkeyed isAtKeyword
    rw [bind_eq_ok (isAt_of_ne (by rw [hword]; decide))]
    rfl
  have hkeyed : isAtKeyed .invariant scope (word :: colon :: us) =
      .ok (true, word :: colon :: us) := by
    unfold isAtKeyed isAtKeyword
    rw [bind_eq_ok (isAt_of_eq hword), if_pos rfl, peekIs_one_of_eq hcolon us]
  unfold member?
  rw [bind_eq_ok (isAtField_of_colon (isWord_of_keyword hword) hcolon), htype,
    if_neg Bool.false_ne_true, bind_eq_ok hcomputed, if_neg Bool.false_ne_true,
    bind_eq_ok hkeyed, if_pos rfl, bind_eq_ok (advance_apply _ _),
    bind_eq_ok (advance_apply _ _), invariantRule_eq]
  simp only [bind_assoc]
  rw [List.tail_cons, List.tail_cons, bind_eq_ok hinvariant, bind_eq_ok (expect_of_eq hnewline),
    bind_eq_ok hunder]
  rfl

end

/-! ## Earlier invariants -/

/-- The members with other invariants in front. -/
@[reducible] def membersBehind (earlier : List InvariantRule) (m : Members) : Members :=
  { m with invariants := earlier ++ m.invariants }

/-- The state of an entity with other invariants in front. -/
def entityBehind (earlier : List InvariantRule) (s : Entity × List Transition) :
    Entity × List Transition :=
  ({ s.1 with invariants := earlier ++ s.1.invariants }, s.2)

section

variable (earlier : List InvariantRule)

theorem memberField_behind (m : Members) :
    memberField (membersBehind earlier m) = membersBehind earlier <$> memberField m := by
  unfold memberField
  simp only [map_bind, map_ite, map_pure]
  rfl

theorem memberComputed_behind (m : Members) :
    memberComputed (membersBehind earlier m) = membersBehind earlier <$> memberComputed m := by
  unfold memberComputed
  simp only [map_bind, map_ite, map_pure]
  rfl

theorem member?_behind (m : Members) :
    member? (membersBehind earlier m) = Option.map (membersBehind earlier) <$> member? m := by
  unfold member?
  simp only [memberField_behind, memberComputed_behind, map_bind, map_ite, map_pure, bind_map_left,
    Option.map, List.append_assoc]

theorem entityDirective_behind (e : Entity) (found : List Transition) :
    entityDirective { e with invariants := earlier ++ e.invariants } found =
      entityBehind earlier <$> entityDirective e found := by
  unfold entityDirective
  simp only [map_bind]
  refine congrArg (keyword? >>= ·) (funext fun k => ?_)
  split <;> simp only [map_bind, map_ite, map_pure] <;> rfl

theorem entityStatement_behind (s : Entity × List Transition) :
    entityStatement (entityBehind earlier s) = entityBehind earlier <$> entityStatement s := by
  obtain ⟨e, found⟩ := s
  show (member? (membersBehind earlier e.toMembers) >>= _) =
    entityBehind earlier <$> (member? e.toMembers >>= _)
  rw [member?_behind, bind_map_left, map_bind]
  refine congrArg (member? e.toMembers >>= ·) (funext fun m => ?_)
  cases m with
  | none => exact entityDirective_behind earlier e found
  | some m => rfl

end

/-! ## What other lines leave alone -/

theorem keyword?_ne {t : Token} {k : Keyword} (h : t.kind ≠ .keyword k) : t.keyword? ≠ some k := by
  unfold Token.keyword?
  split
  · next k' hk =>
    rw [hk] at h
    exact fun e => h (congrArg TokenKind.keyword (Option.some.inj e))
  · nofun

theorem displayField_of_entityDirective {e : Entity} {found : List Transition}
    {ts rest : List Token} {s : Entity × List Transition}
    (ht : (head scope ts).kind ≠ .keyword .displayField)
    (h : entityDirective e found scope ts = .ok (s, rest)) : s.1.displayField = e.displayField := by
  -- to set the display field to what it is makes no difference in any other branch
  let f (s : Entity × List Transition) : Entity × List Transition :=
    ({ s.1 with displayField := e.displayField }, s.2)
  have hpure (e' : Entity) (found : List Transition) : Maps f (pure (e', found))
      (pure ({ e' with displayField := e.displayField }, found)) := .pure_of rfl
  unfold entityDirective at h
  obtain ⟨k, _, hk, h⟩ := bind_eq_ok_iff.1 h
  rw [keyword?_apply] at hk
  cases hk
  have hf : f s = s := by
    refine Maps.eq_of_eq_ok ?_ h
    split
    case h_6 hk => exact absurd hk (keyword?_ne ht)
    all_goals infer_instance
  exact (congrArg (·.1.displayField) hf).symm

/-- Only a line that begins with `display_field` can change the display field. -/
theorem displayField_of_entityStatement {ts rest : List Token} {s s' : Entity × List Transition}
    (ht : (head scope ts).kind ≠ .keyword .displayField)
    (h : entityStatement s scope ts = .ok (s', rest)) : s'.1.displayField = s.1.displayField := by
  obtain ⟨e, found⟩ := s
  obtain ⟨m, mid, hm, hs'⟩ := bind_eq_ok_iff.1 h
  cases m with
  | some m =>
    cases hs'
    rfl
  | none =>
    obtain rfl := eq_of_member?_none hm
    exact displayField_of_entityDirective ht hs'

/-- Only a line that begins with `key` can change the key fields. -/
theorem keyFields_of_foreignStatement {ts rest : List Token} {m m' : ForeignModel}
    (ht : (head scope ts).kind ≠ .keyword .key)
    (h : foreignStatement m scope ts = .ok (m', rest)) : m'.keyFields = m.keyFields := by
  let f (m' : ForeignModel) : ForeignModel := { m' with keyFields := m.keyFields }
  have hpure (m' : ForeignModel) : Maps f (pure m') (pure { m' with keyFields := m.keyFields }) :=
    .pure_of rfl
  unfold foreignStatement at h
  obtain ⟨b, hb⟩ := exists_isAtField scope ts
  rw [bind_eq_ok hb] at h
  cases b with
  | true =>
    obtain ⟨fields, mid, -, h⟩ := bind_eq_ok_iff.1 h
    cases h
    rfl
  | false =>
    have h : foreignDirective m scope ts = .ok (m', rest) := h
    unfold foreignDirective at h
    obtain ⟨k, _, hk, h⟩ := bind_eq_ok_iff.1 h
    rw [keyword?_apply] at hk
    cases hk
    have hf : f m' = m' := by
      refine Maps.eq_of_eq_ok ?_ h
      split
      case h_1 hk => exact absurd hk (keyword?_ne ht)
      all_goals infer_instance
    exact (congrArg (·.keyFields) hf).symm

/-! ## Archetypes and foreign models -/

/-- A statement of an archetype. -/
def archetypeStatement (m : Members) : Parser Members := do
  match ← member? m with
  | some next => return next
  | none => return { m with fields := ← noField m.fields }

@[reducible] def archetypeBody : Body Archetype where
  Header := Location × String
  State := Members
  opening := do
    let location ← here
    let _ ← expectKeyword .archetype
    return (location, ← name)
  start _ := {}
  statement := archetypeStatement
  finish | (location, name), members => return { toMembers := members, location, name }

theorem parser_archetypeBody : archetypeBody.parser = archetype := by
  have hparser : archetypeBody.parser = here >>= fun location =>
    expectKeyword .archetype >>= fun _ =>
      name >>= fun n => block archetypeStatement {} >>= fun members =>
        pure { toMembers := members, location, name := n } := by
    show ((here >>= fun _ => expectKeyword .archetype >>= fun _ => name >>= fun _ => _) >>= fun h =>
      block archetypeStatement _ >>= _) = _
    simp only [bind_assoc, pure_bind]
  exact hparser

@[reducible] def foreignBody : Body ForeignModel where
  Header := ForeignModel
  State := ForeignModel
  opening := do
    let location ← here
    let _ ← expectKeyword .foreignModel
    let (n, early) ← header
    let _ ← expectKeyword .from
    let origin ← name
    let title ← if early.isSome then pure early else string?
    return { location, name := n, title, service := origin }
  start m := m
  statement := foreignStatement
  finish _ m := return m

theorem parser_foreignBody : foreignBody.parser = foreignModel := by
  have hite {α β : Type} {c : Prop} [Decidable c] (p q : Parser α) (f : α → Parser β) :
      (if c then p else q) >>= f = if c then p >>= f else q >>= f := apply_ite (· >>= f) c p q
  show ((here >>= fun _ => _) >>= fun m => block foreignStatement m >>= fun m => pure m) = _
  unfold foreignModel
  simp only [bind_assoc, pure_bind, bind_pure, hite]

theorem archetypeStatement_behind (earlier : List InvariantRule) (m : Members) :
    archetypeStatement (membersBehind earlier m) =
      membersBehind earlier <$> archetypeStatement m := by
  unfold archetypeStatement
  rw [member?_behind, bind_map_left, map_bind]
  refine congrArg (member? m >>= ·) (funext fun next => ?_)
  cases next with
  | none =>
    exact (map_bind (membersBehind earlier) (noField m.fields) fun fields =>
      pure { m with fields := fields }).symm
  | some next => rfl

/-! ## What is recorded -/

/-- A name is a list of names. -/
theorem names_of_name {n : String} {newline : Token} {us rest : List Token}
    (hnewline : newline.kind = .newline) (h : name scope us = .ok (n, newline :: rest)) :
    names scope us = .ok ([n], newline :: rest) := by
  have hopen : (head scope us).kind ≠ .openBracket := by
    intro hk
    unfold name at h
    rw [bind_eq_ok (current_apply _ _), hk] at h
    exact unexpected_ne_ok h
  have hstop : (head scope (newline :: rest)).kind ≠ .comma := by
    rw [head_cons, hnewline]
    decide
  unfold names separated
  rw [bind_eq_ok ((accept_apply _ _ _).trans (if_neg hopen)), if_neg Bool.false_ne_true,
    separatedFold_of_item (concat_of_item h [])]
  exact iterateOn_of_none (separatedStep_of_stop hstop)

/-- What stands under an invariant leaves its expression alone. -/
theorem expr_of_underneath {i : Invariant} {r : InvariantRule} {ts rest : List Token}
    (h : underneath ruleStatement { expr := i } scope ts = .ok (r, rest)) : r.expr = i := by
  let f (r : InvariantRule) : InvariantRule := { r with expr := i }
  have hstatement (r : InvariantRule) : Maps f (ruleStatement r) (ruleStatement (f r)) := by
    have hpure (r : InvariantRule) : Maps f (pure r) (pure { r with expr := i }) := .pure_of rfl
    refine .after fun k => ?_
    split <;> infer_instance
  have hmaps : Maps f (underneath ruleStatement { expr := i })
      (underneath ruleStatement { expr := i }) := by
    refine .after fun b => ?_
    split
    · exact .statements ({ expr := i } : InvariantRule)
    · exact .pure_of rfl
  exact (congrArg (·.expr) (hmaps.eq_of_eq_ok h)).symm

section

variable {ts mid value details behind rest out : List Token}

/-- An invariant that its grammar accepts is one more member, whatever the members before it. -/
theorem member?_of_directiveLine {i : Invariant} {r : InvariantRule} (hvalue : ¬ OpensType value)
    (hline : DirectiveLine scope .invariant invariant i value (details ++ rest) mid)
    (hunder : underneath ruleStatement { expr := i } scope (details ++ rest) = .ok (r, rest)) :
    ∃ t us, behindNewlines mid = t :: us ∧ t.kind.endsStatement = false ∧
      rest.length < (t :: us).length ∧ ∀ m : Members, member? m scope (t :: us) =
        .ok (some { m with invariants := m.invariants ++ [r] }, rest) := by
  obtain ⟨word, colon, newline, hword, hcolon, hnewline, hline, hinvariant⟩ := hline
  refine ⟨word, _, hline, by rw [hword]; rfl, ?_, fun m => ?_⟩
  · simp only [List.length_cons, List.length_append]
    omega
  · exact member?_of_invariant hword hcolon hnewline (not_opensType_head hnewline hvalue)
      hinvariant hunder

/-- The name that a directive gives is set in place of any other. -/
theorem statement_of_directiveLine {k : Keyword} {n : String} (hvalue : ¬ OpensType value)
    (hline : DirectiveLine scope k name n value rest mid) :
    ∃ t us, behindNewlines mid = t :: us ∧ t.kind = .keyword k ∧ rest.length < (t :: us).length ∧
      isAtField scope (t :: us) = .ok (false, t :: us) ∧
      (k ≠ .invariant → ∀ m : Members, member? m scope (t :: us) = .ok (none, t :: us)) ∧
      keyed name scope (t :: us) = .ok (n, rest) ∧
      keyed names scope (t :: us) = .ok ([n], rest) := by
  obtain ⟨word, colon, newline, hword, hcolon, hnewline, hline, hname⟩ := hline
  have htype : (head scope (value ++ newline :: rest)).keyword?.any Keyword.opensType = false :=
    not_opensType_head hnewline hvalue
  refine ⟨word, _, hline, hword, ?_, ?_, fun hk m => member?_eq_none hword hcolon htype hk,
    keyed_of_line hcolon hnewline hname, keyed_of_line hcolon hnewline ?_⟩
  · simp only [List.length_cons, List.length_append]
    omega
  · rw [isAtField_of_colon (isWord_of_keyword hword) hcolon, htype]
  · exact names_of_name hnewline hname

/-- Statements that do not look at earlier invariants are read alike behind others. -/
theorem exists_of_statements_behind {statement : σ → Parser σ} {behind : List InvariantRule → σ → σ}
    (hmap : ∀ earlier s, statement (behind earlier s) = behind earlier <$> statement s)
    {earlier : List InvariantRule} {s v : σ}
    (h : statements statement (behind earlier s) scope rest = .ok (v, out)) :
    ∃ w, v = behind earlier w ∧
      ∀ others, statements statement (behind others s) scope rest = .ok (behind others w, out) := by
  rw [statements_map (hmap earlier)] at h
  obtain ⟨w, hw, rfl⟩ := map_eq_ok_iff.1 h
  refine ⟨w, rfl, fun others => ?_⟩
  rw [statements_map (hmap others)]
  exact map_eq_ok_iff.2 ⟨w, hw, rfl⟩

section

variable (hf : scope.final.kind = .endOfFile) (hvalue : ¬ OpensType value) {i : Invariant}
  {r : InvariantRule}
  (hline : DirectiveLine scope .invariant invariant i value (details ++ rest) mid)
  (hunder : underneath ruleStatement { expr := i } scope (details ++ rest) = .ok (r, rest))

include hf hvalue hline hunder

theorem entity_of_invariant {h : entityBody.Header} {e e' : Entity} {found found' : List Transition}
    (hcomes : entityBody.Comes scope ts h (e, found) mid)
    (hrest : statements entityStatement (e, found) scope rest = .ok ((e', found'), out)) :
    r.expr = i ∧ ∃ later, e'.invariants = e.invariants ++ later ∧
      entity scope ts = .ok ({ e' with
        invariants := e.invariants ++ r :: later,
        stateMachine := StateMachine.of? e'.fields found' }, out) := by
  obtain ⟨t, us, hus, ht, hlt, hmember⟩ := member?_of_directiveLine hvalue hline hunder
  have hstatement : entityStatement (e, found) scope (t :: us) =
      .ok (({ e with invariants := e.invariants ++ [r] }, found), rest) := by
    show (member? e.toMembers >>= _) scope (t :: us) = _
    rw [bind_eq_ok (hmember e.toMembers)]
    rfl
  have hbehind := hcomes.line hf hus ht hstatement hlt
  have hself : (e, found) = entityBehind e.invariants ({ e with invariants := [] }, found) := by
    unfold entityBehind
    rw [List.append_nil]
  have hnext : ({ e with invariants := e.invariants ++ [r] }, found) =
      entityBehind (e.invariants ++ [r]) ({ e with invariants := [] }, found) := by
    unfold entityBehind
    rw [List.append_nil]
  rw [hself] at hrest
  obtain ⟨w, hw, hothers⟩ := exists_of_statements_behind entityStatement_behind hrest
  cases hw
  refine ⟨expr_of_underneath hunder, w.1.invariants, rfl, ?_⟩
  rw [← parser_entityBody, hbehind.parser_eq, hnext, bind_eq_ok (hothers _),
    List.append_cons e.invariants r w.1.invariants]
  rfl

theorem archetype_of_invariant {h : archetypeBody.Header} {m m' : Members}
    (hcomes : archetypeBody.Comes scope ts h m mid)
    (hrest : statements archetypeStatement m scope rest = .ok (m', out)) :
    r.expr = i ∧ ∃ later, m'.invariants = m.invariants ++ later ∧
      archetype scope ts = .ok ({ toMembers := { m' with
        invariants := m.invariants ++ r :: later }, location := h.1, name := h.2 }, out) := by
  obtain ⟨t, us, hus, ht, hlt, hmember⟩ := member?_of_directiveLine hvalue hline hunder
  have hstatement : archetypeStatement m scope (t :: us) =
      .ok ({ m with invariants := m.invariants ++ [r] }, rest) := by
    show (member? m >>= _) scope (t :: us) = _
    rw [bind_eq_ok (hmember m)]
    rfl
  have hbehind := hcomes.line hf hus ht hstatement hlt
  have hself : m = membersBehind m.invariants { m with invariants := [] } := by
    unfold membersBehind
    rw [List.append_nil]
  have hnext : { m with invariants := m.invariants ++ [r] } =
      membersBehind (m.invariants ++ [r]) { m with invariants := [] } := by
    unfold membersBehind
    rw [List.append_nil]
  rw [hself] at hrest
  obtain ⟨w, hw, hothers⟩ := exists_of_statements_behind archetypeStatement_behind hrest
  cases hw
  refine ⟨expr_of_underneath hunder, w.invariants, rfl, ?_⟩
  rw [← parser_archetypeBody, hbehind.parser_eq, hnext, bind_eq_ok (hothers _),
    List.append_cons m.invariants r w.invariants]
  rfl

end

section

variable (hf : scope.final.kind = .endOfFile) (hvalue : ¬ OpensType value) {f : String}

include hf hvalue

theorem entity_of_displayField {h : entityBody.Header} {e : Entity} {found : List Transition}
    (hline : DirectiveLine scope .displayField name f value rest mid)
    (hcomes : entityBody.Comes scope ts h (e, found) mid) :
    entityBody.Comes scope ts h ({ e with displayField := some f }, found) rest ∧
      (NoLater entityStatement scope .displayField ({ e with displayField := some f }, found) rest →
        ∀ {e' out}, entity scope ts = .ok (e', out) → e'.displayField = some f) := by
  obtain ⟨t, us, hus, ht, hlt, -, hmember, hname, -⟩ := statement_of_directiveLine hvalue hline
  have hstatement : entityStatement (e, found) scope (t :: us) =
      .ok (({ e with displayField := some f }, found), rest) := by
    show (member? e.toMembers >>= _) scope (t :: us) = _
    rw [bind_eq_ok (hmember (by decide) e.toMembers)]
    show (keyword? >>= _) scope (t :: us) = _
    rw [bind_eq_ok (keyword?_of_keyword ht us)]
    show (keyed name >>= _) scope (t :: us) = _
    rw [bind_eq_ok hname]
    rfl
  have hbehind := hcomes.line hf hus (by rw [ht]; rfl) hstatement hlt
  refine ⟨hbehind, fun hlater e' out he' => ?_⟩
  rw [← parser_entityBody, hbehind.parser_eq] at he'
  obtain ⟨s, mid, hs, he'⟩ := bind_eq_ok_iff.1 he'
  cases he'
  exact hlater.part_eq (·.1.displayField) hf displayField_of_entityStatement hs

theorem foreignModel_of_key {h : foreignBody.Header} {m : ForeignModel}
    (hline : DirectiveLine scope .key name f value rest mid)
    (hcomes : foreignBody.Comes scope ts h m mid) :
    foreignBody.Comes scope ts h { m with keyFields := [f] } rest ∧
      (NoLater foreignStatement scope .key { m with keyFields := [f] } rest →
        ∀ {m' out}, foreignModel scope ts = .ok (m', out) → m'.keyFields = [f]) := by
  obtain ⟨t, us, hus, ht, hlt, hfield, -, -, hname⟩ := statement_of_directiveLine hvalue hline
  have hstatement : foreignStatement m scope (t :: us) =
      .ok ({ m with keyFields := [f] }, rest) := by
    show (isAtField >>= _) scope (t :: us) = _
    rw [bind_eq_ok hfield]
    show (keyword? >>= _) scope (t :: us) = _
    rw [bind_eq_ok (keyword?_of_keyword ht us)]
    show (keyed names >>= _) scope (t :: us) = _
    rw [bind_eq_ok hname]
    rfl
  have hbehind := hcomes.line hf hus (by rw [ht]; rfl) hstatement hlt
  refine ⟨hbehind, fun hlater m' out hm' => ?_⟩
  rw [← parser_foreignBody, hbehind.parser_eq] at hm'
  obtain ⟨s, mid, hs, hm'⟩ := bind_eq_ok_iff.1 hm'
  cases hm'
  exact hlater.part_eq (·.keyFields) hf keyFields_of_foreignStatement hs

end

/-- A value that begins with the name of a type makes a field of its line, whatever word is in
front. No directive is looked for. -/
theorem field_of_opensType (hvalue : OpensType value) {word colon : Token}
    (hword : word.isWord = true) (hcolon : colon.kind = .colon) :
    let line := word :: colon :: (value ++ behind)
    (∀ e found, entityStatement (e, found) scope line =
      ((fun m => ({ e with toMembers := m }, found)) <$> memberField e.toMembers) scope line) ∧
    (∀ m, archetypeStatement m scope line = memberField m scope line) ∧
    (∀ m, foreignStatement m scope line =
      ((fun fields => { m with fields }) <$> anotherField m.fields) scope line) := by
  intro line
  have htype : (head scope (value ++ behind)).keyword?.any Keyword.opensType = true := by
    obtain ⟨t, ht, hopens⟩ := hvalue
    obtain ⟨us, rfl⟩ := List.head?_eq_some_iff.1 ht
    exact hopens
  have hfield : isAtField scope line = .ok (true, line) := by
    rw [isAtField_of_colon hword hcolon, htype]
  have hmember {α : Type} (m : Members) (f : Option Members → Parser α) :
      (member? m >>= f) scope line = (memberField m >>= fun m => f (some m)) scope line := by
    unfold member?
    rw [bind_assoc, bind_eq_ok hfield, if_pos rfl, bind_assoc]
    rfl
  refine ⟨fun e found => ?_, fun m => ?_, fun m => ?_⟩
  · rw [map_eq_bind]
    exact hmember e.toMembers _
  · rw [← bind_pure (memberField m)]
    exact hmember m _
  · unfold foreignStatement
    rw [bind_eq_ok hfield]
    rfl

/-- A directive whose value does not begin with the name of a type is recorded, for every value that
its grammar accepts: an invariant among those of the entity or archetype, in whose body the other
lines are read as they are without it, and the name of the display field or of a key, unless a later
line begins with the same keyword. Any other value makes a field of its line, whatever word is in
front. -/
theorem directives_recorded (hf : scope.final.kind = .endOfFile) :
    (¬ OpensType value →
      (∀ {h e found i r e' found'}, entityBody.Comes scope ts h (e, found) mid →
        DirectiveLine scope .invariant invariant i value (details ++ rest) mid →
        underneath ruleStatement { expr := i } scope (details ++ rest) = .ok (r, rest) →
        statements entityStatement (e, found) scope rest = .ok ((e', found'), out) →
        r.expr = i ∧ ∃ later, e'.invariants = e.invariants ++ later ∧
          entity scope ts = .ok ({ e' with
            invariants := e.invariants ++ r :: later,
            stateMachine := StateMachine.of? e'.fields found' }, out)) ∧
      (∀ {h m i r m'}, archetypeBody.Comes scope ts h m mid →
        DirectiveLine scope .invariant invariant i value (details ++ rest) mid →
        underneath ruleStatement { expr := i } scope (details ++ rest) = .ok (r, rest) →
        statements archetypeStatement m scope rest = .ok (m', out) →
        r.expr = i ∧ ∃ later, m'.invariants = m.invariants ++ later ∧
          archetype scope ts = .ok ({ toMembers := { m' with
            invariants := m.invariants ++ r :: later }, location := h.1, name := h.2 }, out)) ∧
      (∀ {h e found f}, entityBody.Comes scope ts h (e, found) mid →
        DirectiveLine scope .displayField name f value rest mid →
        entityBody.Comes scope ts h ({ e with displayField := some f }, found) rest ∧
        (NoLater entityStatement scope .displayField ({ e with displayField := some f }, found)
          rest → ∀ {e' out}, entity scope ts = .ok (e', out) → e'.displayField = some f)) ∧
      (∀ {h m f}, foreignBody.Comes scope ts h m mid →
        DirectiveLine scope .key name f value rest mid →
        foreignBody.Comes scope ts h { m with keyFields := [f] } rest ∧
        (NoLater foreignStatement scope .key { m with keyFields := [f] } rest →
          ∀ {m' out}, foreignModel scope ts = .ok (m', out) → m'.keyFields = [f]))) ∧
    (OpensType value → ∀ {word colon : Token}, word.isWord = true → colon.kind = .colon →
      let line := word :: colon :: (value ++ rest)
      (∀ e found, entityStatement (e, found) scope line =
        ((fun m => ({ e with toMembers := m }, found)) <$> memberField e.toMembers) scope line) ∧
      (∀ m, archetypeStatement m scope line = memberField m scope line) ∧
      (∀ m, foreignStatement m scope line =
        ((fun fields => { m with fields }) <$> anotherField m.fields) scope line)) := by
  refine ⟨fun hvalue => ⟨?_, ?_, ?_, ?_⟩, fun hvalue _ _ => field_of_opensType hvalue⟩
  · exact fun hcomes hline hunder => entity_of_invariant hf hvalue hline hunder hcomes
  · exact fun hcomes hline hunder => archetype_of_invariant hf hvalue hline hunder hcomes
  · exact fun hcomes hline => entity_of_displayField hf hvalue hline hcomes
  · exact fun hcomes hline => foreignModel_of_key hf hvalue hline hcomes

end

/-- A title that has to be there, is shown, and is the key. The line that should show `email`
instead declares a field. -/
theorem directives_recorded_title :
    let token (kind : TokenKind) (text : String) : Token := ⟨kind, text, 1, 1⟩
    let scope : Scope := ⟨"doc.dsl", none, token .endOfFile ""⟩
    let word (k : Keyword) : Token := token (.keyword k) k.spelling
    let behind := [token .newline "", token .dedent ""]
    let begins := [token .colon ":", token .newline "", token .indent ""]
    let doc := token .identifier "Doc"
    let title := token .identifier "title"
    let line (k : Keyword) (value : List Token) := word k :: token .colon ":" :: (value ++ behind)
    let given := [title, token .notEqual "!=", token .string ""]
    let email := token (.keyword .email) "email"
    let e : Entity := { location := ⟨"doc.dsl", 1, 1, none⟩, name := "Doc" }
    (∃ i e, invariant scope (given ++ behind) = .ok (i, behind) ∧
      entity scope (word .entity :: doc :: (begins ++ line .invariant given)) = .ok (e, []) ∧
      e.invariants = [{ expr := i }]) ∧
    (∃ i a, invariant scope (given ++ behind) = .ok (i, behind) ∧
      archetype scope (word .archetype :: doc :: (begins ++ line .invariant given)) = .ok (a, []) ∧
      a.invariants = [{ expr := i }]) ∧
    (∃ e, entity scope (word .entity :: doc :: (begins ++ line .displayField [title])) =
      .ok (e, []) ∧
      e.displayField = some "title") ∧
    (∃ m, foreignModel scope (word .foreignModel :: doc :: word .from :: title ::
      (begins ++ line .key [title])) = .ok (m, []) ∧ m.keyFields = ["title"]) ∧
    (∃ s, entityStatement (e, []) scope (line .displayField [email]) =
      .ok (s, [token .dedent ""]) ∧
      s.1.fields.map (fun f => (f.name, f.fieldType)) = [("display_field", .email)] ∧
      s.1.displayField = none) := by
  intro token scope word behind begins doc title line given email e
  have hf : scope.final.kind = .endOfFile := rfl
  have htitle : ¬ OpensType [title] := by
    rintro ⟨t, ⟨⟩, ht⟩
    cases ht
  have hgiven : ¬ OpensType given := by
    rintro ⟨t, ⟨⟩, ht⟩
    cases ht
  obtain ⟨⟨i, us⟩, hinvariant, hus⟩ := Except.exists_eq_ok_of_any
    (x := invariant scope (given ++ behind)) (p := fun r => r.2 == behind) (by decide +kernel)
  obtain rfl : us = behind := beq_iff_eq.1 hus
  have hunder : underneath ruleStatement { expr := i } scope [token .dedent ""] =
      .ok ({ expr := i }, [token .dedent ""]) := rfl
  have hline : DirectiveLine scope .invariant invariant i given [token .dedent ""]
      (line .invariant given) :=
    ⟨word .invariant, token .colon ":", token .newline "", rfl, rfl, rfl, rfl, hinvariant⟩
  have hnamed (k : Keyword) : DirectiveLine scope k name "title" [title]
      [token .dedent ""] (line k [title]) :=
    ⟨word k, token .colon ":", token .newline "", rfl, rfl, rfl, rfl, rfl⟩
  have hentity (k : Keyword) (value : List Token) : entityBody.Comes scope
      (word .entity :: doc :: (begins ++ line k value)) _ _ (line k value) :=
    ⟨begins ++ line k value, line k value, rfl, rfl, .refl⟩
  have harchetype (k : Keyword) (value : List Token) : archetypeBody.Comes scope
      (word .archetype :: doc :: (begins ++ line k value)) _ _ (line k value) :=
    ⟨begins ++ line k value, line k value, rfl, rfl, .refl⟩
  have hforeign (k : Keyword) (value : List Token) : foreignBody.Comes scope
      (word .foreignModel :: doc :: word .from :: title :: (begins ++ line k value)) _ _
      (line k value) :=
    ⟨begins ++ line k value, line k value, rfl, rfl, .refl⟩
  have hdirectives {ts mid value : List Token} (hvalue : ¬ OpensType value) :=
    (@directives_recorded scope ts mid value [] [token .dedent ""] [] hf).1 hvalue
  refine ⟨⟨i, ?_⟩, ⟨i, ?_⟩, ?_, ?_, ?_⟩
  · obtain ⟨hrecorded, -⟩ := hdirectives hgiven
    obtain ⟨-, later, hlater, hread⟩ := hrecorded (hentity .invariant given) hline hunder
      (statements_of_dedent hf rfl rfl)
    exact ⟨_, hinvariant, hread, congrArg (_ :: ·) hlater.symm⟩
  · obtain ⟨-, hrecorded, -⟩ := hdirectives hgiven
    obtain ⟨-, later, hlater, hread⟩ := hrecorded (harchetype .invariant given) hline hunder
      (statements_of_dedent hf rfl rfl)
    exact ⟨_, hinvariant, hread, congrArg (_ :: ·) hlater.symm⟩
  · obtain ⟨-, -, hrecorded, -⟩ := hdirectives htitle
    obtain ⟨hcomes, hlater⟩ := hrecorded (hentity .displayField [title]) (hnamed .displayField)
    have hread := hcomes.parser_eq.trans (bind_eq_ok (statements_of_dedent hf rfl rfl))
    rw [parser_entityBody] at hread
    exact ⟨_, hread, hlater (.of_dedent _ hf rfl rfl) hread⟩
  · obtain ⟨-, -, -, hrecorded⟩ := hdirectives htitle
    obtain ⟨hcomes, hlater⟩ := hrecorded (hforeign .key [title]) (hnamed .key)
    have hread := hcomes.parser_eq.trans (bind_eq_ok (statements_of_dedent hf rfl rfl))
    rw [parser_foreignBody] at hread
    exact ⟨_, hread, hlater (.of_dedent _ hf rfl rfl) hread⟩
  · have hopens : OpensType [email] := ⟨email, rfl, rfl⟩
    have hword : (word .displayField).isWord = true := rfl
    have hcolon : (token .colon ":").kind = .colon := rfl
    obtain ⟨hfield, -⟩ :=
      (@directives_recorded scope [] [] [email] [] behind [] hf).2 hopens hword hcolon
    obtain ⟨⟨m, us⟩, hm, hmember⟩ := Except.exists_eq_ok_of_any
      (x := memberField e.toMembers scope (line .displayField [email]))
      (p := fun r => decide (r.2 = [token .dedent ""] ∧
        r.1.fields.map (fun f => (f.name, f.fieldType)) = [("display_field", .email)]))
      (by decide +kernel)
    obtain ⟨rfl, hfields⟩ := of_decide_eq_true hmember
    exact ⟨_, (hfield e []).trans (map_eq_ok_iff.2 ⟨m, hm, rfl⟩), hfields, rfl⟩

/-- The name of a type is a name and can be the left side of an invariant, but the line is read as a
field: it does not set the display field, and it does not even end where the field does. -/
theorem directives_of_type_names :
    let email : Token := ⟨.keyword .email, "email", 3, 18⟩
    let date : Token := ⟨.keyword .date, "date", 3, 14⟩
    let scope : Scope := ⟨"doc.dsl", none, ⟨.endOfFile, "", 4, 1⟩⟩
    name scope [email, ⟨.newline, "", 3, 23⟩] = .ok ("email", [⟨.newline, "", 3, 23⟩]) ∧
    (∃ m, parseModule "doc.dsl" "entity Doc:\n  email: str(20)\n  display_field: email\n" = .ok m ∧
      (m.declarations.named .entity).map (fun e => (e.displayField, e.fields.map (·.name))) =
        [(none, ["email", "display_field"])]) ∧
    (invariant scope [date, ⟨.greater, ">", 3, 19⟩, ⟨.keyword .today, "today", 3, 21⟩,
      ⟨.newline, "", 3, 26⟩]).toOption.map (·.2) = some [⟨.newline, "", 3, 26⟩] ∧
    (parseModule "doc.dsl" "entity Doc:\n  date: date\n  invariant: date > today\n").toOption =
      none := by
  refine ⟨rfl, ?_, by decide +kernel, ?_⟩
  · obtain ⟨m, hm, hfields⟩ := Except.exists_eq_ok_of_any
      (x := parseModule "doc.dsl" "entity Doc:\n  email: str(20)\n  display_field: email\n")
      (p := fun m => (m.declarations.named .entity).map (fun e =>
        (e.displayField, e.fields.map (·.name))) == [(none, ["email", "display_field"])])
      (by decide +kernel)
    exact ⟨m, hm, beq_iff_eq.1 hfields⟩
  · have hfails : (parseModule "doc.dsl"
        "entity Doc:\n  date: date\n  invariant: date > today\n").toOption.isNone = true := by
      decide +kernel
    exact Option.isNone_iff_eq_none.1 hfails

end Blueprint.Parser
