import Blueprint.Flow.Grammar
import Blueprint.Proofs.Printed.Texts

/-!
# Flow steps

How the steps of flows are written, and that they are read if they are written so
(`flowAction_of_written`) and only then (`consumes_flowAction`), but for one thing: the verb counts
by its text alone. So it may stand between quotes, and in the tokens of a text this is the only
other way to write it (`flowStep_exact`).

`Consumes` says of a parser what the tokens that it reads are like, wherever it succeeds.
-/

namespace Blueprint

/-! ## How steps are written -/

/-- One word, reserved or not. -/
def AnyWord (s : String) (ts : List Token) : Prop :=
  ∃ t : Token, ts = [t] ∧ t.isWord = true ∧ t.text = s

/-- A string, a number, or words with points between them. -/
inductive TargetWritten : String → List Token → Prop where
  | literal {t : Token} (ht : t.kind = .string ∨ t.kind = .number) : TargetWritten t.text [t]
  | path {ss : List String} {ts : List Token} (h : Separated .dot AnyWord ss ts) :
    TargetWritten (".".intercalate ss) ts

/-- A target starts with no point and no mark of layout. -/
theorem TargetWritten.exists_first {s : String} {ts : List Token} (h : TargetWritten s ts) :
    ∃ t us, ts = t :: us ∧ t.kind ∉ [.dot, .newline, .dedent, .endOfFile] := by
  cases h with
  | @literal t ht =>
    refine ⟨t, [], rfl, ?_⟩
    rcases ht with ht | ht <;> (rw [ht]; decide)
  | path h =>
    obtain ⟨s, ss, us, vs, -, rfl, ⟨t, rfl, ht, -⟩, -⟩ := h.exists_first
    refine ⟨t, vs, rfl, ?_⟩
    unfold Token.isWord at ht
    split at ht <;> first | (next hk => rw [hk]; simp) | cases ht

/-- Targets, one behind the other. -/
inductive TargetsWritten : List String → List Token → Prop where
  | nil : TargetsWritten [] []
  | more {ss : List String} {s : String} {ts us : List Token} (h : TargetsWritten ss ts)
    (hs : TargetWritten s us) : TargetsWritten (ss ++ [s]) (ts ++ us)

namespace FlowStep

/-- The word that a step starts with. -/
def verb : FlowStep → String
  | navigate _ => "navigate"
  | click _ => "click"
  | fill _ _ => "fill"
  | wait _ => "wait"
  | assert _ _ => "assert"
  | snapshot => "snapshot"

/-- The tokens behind the verb. -/
inductive OperandsWritten : FlowStep → List Token → Prop where
  | navigate {s : String} {ts : List Token} (h : TargetWritten s ts) :
    OperandsWritten (navigate s) ts
  | click {s : String} {ts : List Token} (h : TargetWritten s ts) : OperandsWritten (click s) ts
  | fill {s : String} {ts : List Token} {t : Token} (h : TargetWritten s ts)
    (ht : t.kind = .string) : OperandsWritten (fill s t.text) (ts ++ [t])
  | wait {d : Duration} {ts : List Token} (h : d.Written ts) (hd : d.Writable) :
    OperandsWritten (wait d) ts
  | assert {t : Token} {ss : List String} {ts : List Token} (ht : t.isWord = true)
    (h : TargetsWritten ss ts) : OperandsWritten (assert t.text ss) (t :: ts)
  | snapshot : OperandsWritten snapshot []

/-- The verb, as a word, and what belongs behind it. -/
inductive Written (step : FlowStep) : List Token → Prop where
  | mk {v : Token} {ts : List Token} (hword : v.isWord = true) (hv : v.text = step.verb)
    (h : step.OperandsWritten ts) : Written step (v :: ts)

end FlowStep

namespace Parser

/-- A statement ends here, and what is behind it is left: its line ends, or its block or the file
does. -/
inductive StatementEnds (scope : Scope) : List Token → List Token → Prop where
  | line {t : Token} {rest : List Token} (ht : t.kind = .newline) :
    StatementEnds scope (t :: rest) rest
  | mark {rest : List Token}
    (h : (head scope rest).kind = .dedent ∨ (head scope rest).kind = .endOfFile) :
    StatementEnds scope rest rest

/-! ## What parsers consume -/

section

variable {α β σ : Type} {scope : Scope} {ts : List Token} {t : Token} {v : α} {p p' : Parser α}
  {q : α → Parser β} {W : α → List Token → Prop} {Q : β → List Token → Prop}

/-- Where the parser succeeds in front of the tokens, those that it reads have the property, with
the value. -/
def Consumes (scope : Scope) (ts : List Token) (p : Parser α) (W : α → List Token → Prop) : Prop :=
  ∀ ⦃v rest⦄, p scope ts = .ok (v, rest) → ∃ us, ts = us ++ rest ∧ W v us

namespace Consumes

theorem of_never (h : ∀ {v rest}, p scope ts ≠ .ok (v, rest)) : Consumes scope ts p W :=
  fun _ _ hv => absurd hv h

theorem pure (h : W v []) : Consumes scope ts (Pure.pure v) W := by
  intro w rest hw
  cases hw
  exact ⟨[], rfl, h⟩

theorem bind (hp : Consumes scope ts p W)
    (hq : ∀ v us rest, W v us → Consumes scope rest (q v) fun w vs => Q w (us ++ vs)) :
    Consumes scope ts (p >>= q) Q := by
  intro w rest h
  obtain ⟨v, mid, hv, hw⟩ := bind_eq_ok_iff.1 h
  obtain ⟨us, rfl, hus⟩ := hp hv
  obtain ⟨vs, rfl, hvs⟩ := hq v us mid hus hw
  exact ⟨us ++ vs, (List.append_assoc ..).symm, hvs⟩

theorem map {f : α → β} (hp : Consumes scope ts p W) (hf : ∀ v us, W v us → Q (f v) us) :
    Consumes scope ts (p >>= fun v => Pure.pure (f v)) Q := by
  refine hp.bind fun v us _ h => .pure ?_
  rw [List.append_nil]
  exact hf v us h

/-! ### Single tokens -/

theorem current {q : Token → Parser α} (h : Consumes scope ts (q (head scope ts)) W) :
    Consumes scope ts (current >>= q) W := by
  intro v rest hv
  rw [bind_eq_ok (current_apply _ _)] at hv
  exact h hv

theorem advance {q : Token → Parser α} (h : Consumes scope ts (q t) fun v us => W v (t :: us)) :
    Consumes scope (t :: ts) (advance >>= q) W := by
  intro v rest hv
  obtain ⟨us, rfl, hus⟩ := h hv
  exact ⟨t :: us, rfl, hus⟩

theorem isAt {k : TokenKind} (hp : (head scope ts).kind = k → Consumes scope ts p W)
    (hp' : Consumes scope ts p' W) :
    Consumes scope ts (isAt k >>= fun b => if b = true then p else p') W := by
  intro v rest hv
  rw [bind_eq_ok (isAt_apply _ _ _)] at hv
  split at hv
  · next hk => exact hp (beq_iff_eq.1 hk) hv
  · exact hp' hv

/-- A loop consumes what its steps do. The induction is on the number of tokens left. -/
theorem iterate {step : σ → Parser (Option σ)} {I : σ → List Token → Prop} {s : σ}
    {us : List Token} (hs : I s us) (hstep : ∀ s us ts, I s us →
      Consumes scope ts (step s) fun o vs => I (o.getD s) (us ++ vs)) :
    Consumes scope ts (iterate step s) fun s vs => I s (us ++ vs) := by
  intro s' rest h
  change iterateOn step scope s ts = .ok (s', rest) at h
  induction hn : ts.length using Nat.strongRecOn generalizing s us ts with
  | ind n ih =>
    obtain ⟨next, mid, hnext⟩ := exists_step_of_iterateOn h
    obtain ⟨vs, rfl, hI⟩ := hstep s us ts hs hnext
    cases next with
    | none =>
      rw [iterateOn_of_none hnext] at h
      cases h
      exact ⟨vs, rfl, hI⟩
    | some s'' =>
      rw [iterateOn_of_some hnext] at h
      split at h
      · next hlt =>
        obtain ⟨vs', rfl, hI'⟩ := ih mid.length (hn ▸ hlt) hI h rfl
        rw [List.append_assoc] at hI'
        exact ⟨vs ++ vs', (List.append_assoc ..).symm, hI'⟩
      · cases h
        exact ⟨vs, rfl, hI⟩

end Consumes

end

section

variable {α : Type} {scope : Scope} (hf : scope.final.kind = .endOfFile)

include hf

/-- A token that is looked at is there, unless it is the end of the file. -/
theorem exists_cons_of_head {k : TokenKind} {ts : List Token} (hk : (head scope ts).kind = k)
    (hne : k ≠ .endOfFile) : ∃ t us, ts = t :: us ∧ t.kind = k := by
  cases ts with
  | nil => exact absurd (hk.symm.trans hf) hne
  | cons t us => exact ⟨t, us, rfl, hk⟩

theorem consumes_expect {k : TokenKind} (hne : k ≠ .endOfFile) (ts : List Token) :
    Consumes scope ts (expect k) fun t us => us = [t] ∧ t.kind = k := by
  intro t rest h
  obtain ⟨hk, rfl, rfl⟩ := expect_eq_ok_iff.1 h
  obtain ⟨t, us, rfl, ht⟩ := exists_cons_of_head hf hk hne
  exact ⟨[t], rfl, rfl, ht⟩

theorem consumes_string (ts : List Token) : Consumes scope ts string (IsToken .string) :=
  (consumes_expect hf (by decide) ts).map fun t _ ht => ⟨t, ht.1, ht.2, rfl⟩

theorem consumes_accept {k : TokenKind} (hne : k ≠ .endOfFile) (ts : List Token) :
    Consumes scope ts (accept k) fun b us => if b then IsSign k us else us = [] := by
  intro b rest h
  rw [accept_apply] at h
  split at h
  · next hk =>
    obtain ⟨t, us, rfl, ht⟩ := exists_cons_of_head hf hk hne
    cases h
    exact ⟨[t], rfl, t, rfl, ht⟩
  · cases h
    exact ⟨[], rfl, rfl⟩

/-- A choice for a word that is there. -/
theorem consumes_isAtWord {p p' : Parser α} {W : α → List Token → Prop} {ts : List Token}
    (hp : ∀ t us, ts = t :: us → t.isWord = true → Consumes scope (t :: us) p W)
    (hp' : Consumes scope ts p' W) :
    Consumes scope ts (isAtWord >>= fun b => if b = true then p else p') W := by
  intro s rest h
  rw [bind_eq_ok (isAtWord_apply _ _)] at h
  split at h
  · next hw =>
    have hne : (head scope ts).kind ≠ .endOfFile := by
      intro hk
      unfold Token.isWord at hw
      rw [hk] at hw
      cases hw
    obtain ⟨t, us, rfl, -⟩ := exists_cons_of_head hf rfl hne
    exact hp t us rfl hw h
  · exact hp' h

theorem consumes_word (ts : List Token) : Consumes scope ts word AnyWord := by
  refine consumes_isAtWord hf (fun t us _ ht => ?_) (.of_never unexpected_ne_ok)
  exact .advance (.pure ⟨t, rfl, ht, rfl⟩)

theorem consumes_separated {k : TokenKind} {item : Parser α} {W : α → List Token → Prop}
    (hne : k ≠ .endOfFile) (hitem : ∀ ts, Consumes scope ts item W) (ts : List Token) :
    Consumes scope ts (separated k item) (Separated k W) := by
  have hconcat (as : List α) (ts : List Token) : Consumes scope ts
      (do return as ++ [← item]) fun as' us => ∃ a, as' = as ++ [a] ∧ W a us :=
    (hitem ts).map fun a us h => ⟨a, rfl, h⟩
  refine (hconcat [] ts).bind ?_
  rintro _ us rest ⟨a, rfl, ha⟩
  refine Consumes.iterate (.one ha) fun as us ts has => ?_
  refine (consumes_accept hf hne ts).bind fun b vs rest hb => ?_
  cases b with
  | true =>
    obtain ⟨t, rfl, ht⟩ := hb
    refine (hconcat as rest).map ?_
    rintro _ ws ⟨a, rfl, ha⟩
    exact .more has ht ha
  | false =>
    cases hb
    refine .pure ?_
    rw [List.append_nil, List.append_nil]
    exact has

/-! ### Durations -/

theorem consumes_count (ts : List Token) : Consumes scope ts count fun n us =>
    ∃ t : Token, us = [t] ∧ t.kind = .number ∧ IsNumeral t.text.toList ∧
      Text.digitsValue t.text.toList = n ∧ n < Text.countBound := by
  refine (consumes_expect hf (by decide) ts).bind ?_
  rintro t _ rest ⟨rfl, ht⟩
  split
  · next n hn => exact .pure ⟨t, rfl, ht, Text.natural?_eq_some_iff.1 hn⟩
  · exact .of_never failAt_ne_ok

theorem consumes_duration (ts : List Token) :
    Consumes scope ts duration fun d us => d.Written us ∧ d.Writable := by
  have hinOrder : Consumes scope ts durationInOrder fun d us => d.Written us ∧ d.Writable := by
    refine .isAt (fun hk => ?_) ?_
    · obtain ⟨t, us, rfl, ht⟩ := exists_cons_of_head hf hk (by decide)
      refine .advance ?_
      split
      · next d hd =>
        obtain ⟨hcompact, hwritable⟩ := Duration.isCompact_of_parse? ht hd
        exact .pure ⟨.compact hcompact, hwritable⟩
      · exact .of_never failAt_ne_ok
    · refine (consumes_count hf ts).bind ?_
      rintro n _ rest ⟨t, rfl, ht, hnumeral, hvalue, hlt⟩
      refine consumes_isAtWord hf (fun u us _ hu => ?_) (.of_never unexpected_ne_ok)
      refine .advance ?_
      split
      · next unit hunit =>
        have hbound : Text.countBound < Text.amountBound := by decide
        exact .pure ⟨.spelledOut ht hnumeral hvalue hlt hu hunit, Nat.lt_trans hlt hbound⟩
      · exact .of_never failAt_ne_ok
  exact fun d rest h => hinOrder (duration_eq_ok_iff.1 h)

/-! ### Steps -/

theorem consumes_flowTarget (ts : List Token) : Consumes scope ts flowTarget TargetWritten := by
  have hpath : Consumes scope ts modulePath TargetWritten :=
    (consumes_separated hf (by decide) (consumes_word hf) ts).map fun _ _ => .path
  have hliteral {k : TokenKind} (hk : (head scope ts).kind = k) (hl : k = .string ∨ k = .number) :
      Consumes scope ts (do return (← advance).text) TargetWritten := by
    have hne : k ≠ .endOfFile := by
      rcases hl with rfl | rfl <;> decide
    obtain ⟨t, us, rfl, rfl⟩ := exists_cons_of_head hf hk hne
    exact .advance (.pure (.literal hl))
  refine .current ?_
  split
  · next hk => exact hliteral hk (.inl rfl)
  · next hk => exact hliteral hk (.inr rfl)
  · split
    · exact hpath
    · exact .of_never unexpected_ne_ok

theorem consumes_flowTargets (ts : List Token) :
    Consumes scope ts flowTargets TargetsWritten := by
  refine Consumes.iterate TargetsWritten.nil fun ss us ts hss => .current ?_
  have hstop : Consumes scope ts (Pure.pure none : Parser (Option (List String)))
      fun o vs => TargetsWritten (o.getD ss) (us ++ vs) := by
    refine .pure ?_
    rw [List.append_nil]
    exact hss
  split
  · exact hstop
  · exact hstop
  · exact hstop
  · exact (consumes_flowTarget hf ts).map fun s vs hs => .more hss hs

theorem consumes_flowAction (v : Token) (ts : List Token) :
    Consumes scope (v :: ts) flowAction fun step us =>
      ∃ os, us = v :: os ∧ v.text = step.verb ∧ step.OperandsWritten os := by
  refine .current ?_
  rw [head_cons]
  split
  · next hv =>
    exact .advance ((consumes_flowTarget hf ts).map fun s us hs => ⟨us, rfl, hv, .navigate hs⟩)
  · next hv =>
    exact .advance ((consumes_flowTarget hf ts).map fun s us hs => ⟨us, rfl, hv, .click hs⟩)
  · next hv =>
    refine .advance ((consumes_flowTarget hf ts).bind fun s us rest hs => ?_)
    refine (consumes_string hf rest).map ?_
    rintro _ _ ⟨t, rfl, ht, rfl⟩
    exact ⟨_, rfl, hv, .fill hs ht⟩
  · next hv =>
    exact .advance ((consumes_duration hf ts).map fun d us hd => ⟨us, rfl, hv, .wait hd.1 hd.2⟩)
  · next hv =>
    refine .advance ((consumes_word hf ts).bind ?_)
    rintro _ _ rest ⟨t, rfl, ht, rfl⟩
    exact (consumes_flowTargets hf rest).map fun ss us hss => ⟨_, rfl, hv, .assert ht hss⟩
  · next hv => exact .advance (.pure ⟨[], rfl, hv, .snapshot⟩)
  · exact .of_never unexpected_ne_ok

end

/-! ## What is written is read -/

section

variable {scope : Scope} {s : String} {ss : List String} {step : FlowStep} {v : Token}
  {ts us rest : List Token}

/-- What cannot stand behind a target: a point, with which it goes on. -/
theorem StatementEnds.head_kind (h : StatementEnds scope ts rest) :
    (head scope ts).kind = .newline ∨ (head scope ts).kind = .dedent ∨
      (head scope ts).kind = .endOfFile := by
  cases h with
  | line ht => exact .inl ht
  | mark h => exact .inr h

theorem flowTarget_of_written (h : TargetWritten s ts) (hrest : (head scope rest).kind ≠ .dot) :
    flowTarget scope (ts ++ rest) = .ok (s, rest) := by
  unfold flowTarget
  rw [bind_eq_ok (current_apply _ _)]
  cases h with
  | literal ht =>
    rw [List.singleton_append, head_cons]
    rcases ht with ht | ht
    · rw [ht]
      exact bind_eq_ok (advance_apply _ _)
    · rw [ht]
      exact bind_eq_ok (advance_apply _ _)
  | @path ss ts h =>
    have hword : Recovers word scope (ts ++ rest).length (fun _ => True) AnyWord := by
      rintro s _ more ⟨t, rfl, ht, rfl⟩ - -
      unfold word
      rw [bind_eq_ok (isAtWord_apply _ _), List.singleton_append, head_cons, if_pos ht]
      exact bind_eq_ok (advance_apply _ _)
    have hread : modulePath scope (ts ++ rest) = .ok (".".intercalate ss, rest) :=
      bind_eq_ok (recovers_separated hword (fun _ _ _ => trivial) ss ts rest h ⟨trivial, hrest⟩
        (Nat.le_refl _))
    obtain ⟨-, -, us, vs, -, rfl, ⟨t, rfl, ht, -⟩, -⟩ := h.exists_first
    rw [List.append_assoc, List.singleton_append] at hread ⊢
    have hchoice : (if t.isWord = true then modulePath else unexpected "target") scope
        (t :: (vs ++ rest)) = .ok (".".intercalate ss, rest) := by
      rw [if_pos ht]
      exact hread
    rw [head_cons]
    unfold Token.isWord at ht
    split at ht
    · next hk =>
      rw [hk]
      exact hchoice
    · next hk =>
      rw [hk]
      exact hchoice
    · cases ht

/-- One round of the loop over targets. -/
def flowTargetStep (ss : List String) : Parser (Option (List String)) := do
  match (← current).kind with
  | .newline | .dedent | .endOfFile => return none
  | _ => return some (ss ++ [← flowTarget])

theorem flowTargetStep_of_written (h : TargetWritten s ts) (hrest : (head scope rest).kind ≠ .dot)
    (ss : List String) :
    flowTargetStep ss scope (ts ++ rest) = .ok (some (ss ++ [s]), rest) := by
  have hread : (do return some (ss ++ [← flowTarget]) : Parser (Option (List String))) scope
      (ts ++ rest) = .ok (some (ss ++ [s]), rest) := bind_eq_ok (flowTarget_of_written h hrest)
  obtain ⟨t, us, rfl, ht⟩ := h.exists_first
  unfold flowTargetStep
  rw [bind_eq_ok (current_apply _ _)]
  rw [List.cons_append] at hread ⊢
  rw [head_cons]
  cases hk : t.kind with
  | newline | dedent | endOfFile =>
    rw [hk] at ht
    exact absurd (by simp) ht
  | _ => exact hread

theorem flowTargetStep_of_end (h : StatementEnds scope ts rest) (ss : List String) :
    flowTargetStep ss scope ts = .ok (none, ts) := by
  unfold flowTargetStep
  rw [bind_eq_ok (current_apply _ _)]
  rcases h.head_kind with hk | hk | hk <;> (rw [hk]; rfl)

/-- Targets that are read are the state of the loop. The induction is on the targets, from the
left. -/
theorem iterateOn_flowTargetStep (h : TargetsWritten ss ts)
    (hrest : (head scope rest).kind ≠ .dot) :
    iterateOn flowTargetStep scope [] (ts ++ rest) =
      iterateOn flowTargetStep scope ss rest := by
  induction h generalizing rest with
  | nil => rfl
  | @more ss s ts us _ hs ih =>
    obtain ⟨t, us', rfl, ht⟩ := hs.exists_first
    have hdot : (head scope (t :: us' ++ rest)).kind ≠ .dot :=
      fun hk => ht (hk ▸ List.mem_cons_self)
    rw [List.append_assoc, ih hdot, iterateOn_of_some (flowTargetStep_of_written hs hrest ss),
      if_pos]
    simp only [List.cons_append, List.length_cons, List.length_append]
    omega

theorem flowTargets_of_written {behind : List Token} (h : TargetsWritten ss ts)
    (hends : StatementEnds scope rest behind) :
    flowTargets scope (ts ++ rest) = .ok (ss, rest) := by
  have hdot : (head scope rest).kind ≠ .dot := by
    rcases hends.head_kind with hk | hk | hk <;> (rw [hk]; decide)
  change iterateOn flowTargetStep scope [] (ts ++ rest) = _
  rw [iterateOn_flowTargetStep h hdot]
  exact iterateOn_of_none (flowTargetStep_of_end hends ss)

theorem flowAction_of_written {behind : List Token} (hv : v.text = step.verb)
    (h : step.OperandsWritten ts) (hends : StatementEnds scope rest behind) :
    flowAction scope (v :: (ts ++ rest)) = .ok (step, rest) := by
  have hdot : (head scope rest).kind ≠ .dot := by
    rcases hends.head_kind with hk | hk | hk <;> (rw [hk]; decide)
  unfold flowAction
  rw [bind_eq_ok (current_apply _ _), head_cons, hv]
  cases h with
  | navigate h =>
    show (advance >>= fun _ => flowTarget >>= fun s => pure (.navigate s) : Parser FlowStep) _ _ = _
    rw [bind_eq_ok (advance_apply _ _), List.tail_cons, bind_eq_ok (flowTarget_of_written h hdot)]
    rfl
  | click h =>
    show (advance >>= fun _ => flowTarget >>= fun s => pure (.click s) : Parser FlowStep) _ _ = _
    rw [bind_eq_ok (advance_apply _ _), List.tail_cons, bind_eq_ok (flowTarget_of_written h hdot)]
    rfl
  | @fill s ts t h ht =>
    have hstring : (head scope (t :: rest)).kind ≠ .dot := by
      rw [head_cons, ht]
      decide
    have hvalue : string scope (t :: rest) = .ok (t.text, rest) := bind_eq_ok (expect_of_eq ht)
    show (advance >>= fun _ => flowTarget >>= fun s => string >>= fun x =>
      pure (.fill s x) : Parser FlowStep) _ _ = _
    rw [bind_eq_ok (advance_apply _ _), List.tail_cons, List.append_assoc, List.singleton_append,
      bind_eq_ok (flowTarget_of_written h hstring), bind_eq_ok hvalue]
    rfl
  | wait h hd =>
    show (advance >>= fun _ => duration >>= fun d => pure (.wait d) : Parser FlowStep) _ _ = _
    rw [bind_eq_ok (advance_apply _ _), List.tail_cons, bind_eq_ok (duration_of_written h hd rest)]
    rfl
  | @assert t ss ts ht h =>
    have hcheck : word scope (t :: (ts ++ rest)) = .ok (t.text, ts ++ rest) := by
      unfold word
      rw [bind_eq_ok (isAtWord_apply _ _), head_cons, if_pos ht]
      rfl
    show (advance >>= fun _ => word >>= fun s => flowTargets >>= fun ss =>
      pure (.assert s ss) : Parser FlowStep) _ _ = _
    rw [bind_eq_ok (advance_apply _ _), List.tail_cons, List.cons_append, bind_eq_ok hcheck,
      bind_eq_ok (flowTargets_of_written h hends)]
    rfl
  | snapshot => rfl

theorem endStatement_eq_ok_iff (hf : scope.final.kind = .endOfFile) :
    endStatement scope ts = .ok ((), rest) ↔ StatementEnds scope ts rest := by
  unfold endStatement
  rw [bind_eq_ok (isAt_apply _ _ _)]
  by_cases he : (head scope ts).kind = .endOfFile
  · rw [if_pos (beq_iff_eq.2 he)]
    constructor
    · intro h
      cases h
      exact .mark (.inr he)
    · intro h
      cases h with
      | line ht => cases ht.symm.trans he
      | mark => rfl
  rw [if_neg (by rwa [beq_iff_eq]), bind_eq_ok (isAt_apply _ _ _)]
  by_cases hd : (head scope ts).kind = .dedent
  · rw [if_pos (beq_iff_eq.2 hd)]
    constructor
    · intro h
      cases h
      exact .mark (.inl hd)
    · intro h
      cases h with
      | line ht => cases ht.symm.trans hd
      | mark => rfl
  rw [if_neg (by rwa [beq_iff_eq])]
  constructor
  · intro h
    obtain ⟨_, mid, hline, h⟩ := bind_eq_ok_iff.1 h
    obtain ⟨hk, -, rfl⟩ := expect_eq_ok_iff.1 hline
    obtain ⟨t, us, rfl, ht⟩ := exists_cons_of_head hf hk (by decide)
    cases h
    exact .line ht
  · intro h
    cases h with
    | line ht => exact bind_eq_ok (expect_of_eq ht)
    | mark h => exact absurd h (not_or.2 ⟨hd, he⟩)

/-- A step is read if its first token has the text of a verb and what belongs behind it follows, up
to the end of the statement, and only then. -/
theorem flowStep_eq_ok_iff (hf : scope.final.kind = .endOfFile) :
    flowStep scope (v :: ts) = .ok (step, rest) ↔ v.text = step.verb ∧
      ∃ us behind, ts = us ++ behind ∧ step.OperandsWritten us ∧
        StatementEnds scope behind rest := by
  unfold flowStep closing
  constructor
  · intro h
    obtain ⟨step, mid, haction, h⟩ := bind_eq_ok_iff.1 h
    obtain ⟨_, mid', hend, h⟩ := bind_eq_ok_iff.1 h
    cases h
    obtain ⟨_, hts, us, rfl, hv, hus⟩ := consumes_flowAction hf v ts haction
    exact ⟨hv, us, mid, List.tail_eq_of_cons_eq hts, hus, (endStatement_eq_ok_iff hf).1 hend⟩
  · rintro ⟨hv, us, behind, rfl, hus, hends⟩
    rw [bind_eq_ok (flowAction_of_written hv hus hends),
      bind_eq_ok ((endStatement_eq_ok_iff hf).2 hends)]
    rfl

end

end Parser

/-! ## Verbs in a text -/

namespace Lexeme

variable {c : Char} {cs : List Char} {l : Lexeme}

/-- What starts with a digit is read with it. -/
theorem exists_digit_of_numeral (hc : c.isDigit = true) (h : numeral (c :: cs) = .ok l) :
    ∃ rest, l.text.toList = c :: rest := by
  unfold numeral at h
  rw [List.takeWhile_cons_of_pos hc] at h
  dsimp only at h
  split at h
  · split at h
    · cases h
      exact ⟨_, String.toList_ofList⟩
    · cases h
      exact ⟨_, String.toList_ofList⟩
  · split at h
    · split at h
      · cases h
        exact ⟨_, String.toList_ofList⟩
      · cases h
    · cases h
      exact ⟨_, String.toList_ofList⟩
  · cases h
    exact ⟨_, String.toList_ofList⟩

theorem isWord_or_string_of_read {line column : Nat} (h : read c cs = .ok l)
    (hl : IsWord l.text.toList) :
    Token.isWord ⟨l.kind, l.text, line, column⟩ = true ∨ l.kind = .string := by
  unfold read at h
  split at h
  · obtain ⟨_, -, h⟩ := Except.bind_eq_ok_iff.1 h
    cases h
    exact .inr rfl
  split at h
  · next hd =>
    obtain ⟨rest, htext⟩ := exists_digit_of_numeral hd h
    rw [htext] at hl
    have hno := Text.isDigit_of_startsWord hl.1
    rw [hd] at hno
    cases hno
  split at h
  · cases h
    exact .inl (Token.Spells.isWord ⟨kind_word _, rfl⟩)
  split at h
  · next hs =>
    cases h
    unfold sign? at hs
    split at hs <;> cases hs <;> exact absurd hl (by decide)
  · cases h

end Lexeme

/-- A token of a text whose own text is a word is that word or a string. -/
theorem isWord_or_string_of_tokenize {file text : String} {ts : List Token}
    (h : tokenize file text = .ok ts) :
    ∀ t ∈ ts, IsWord t.text.toList → t.isWord = true ∨ t.kind = .string := by
  refine forall_of_tokenize (fun {t} _ htext ht => ?_)
    (fun hl => Lexeme.isWord_or_string_of_read hl) h
  rw [htext] at ht
  exact ht.elim

/-! ## Steps and their grammar -/

theorem FlowStep.isWord_verb (step : FlowStep) : IsWord step.verb.toList := by
  cases step <;> (dsimp only [verb]; decide)

theorem FlowStep.Written.exists_verb {step : FlowStep} {v : Token} {ts us behind : List Token}
    (h : step.Written us) (e : v :: ts = us ++ behind) : v.isWord = true ∧ v.text = step.verb ∧
      ∃ os, ts = os ++ behind ∧ step.OperandsWritten os := by
  obtain ⟨hword, hv, hos⟩ := h
  cases e
  exact ⟨hword, hv, _, rfl, hos⟩

/-- A line is the step that the grammar says if it starts with a word, and it is read as that step.
Where it starts with something else it is read as if that were a word with its text. In the tokens
of a text this can only be a string. -/
theorem flowStep_exact {scope : Scope} (hf : scope.final.kind = .endOfFile) (v : Token)
    (ts : List Token) :
    (∀ step rest, (∃ us behind, v :: ts = us ++ behind ∧ step.Written us ∧
        Parser.StatementEnds scope behind rest) ↔
      v.isWord = true ∧ Parser.flowStep scope (v :: ts) = .ok (step, rest)) ∧
    (∀ step rest, Parser.flowStep scope (v :: ts) = .ok (step, rest) ↔ v.text = step.verb ∧
      ∃ us behind, ts = us ++ behind ∧ step.OperandsWritten us ∧
        Parser.StatementEnds scope behind rest) ∧
    ∀ file text tokens r, tokenize file text = .ok tokens → v ∈ tokens →
      Parser.flowStep scope (v :: ts) = .ok r → v.isWord = true ∨ v.kind = .string := by
  refine ⟨fun step rest => ⟨?_, ?_⟩, fun step rest => Parser.flowStep_eq_ok_iff hf, ?_⟩
  · rintro ⟨us, behind, e, hus, hends⟩
    obtain ⟨hword, hv, os, hts, hos⟩ := hus.exists_verb e
    exact ⟨hword, (Parser.flowStep_eq_ok_iff hf).2 ⟨hv, os, behind, hts, hos, hends⟩⟩
  · rintro ⟨hword, h⟩
    obtain ⟨hv, os, behind, rfl, hos, hends⟩ := (Parser.flowStep_eq_ok_iff hf).1 h
    exact ⟨v :: os, behind, rfl, .mk hword hv hos, hends⟩
  · rintro file text tokens ⟨step, rest⟩ htokens hmem h
    have hv := ((Parser.flowStep_eq_ok_iff hf).1 h).1
    exact isWord_or_string_of_tokenize htokens v hmem (hv ▸ step.isWord_verb)

/-- A check with a path and a number behind it, at the end of its block. -/
theorem flowStep_exact_check :
    let final : Token := ⟨.endOfFile, "", 2, 1⟩
    let verb : Token := ⟨.identifier, "assert", 1, 1⟩
    let operands : List Token := [⟨.identifier, "visible", 1, 8⟩, ⟨.identifier, "cart", 1, 16⟩,
      ⟨.dot, ".", 1, 20⟩, ⟨.identifier, "badge", 1, 21⟩, ⟨.number, "1", 1, 27⟩]
    final.kind = .endOfFile ∧ Parser.flowStep ⟨"shop.dsl", none, final⟩ (verb :: operands) =
      .ok (.assert "visible" ["cart.badge", "1"], []) := by
  intro final verb operands
  have hpath : TargetWritten "cart.badge" _ :=
    .path (.more (.one ⟨⟨.identifier, "cart", 1, 16⟩, rfl, rfl, rfl⟩)
      (t := ⟨.dot, ".", 1, 20⟩) rfl ⟨⟨.identifier, "badge", 1, 21⟩, rfl, rfl, rfl⟩)
  have hnumber : TargetWritten "1" _ := .literal (t := ⟨.number, "1", 1, 27⟩) (.inr rfl)
  have hoperands : (FlowStep.assert "visible" ["cart.badge", "1"]).OperandsWritten operands :=
    .assert (t := ⟨.identifier, "visible", 1, 8⟩) rfl (.more (.more .nil hpath) hnumber)
  exact ⟨rfl, ((flowStep_exact rfl verb operands).2.1 _ _).2
    ⟨rfl, operands, [], rfl, hoperands, .mark (.inr rfl)⟩⟩

/-- A verb between quotes is read like the word, although no step is written so. -/
theorem flowStep_quoted_verb :
    let final : Token := ⟨.endOfFile, "", 2, 1⟩
    let line : List Token := [⟨.string, "navigate", 1, 1⟩, ⟨.identifier, "product_list", 1, 12⟩,
      ⟨.newline, "", 1, 24⟩]
    tokenize "shop.dsl" "\"navigate\" product_list" = .ok (line ++ [final]) ∧
      Parser.flowStep ⟨"shop.dsl", none, final⟩ line = .ok (.navigate "product_list", []) ∧
      ¬ ∃ step us behind, line = us ++ behind ∧ FlowStep.Written step us := by
  intro final line
  have htarget : TargetWritten "product_list" _ :=
    .path (.one ⟨⟨.identifier, "product_list", 1, 12⟩, rfl, rfl, rfl⟩)
  refine ⟨by decide +kernel, (Parser.flowStep_eq_ok_iff rfl).2
    ⟨rfl, _, _, rfl, .navigate htarget, .line rfl⟩, ?_⟩
  rintro ⟨step, us, behind, e, h⟩
  cases (h.exists_verb e).1

end Blueprint
