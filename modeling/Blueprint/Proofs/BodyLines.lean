import Blueprint.Proofs.Bodies

/-!
# The lines of a body

The loop over the body of a declaration reads its statements line by line. `Lines` says on which
lines they begin: there is one such division of a body (`Lines.unique`), and what every line adds to
a part of the state, a list, the whole body adds one after the other (`Lines.part_eq`). `Body.Spans`
divides a whole declaration in this way, so that what is made of it can be told from its lines
(`Body.Spans.parser_eq`, `Body.exists_spans`).
-/

namespace Blueprint.Parser

variable {α κ σ : Type} {statement : σ → Parser σ} {scope : Scope}

/-! ## Lines -/

/-- The loop over a body reads statements that begin on the lines, and ends in the state. -/
inductive Lines (statement : σ → Parser σ) (scope : Scope) :
    σ → List Token → List (List Token) → σ → Prop where
  | done {s : σ} {ts rest : List Token} :
    statementStep statement s scope ts = .ok (none, rest) → Lines statement scope s ts [] s
  | line {s next v : σ} {ts line rest : List Token} {lines : List (List Token)} :
    skipNewlines scope ts = .ok ((), line) →
    statementStep statement s scope ts = .ok (some next, rest) → rest.length < ts.length →
    Lines statement scope next rest lines v → Lines statement scope s ts (line :: lines) v
  /-- A round that leaves no fewer tokens is the last one. -/
  | last {s next : σ} {ts line rest : List Token} :
    skipNewlines scope ts = .ok ((), line) →
    statementStep statement s scope ts = .ok (some next, rest) → ¬ rest.length < ts.length →
    Lines statement scope s ts [line] next

/-- A round reads a statement, on the line behind the ends of lines in front. -/
theorem exists_line_of_statementStep {s next : σ} {ts rest : List Token}
    (h : statementStep statement s scope ts = .ok (some next, rest)) :
    ∃ line mid, skipNewlines scope ts = .ok ((), line) ∧
      statement s scope line = .ok (next, mid) := by
  unfold statementStep at h
  obtain ⟨_, line, hline, h⟩ := bind_eq_ok_iff.1 h
  rw [bind_eq_ok (isAt_apply _ _ _)] at h
  split at h
  · cases h
  rw [bind_eq_ok (isAt_apply _ _ _)] at h
  split at h
  · cases h
  rw [bind_eq_ok (remaining_apply _ _)] at h
  obtain ⟨v, mid, hv, h⟩ := bind_eq_ok_iff.1 h
  rw [bind_eq_ok (remaining_apply _ _)] at h
  refine ⟨line, mid, hline, ?_⟩
  split at h <;> (cases h; exact hv)

namespace Lines

variable {s v w : σ} {ts rest : List Token} {lines lines' : List (List Token)}

/-- The induction is on the number of tokens left. -/
theorem exists_of_iterateOn {out : σ × List Token}
    (h : iterateOn (statementStep statement) scope s ts = .ok out) :
    ∃ lines, Lines statement scope s ts lines out.1 := by
  induction hn : ts.length using Nat.strongRecOn generalizing s ts with
  | ind n ih =>
    obtain ⟨next, mid, hstep⟩ := exists_step_of_iterateOn h
    cases next with
    | none =>
      rw [iterateOn_of_none hstep] at h
      cases h
      exact ⟨[], .done hstep⟩
    | some next =>
      obtain ⟨line, _, hline, -⟩ := exists_line_of_statementStep hstep
      rw [iterateOn_of_some hstep] at h
      by_cases hlt : mid.length < ts.length
      · rw [if_pos hlt] at h
        obtain ⟨lines, hlines⟩ := ih mid.length (hn ▸ hlt) h rfl
        exact ⟨line :: lines, .line hline hstep hlt hlines⟩
      · rw [if_neg hlt] at h
        cases h
        exact ⟨[line], .last hline hstep hlt⟩

/-- A body that is read has lines. -/
theorem exists_of_statements (h : statements statement s scope ts = .ok (v, rest)) :
    ∃ lines, Lines statement scope s ts lines v := by
  rw [Parser.statements_eq] at h
  obtain ⟨last, _, hlast, h⟩ := bind_eq_ok_iff.1 h
  obtain ⟨_, _, _, h⟩ := bind_eq_ok_iff.1 h
  cases h
  exact exists_of_iterateOn hlast

theorem unique (h : Lines statement scope s ts lines v) (h' : Lines statement scope s ts lines' w) :
    lines = lines' := by
  -- a round leads from the same tokens to the same
  induction h generalizing lines' with
  | done hstep =>
    cases h' with
    | done => rfl
    | line _ hstep' => cases hstep.symm.trans hstep'
    | last _ hstep' => cases hstep.symm.trans hstep'
  | line hline hstep hlt _ ih =>
    cases h' with
    | done hstep' => cases hstep.symm.trans hstep'
    | line hline' hstep' _ hlines' =>
      cases hline.symm.trans hline'
      cases hstep.symm.trans hstep'
      rw [ih hlines']
    | last _ hstep' hlt' =>
      cases hstep.symm.trans hstep'
      exact absurd hlt hlt'
  | last hline hstep hlt =>
    cases h' with
    | done hstep' => cases hstep.symm.trans hstep'
    | line _ hstep' hlt' =>
      cases hstep.symm.trans hstep'
      exact absurd hlt' hlt
    | last hline' hstep' =>
      cases hline.symm.trans hline'
      rfl

/-- What each line adds to a part of the state adds up. -/
theorem part_eq (part : σ → List κ) {adds : List Token → List κ}
    (hadds : ∀ {s line next mid}, statement s scope line = .ok (next, mid) →
      part next = part s ++ adds line)
    (h : Lines statement scope s ts lines v) : part v = part s ++ lines.flatMap adds := by
  have hround {s next : σ} {ts line rest : List Token}
      (hline : skipNewlines scope ts = .ok ((), line))
      (hstep : statementStep statement s scope ts = .ok (some next, rest)) :
      part next = part s ++ adds line := by
    obtain ⟨line', mid, hline', hnext⟩ := exists_line_of_statementStep hstep
    cases hline.symm.trans hline'
    exact hadds hnext
  induction h with
  | done => exact (List.append_nil _).symm
  | line hline hstep _ _ ih =>
    rw [ih, hround hline hstep, List.flatMap_cons, List.append_assoc]
  | last hline hstep =>
    rw [hround hline hstep, List.flatMap_cons, List.flatMap_nil, List.append_nil]

end Lines

/-! ## Declarations -/

namespace Body

variable {b : Body α} {h h' : b.Header} {s s' : b.State} {lines lines' : List (List Token)}
  {ts rest rest' : List Token} {v : α}

/-- The declaration in front has the header, and the statements on the lines of its body lead to the
state. -/
def Spans (b : Body α) (scope : Scope) (ts : List Token) (h : b.Header)
    (lines : List (List Token)) (s : b.State) (rest : List Token) : Prop :=
  ∃ colon body, b.opening scope ts = .ok (h, colon) ∧ beginBlock scope colon = .ok ((), body) ∧
    statements b.statement (b.start h) scope body = .ok (s, rest) ∧
    Lines b.statement scope (b.start h) body lines s

theorem Spans.parser_eq (hspans : b.Spans scope ts h lines s rest) :
    b.parser scope ts = b.finish h s scope rest := by
  obtain ⟨colon, body, hopening, hbegin, hbody, -⟩ := hspans
  unfold parser block
  rw [bind_eq_ok hopening]
  simp only [bind_assoc]
  rw [bind_eq_ok hbegin, bind_eq_ok hbody]

theorem Spans.unique (hspans : b.Spans scope ts h lines s rest)
    (hspans' : b.Spans scope ts h' lines' s' rest') : lines = lines' := by
  obtain ⟨colon, body, hopening, hbegin, -, hlines⟩ := hspans
  obtain ⟨colon', body', hopening', hbegin', -, hlines'⟩ := hspans'
  cases hopening.symm.trans hopening'
  cases hbegin.symm.trans hbegin'
  exact hlines.unique hlines'

theorem exists_spans_of_block {colon : List Token} (hopening : b.opening scope ts = .ok (h, colon))
    (hblock : block b.statement (b.start h) scope colon = .ok (s, rest)) :
    ∃ lines, b.Spans scope ts h lines s rest := by
  obtain ⟨_, body, hbegin, hbody⟩ := bind_eq_ok_iff.1 hblock
  obtain ⟨lines, hlines⟩ := Lines.exists_of_statements hbody
  exact ⟨lines, colon, body, hopening, hbegin, hbody, hlines⟩

theorem exists_spans (hv : b.parser scope ts = .ok (v, rest)) :
    ∃ h lines s mid, b.Spans scope ts h lines s mid ∧ b.finish h s scope mid = .ok (v, rest) := by
  obtain ⟨h, colon, hopening, hv⟩ := bind_eq_ok_iff.1 hv
  obtain ⟨s, mid, hblock, hv⟩ := bind_eq_ok_iff.1 hv
  obtain ⟨lines, hspans⟩ := exists_spans_of_block hopening hblock
  exact ⟨h, lines, s, mid, hspans, hv⟩

/-- What each line adds to a part of the state, the declaration has in it. -/
theorem Spans.part_eq (part : b.State → List κ) {adds : List Token → List κ}
    (hstart : part (b.start h) = [])
    (hadds : ∀ {s line next mid}, b.statement s scope line = .ok (next, mid) →
      part next = part s ++ adds line)
    (hspans : b.Spans scope ts h lines s rest) : part s = lines.flatMap adds := by
  obtain ⟨_, _, _, _, _, hlines⟩ := hspans
  rw [hlines.part_eq part hadds, hstart, List.nil_append]

end Body

end Blueprint.Parser
