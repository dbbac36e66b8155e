import Blueprint.Proofs.Balance
import Blueprint.Proofs.Bodies

/-!
# Progress

Whatever tokens a parser is given, it gets on. The token that it looks at is one of the file
(`Progresses.peek`). Passing over a statement leads forward, and while it passes over the blocks
under the statement, it has not left more of them than it has entered (`Progresses.skip`). A loop
over statements needs no bound of its own: each round reads a token, as what a statement does not
read is passed over, so there are no more rounds than tokens (`Progresses.rounds`). If the blocks of
the tokens are closed, passing over a statement ends with its line, or with the mark that closes the
block under it (`Progresses.whole`).

All this but the last holds of tokens that were cut off or whose blocks are not closed, too
(`parser_progresses`).
-/

namespace Blueprint

/-! ## Depth -/

/-- How many more blocks are open behind the tokens than in front of them. -/
def depthBehind (ts : List Token) : Int :=
  ts.foldl (fun d t => match t.kind with
    | .indent => d + 1
    | .dedent => d - 1
    | _ => d) 0

/-- The loop that passes over blocks, `n` of which are open, passes over the tokens `us` and stops
in front of the others. -/
structure PassesOver (n : Nat) (us rest : List Token) : Prop where
  /-- In front of each token that it passes over, it counts the blocks that are open there, and
  there is one. -/
  inside : ∀ vs ws, us = vs ++ ws → ws ≠ [] →
    ∃ d, 0 < d ∧ closed vs + d = opened vs + n ∧ skipBlock d (ws ++ rest) = rest
  /-- The last token closes the outermost of the blocks, or else the file ends. -/
  ending : (closed us = opened us + n ∧
      ∃ body dedent, us = body ++ [dedent] ∧ dedent.kind = .dedent) ∨
    (closed us < opened us + n ∧ ∀ t ∈ rest.head?, t.kind = .endOfFile)

section

variable {n m : Nat} {t : Token} {ts us rest : List Token}

theorem depthBehind_eq (ts : List Token) : depthBehind ts = opened ts - closed ts := by
  induction ts using List.reverseRecOn with
  | nil => rfl
  | append_singleton ts t ih =>
    unfold depthBehind at ih ⊢
    rw [List.foldl_append, ih, opened_append, closed_append, opened_cons, closed_cons]
    cases h : t.kind <;> simp [h, opened, closed] <;> omega

namespace PassesOver

/-- The token only changes the number of open blocks. -/
theorem cons (hn : 0 < n) (hm : closed [t] + m = opened [t] + n)
    (hskip : skipBlock n (t :: (us ++ rest)) = rest) (h : PassesOver m us rest) :
    PassesOver n (t :: us) rest := by
  have hcount : closed (t :: us) = closed [t] + closed us ∧
      opened (t :: us) = opened [t] + opened us :=
    ⟨closed_append [t] us, opened_append [t] us⟩
  refine ⟨fun vs ws e hws => ?_, ?_⟩
  · rcases List.cons_eq_append_iff.1 e with ⟨rfl, rfl⟩ | ⟨vs, rfl, rfl⟩
    · exact ⟨n, hn, rfl, hskip⟩
    · obtain ⟨d, hd, hcounted, hrest⟩ := h.inside vs ws rfl hws
      have hvs : closed (t :: vs) = closed [t] + closed vs ∧
          opened (t :: vs) = opened [t] + opened vs :=
        ⟨closed_append [t] vs, opened_append [t] vs⟩
      exact ⟨d, hd, by omega, hrest⟩
  · rcases h.ending with ⟨hclosed, body, dedent, rfl, hdedent⟩ | ⟨hopen, hend⟩
    · exact .inl ⟨by omega, t :: body, dedent, rfl, hdedent⟩
    · exact .inr ⟨by omega, hend⟩

theorem nil (hn : 0 < n) (hend : ∀ t ∈ rest.head?, t.kind = .endOfFile) : PassesOver n [] rest :=
  ⟨fun _ _ e hws => absurd (List.append_eq_nil_iff.1 e.symm).2 hws, .inr ⟨by
    show 0 < 0 + n
    omega, hend⟩⟩

/-- Whatever tokens there are, the loop passes over some of them. The induction is on the tokens;
the number of open blocks changes with them. -/
theorem exists_skipBlock (hn : 0 < n) (ts : List Token) :
    ∃ us, ts = us ++ skipBlock n ts ∧ PassesOver n us (skipBlock n ts) := by
  induction ts generalizing n with
  | nil => exact ⟨[], rfl, nil hn nofun⟩
  | cons t ts ih =>
    -- a token behind which the loop goes on
    have hmore {m : Nat} (hm : 0 < m) (hskip : skipBlock n (t :: ts) = skipBlock m ts)
        (hcount : closed [t] + m = opened [t] + n) :
        ∃ us, t :: ts = us ++ skipBlock n (t :: ts) ∧ PassesOver n us (skipBlock n (t :: ts)) := by
      obtain ⟨us, e, hus⟩ := ih hm
      rw [hskip]
      refine ⟨t :: us, congrArg (t :: ·) e, hus.cons hn hcount ?_⟩
      rw [← e, hskip]
    by_cases hi : t.kind = .indent
    · refine hmore (Nat.succ_pos n) (skipBlock_of_indent hi n ts) ?_
      simp [opened, closed, hi]
      omega
    by_cases hd : t.kind = .dedent
    · by_cases hone : n ≤ 1
      · rw [skipBlock_of_dedent hd, if_pos hone]
        obtain rfl : n = 1 := by omega
        refine ⟨[t], rfl, fun vs ws e hws => ?_, .inl ⟨?_, [], t, rfl, hd⟩⟩
        · rcases List.cons_eq_append_iff.1 e with ⟨rfl, rfl⟩ | ⟨vs, rfl, hnil⟩
          · refine ⟨1, Nat.one_pos, rfl, ?_⟩
            rw [List.cons_append, skipBlock_of_dedent hd, if_pos (Nat.le_refl 1)]
            rfl
          · exact absurd (List.append_eq_nil_iff.1 hnil.symm).2 hws
        · simp [opened, closed, hd]
      · refine hmore (m := n - 1) (by omega) ?_ ?_
        · rw [skipBlock_of_dedent hd, if_neg hone]
        · simp [opened, closed, hd]
          omega
    by_cases he : t.kind = .endOfFile
    · have hskip : skipBlock n (t :: ts) = t :: ts := by rw [skipBlock, he]
      rw [hskip]
      refine ⟨[], rfl, nil hn fun u hu => ?_⟩
      cases hu
      exact he
    · refine hmore hn ?_ ?_
      · rw [skipBlock]
        split <;> simp_all
      · simp [opened, closed, hi, hd]

/-- Up to no token are more blocks closed than open. -/
theorem closed_le (h : PassesOver n us rest) {vs : List Token} (hvs : vs <+: us) :
    closed vs ≤ opened vs + n := by
  obtain ⟨ws, rfl⟩ := hvs
  by_cases hws : ws = []
  · subst hws
    rw [List.append_nil] at h
    rcases h.ending with ⟨hclosed, -⟩ | ⟨hopen, -⟩ <;> omega
  · obtain ⟨d, -, hd, -⟩ := h.inside vs ws rfl hws
    omega

/-- The block ends with the mark that closes it, unless the file ends in it. -/
theorem exists_body (h : PassesOver 1 us rest) (hclosed : opened us < closed us) :
    ∃ body dedent, us = body ++ [dedent] ∧ Balanced body ∧ dedent.kind = .dedent := by
  obtain ⟨hclosed, body, dedent, rfl, hdedent⟩ :=
    h.ending.resolve_right fun hopen => absurd hopen.1 (by omega)
  refine ⟨body, dedent, rfl, ⟨?_, fun vs hvs => ?_⟩, hdedent⟩
  · rw [closed_append, opened_append] at hclosed
    have hlast : closed [dedent] = 1 ∧ opened [dedent] = 0 := by simp [opened, closed, hdedent]
    omega
  · obtain ⟨ws, rfl⟩ := hvs
    obtain ⟨d, hd, hcount, -⟩ := h.inside vs (ws ++ [dedent]) (List.append_assoc _ _ _)
      (List.append_ne_nil_of_right_ne_nil _ (List.cons_ne_nil _ _))
    omega

end PassesOver

end

/-! ## Cursors -/

/-- The tokens of a file up to its end, which stands a line below the last one unless it is
there. -/
def ended (tokens : List Token) : List Token :=
  match tokens.getLast? with
  | some t => if t.kind = .endOfFile then tokens else tokens ++ [⟨.endOfFile, "", t.line + 1, 1⟩]
  | none => [⟨.endOfFile, "", 1, 1⟩]

namespace Parser

/-- The rounds of the loop over the statements of a block, up to the mark that closes the block.
That each round reads something is no condition. -/
inductive MakesRounds {σ : Type} (statement : σ → Parser σ) (scope : Scope) :
    Nat → σ → List Token → Except SyntaxError (σ × List Token) → Prop where
  | done {s : σ} {ts rest : List Token}
    (h : statementStep statement s scope ts = .ok (none, rest)) :
    MakesRounds statement scope 0 s ts ((accept .dedent scope rest).map fun r => (s, r.2))
  | failed {s : σ} {ts : List Token} {e : SyntaxError}
    (h : statementStep statement s scope ts = .error e) :
    MakesRounds statement scope 1 s ts (.error e)
  | round {n : Nat} {s next : σ} {ts rest : List Token} {out : Except SyntaxError (σ × List Token)}
    (h : statementStep statement s scope ts = .ok (some next, rest)) :
    MakesRounds statement scope n next rest out → MakesRounds statement scope (n + 1) s ts out

/-- From one place of the cursor to another one, the blocks under a line are passed over. -/
structure PassesUnder (ts : List Token) (j k : Nat) : Prop where
  /-- No more blocks have been left than were entered. -/
  nonneg : ∀ i, j ≤ i → i ≤ k → 0 ≤ depthBehind ((ts.drop j).take (i - j))
  /-- On the way, the loop counts the blocks that are open, and there is one. -/
  inside : ∀ i, j < i → i < k → ∃ d : Nat, 0 < d ∧ depthBehind ((ts.drop j).take (i - j)) = d ∧
    skipBlock d (ts.drop i) = ts.drop k

/-- How a parser gets on in a file, whose tokens are the given ones and the end of the file. The
cursor is in front of one of them: a parser has the tokens behind it left. -/
structure Progresses (scope : Scope) (ts : List Token) : Prop where
  /-- Looking ahead never leaves the tokens. -/
  peek : ∀ k ≤ ts.length, ∀ n, ∃ h : min (k + n) ts.length < (ts ++ [scope.final]).length,
    peek n scope (ts.drop k) = .ok ((ts ++ [scope.final])[min (k + n) ts.length], ts.drop k)
  /-- Passing over a statement leads forward, and gets on unless the block or the file ends there:
  first over its line, and then over the blocks under it. -/
  skip : ∀ k ≤ ts.length, ∃ j k', k ≤ j ∧ j ≤ k' ∧ k' ≤ ts.length ∧
    lineBehind (ts.drop k) = ts.drop j ∧ skip scope (ts.drop k) = .ok ((), ts.drop k') ∧
    (∀ t, (ts ++ [scope.final])[k]? = some t → t.kind ≠ .dedent → t.kind ≠ .endOfFile → k < k') ∧
    PassesUnder ts j k'
  /-- A loop over statements that only read forward makes fewer rounds than there are tokens left,
  the end of the file among them. -/
  rounds : ∀ (σ : Type) (statement : σ → Parser σ),
    (∀ s us v rest, statement s scope us = .ok (v, rest) → rest <:+ us) →
    ∀ k ≤ ts.length, ∀ s, ∃ n, k + n ≤ ts.length ∧
      MakesRounds statement scope n s (ts.drop k) (statements statement s scope (ts.drop k)) ∧
      ∀ m out, MakesRounds statement scope m s (ts.drop k) out →
        m = n ∧ out = statements statement s scope (ts.drop k)
  /-- If the blocks are closed, a line is passed over up to its end, and the block under it up to
  the mark that closes it. -/
  whole : Balanced ts → (∀ t ∈ ts, t.kind ≠ .endOfFile) →
    ∀ k content newline rest, ts.drop k = content ++ newline :: rest →
      (∀ t ∈ content, t.kind.endsStatement = false) → newline.kind = .newline →
      (NoIndent rest → Parser.skip scope (ts.drop k) = .ok ((), rest)) ∧
      ∀ indent tail, rest = indent :: tail → indent.kind = .indent →
        ∃ body dedent others, tail = body ++ dedent :: others ∧ Balanced body ∧
          dedent.kind = .dedent ∧ Parser.skip scope (ts.drop k) = .ok ((), others)

section

variable {scope : Scope} {ts us rest : List Token} {k : Nat}

/-- The tokens that are left are those behind another place of the cursor. -/
theorem exists_drop_of_suffix (hk : k ≤ ts.length) (h : us <:+ ts.drop k) :
    ∃ k', k ≤ k' ∧ k' ≤ ts.length ∧ us = ts.drop k' := by
  have hle := h.length_le
  rw [List.length_drop] at hle
  refine ⟨ts.length - us.length, by omega, Nat.sub_le _ _, ?_⟩
  rw [List.suffix_iff_eq_drop, List.length_drop, List.drop_drop] at h
  rwa [show k + (ts.length - k - us.length) = ts.length - us.length by omega] at h

theorem peek_progresses (ts : List Token) (k n : Nat) :
    ∃ h : min (k + n) ts.length < (ts ++ [scope.final]).length,
      peek n scope (ts.drop k) =
        .ok ((ts ++ [scope.final])[min (k + n) ts.length], ts.drop k) := by
  have hlt : min (k + n) ts.length < (ts ++ [scope.final]).length := by
    rw [List.length_append, List.length_singleton]
    omega
  refine ⟨hlt, ?_⟩
  show Except.ok ((ts.drop k)[n]?.getD scope.final, ts.drop k) = _
  rw [List.getElem?_drop]
  by_cases hn : k + n < ts.length
  · have hmin : min (k + n) ts.length = k + n := Nat.min_eq_left (Nat.le_of_lt hn)
    simp only [hmin, List.getElem_append_left hn, List.getElem?_eq_getElem hn, Option.getD_some]
  · have hmin : min (k + n) ts.length = ts.length := Nat.min_eq_right (Nat.le_of_not_lt hn)
    simp [hmin, List.getElem?_eq_none (Nat.le_of_not_lt hn)]

/-! ## Passing over a statement -/

theorem depthBehind_of_indent {t : Token} (ht : t.kind = .indent) (vs : List Token) :
    depthBehind (t :: vs) = 1 + opened vs - closed vs := by
  have hone : opened [t] = 1 ∧ closed [t] = 0 := by simp [opened, closed, ht]
  rw [depthBehind_eq, ← List.singleton_append, opened_append, closed_append]
  omega

theorem passesUnder_self (ts : List Token) (j : Nat) : PassesUnder ts j j where
  nonneg i hi hi' := by
    obtain rfl : i = j := Nat.le_antisymm hi' hi
    rw [Nat.sub_self]
    exact Int.le_refl 0
  inside i hi hi' := absurd hi (Nat.lt_asymm hi')

/-- Behind the mark that opens the block, the counter stands for the blocks that are open. -/
theorem passesUnder_of_indent {j : Nat} {t : Token} (ht : t.kind = .indent)
    (hdrop : ts.drop j = t :: (us ++ rest)) (h : PassesOver 1 us rest) :
    ts.drop (j + 1 + us.length) = rest ∧ PassesUnder ts j (j + 1 + us.length) := by
  have hbehind {m : Nat} (hm : m ≤ us.length) : ts.drop (j + (m + 1)) = us.drop m ++ rest := by
    rw [← List.drop_drop, hdrop, List.drop_succ_cons, List.drop_append_of_le_length hm]
  have hrest : ts.drop (j + 1 + us.length) = rest := by
    rw [show j + 1 + us.length = j + (us.length + 1) by omega, hbehind (Nat.le_refl _),
      List.drop_length, List.nil_append]
  have hdepth {m : Nat} (hm : m ≤ us.length) : depthBehind ((ts.drop j).take (m + 1)) =
      1 + opened (us.take m) - closed (us.take m) := by
    rw [hdrop, List.take_succ_cons, List.take_append_of_le_length hm, depthBehind_of_indent ht]
  refine ⟨hrest, fun i hi hi' => ?_, fun i hi hi' => ?_⟩
  · rcases Nat.eq_or_lt_of_le hi with rfl | hlt
    · rw [Nat.sub_self]
      exact Int.le_refl 0
    · obtain ⟨m, rfl⟩ : ∃ m, i = j + (m + 1) := ⟨i - j - 1, by omega⟩
      rw [Nat.add_sub_cancel_left, hdepth (by omega)]
      have hle := h.closed_le (List.take_prefix m us)
      omega
  · obtain ⟨m, rfl⟩ : ∃ m, i = j + (m + 1) := ⟨i - j - 1, by omega⟩
    obtain ⟨d, hd, hcount, hskip⟩ := h.inside (us.take m) (us.drop m)
      (List.take_append_drop m us).symm (List.drop_eq_nil_iff.not.2 (by omega))
    refine ⟨d, hd, ?_, ?_⟩
    · rw [Nat.add_sub_cancel_left, hdepth (by omega)]
      omega
    · rw [hrest, hbehind (by omega)]
      exact hskip

theorem skipUnder_progresses {j : Nat} (hj : j ≤ ts.length) : ∃ k', j ≤ k' ∧ k' ≤ ts.length ∧
    skipUnder (ts.drop j) = ts.drop k' ∧ PassesUnder ts j k' := by
  by_cases hno : NoIndent (ts.drop j)
  · exact ⟨j, Nat.le_refl j, hj, skipUnder_of_noIndent hno, passesUnder_self ts j⟩
  obtain ⟨t, us, hdrop, ht⟩ : ∃ t us, ts.drop j = t :: us ∧ t.kind = .indent := by
    unfold NoIndent at hno
    push Not at hno
    exact hno
  obtain ⟨passed, hpassed, hover⟩ := PassesOver.exists_skipBlock Nat.one_pos us
  obtain ⟨hrest, hunder⟩ := passesUnder_of_indent ht (hdrop.trans (congrArg (t :: ·) hpassed)) hover
  refine ⟨j + 1 + passed.length, by omega, ?_, ?_, hunder⟩
  · have hall := congrArg List.length hdrop
    have hsplit := congrArg List.length hpassed
    rw [List.length_drop, List.length_cons] at hall
    rw [List.length_append] at hsplit
    omega
  · rw [hrest, hdrop, skipUnder_cons, if_pos ht]

theorem skip_progresses (hf : scope.final.kind = .endOfFile) (hk : k ≤ ts.length) :
    ∃ j k', k ≤ j ∧ j ≤ k' ∧ k' ≤ ts.length ∧
      lineBehind (ts.drop k) = ts.drop j ∧ skip scope (ts.drop k) = .ok ((), ts.drop k') ∧
      (∀ t, (ts ++ [scope.final])[k]? = some t → t.kind ≠ .dedent → t.kind ≠ .endOfFile → k < k') ∧
      PassesUnder ts j k' := by
  have hsuffix : lineBehind (ts.drop k) <:+ ts.drop k :=
    (skipLineEnd_suffix _).trans (List.dropWhile_suffix _)
  obtain ⟨j, hj, hjlen, hline⟩ := exists_drop_of_suffix hk hsuffix
  obtain ⟨k', hk', hlen, hrest, hunder⟩ := skipUnder_progresses hjlen
  have hskip : skipStatement (ts.drop k) = ts.drop k' := by
    rw [skipStatement_eq, hline, hrest]
  refine ⟨j, k', hj, hk', hlen, hline, ?_, fun t ht hd he => ?_, hunder⟩
  · rw [skip_apply, hskip]
  · by_cases hlast : k < ts.length
    · rw [List.getElem?_append_left hlast] at ht
      obtain ⟨us, hus⟩ : ∃ us, ts.drop k = t :: us := by
        rw [List.getElem?_eq_getElem hlast, Option.some.injEq] at ht
        exact ⟨ts.drop (k + 1), by rw [List.drop_eq_getElem_cons hlast, ht]⟩
      have hlt : (skipStatement (t :: us)).length < (t :: us).length :=
        length_skipStatement_lt hd he
      rw [← hus, hskip, List.length_drop, List.length_drop] at hlt
      omega
    · obtain rfl : k = ts.length := by omega
      rw [List.getElem?_concat_length, Option.some.injEq] at ht
      exact absurd (ht ▸ hf) he

/-- Blocks that are closed in the end are closed behind any of their marks, by another one. -/
theorem whole_progresses (hbalanced : Balanced ts) (hend : ∀ t ∈ ts, t.kind ≠ .endOfFile)
    {content : List Token} {newline : Token} (hdrop : ts.drop k = content ++ newline :: rest)
    (hcontent : ∀ t ∈ content, t.kind.endsStatement = false) (hnewline : newline.kind = .newline) :
    (NoIndent rest → skip scope (ts.drop k) = .ok ((), rest)) ∧
      ∀ indent tail, rest = indent :: tail → indent.kind = .indent →
        ∃ body dedent others, tail = body ++ dedent :: others ∧ Balanced body ∧
          dedent.kind = .dedent ∧ skip scope (ts.drop k) = .ok ((), others) := by
  have hskip : skip scope (ts.drop k) = .ok ((), skipUnder rest) := by
    rw [skip_apply, skipStatement_eq, hdrop, lineBehind_append hcontent,
      lineBehind_of_newline hnewline]
  refine ⟨fun hno => by rw [hskip, skipUnder_of_noIndent hno], ?_⟩
  rintro indent tail rfl hindent
  rw [skipUnder_cons, if_pos hindent] at hskip
  obtain ⟨passed, hpassed, hover⟩ := PassesOver.exists_skipBlock Nat.one_pos tail
  have hts : ts = (ts.take k ++ content ++ [newline, indent]) ++ tail := by
    conv_lhs => rw [← List.take_append_drop k ts, hdrop]
    simp
  -- what is open in front of the block is closed behind it
  have hclosed : opened tail < closed tail := by
    have hsettled := hbalanced.settled
    have hfront := hbalanced.le_of_prefix (ts.take k ++ content) ⟨[newline, indent] ++ tail, by
      rw [← List.append_assoc]
      exact hts.symm⟩
    have hmarks : opened [newline, indent] = 1 ∧ closed [newline, indent] = 0 := by
      simp [opened, closed, hnewline, hindent]
    rw [hts, opened_append, closed_append, opened_append, closed_append] at hsettled
    omega
  have hover' : opened passed < closed passed := by
    rcases hover.ending with ⟨hc, -⟩ | ⟨ho, hrest⟩
    · omega
    · cases hstop : skipBlock 1 tail with
      | nil =>
        rw [hstop, List.append_nil] at hpassed
        rw [← hpassed] at ho
        omega
      | cons t others =>
        rw [hstop] at hpassed hrest
        refine absurd (hrest t rfl) (hend t ?_)
        rw [hts, hpassed]
        simp
  obtain ⟨body, dedent, rfl, hbody, hdedent⟩ := hover.exists_body hover'
  refine ⟨body, dedent, skipBlock 1 tail, ?_, hbody, hdedent, hskip⟩
  conv_lhs => rw [hpassed, List.append_assoc, List.singleton_append]

/-! ## Rounds -/

variable {σ : Type} {statement : σ → Parser σ} {s next : σ} {n m : Nat}
  {out out' : Except SyntaxError (σ × List Token)}

theorem statements_apply (statement : σ → Parser σ) (s : σ) (scope : Scope) (ts : List Token) :
    statements statement s scope ts =
      iterateOn (statementStep statement) scope s ts >>= fun r =>
        (accept .dedent scope r.2).map fun r' => (r.1, r'.2) := by
  rw [Parser.statements_eq]
  show (iterateOn (statementStep statement) scope s ts >>= fun r =>
    (accept .dedent >>= fun _ => pure r.1 : Parser σ) scope r.2) = _
  congr 1

theorem MakesRounds.unique (h : MakesRounds statement scope n s ts out)
    (h' : MakesRounds statement scope m s ts out') : m = n ∧ out' = out := by
  -- a round leads from the same tokens to the same
  induction h generalizing m out' with
  | done hstep =>
    cases h' with
    | done hstep' =>
      cases hstep.symm.trans hstep'
      exact ⟨rfl, rfl⟩
    | failed hstep' | round hstep' => cases hstep.symm.trans hstep'
  | failed hstep =>
    cases h' with
    | failed hstep' =>
      cases hstep.symm.trans hstep'
      exact ⟨rfl, rfl⟩
    | done hstep' | round hstep' => cases hstep.symm.trans hstep'
  | round hstep _ ih =>
    cases h' with
    | round hstep' hrounds =>
      cases hstep.symm.trans hstep'
      obtain ⟨rfl, rfl⟩ := ih hrounds
      exact ⟨rfl, rfl⟩
    | done hstep' | failed hstep' => cases hstep.symm.trans hstep'

section

variable (hf : scope.final.kind = .endOfFile)

include hf

/-- A round reads a token: if the statement does not, it is passed over, and it is not the end of
the block or of the file. -/
theorem length_lt_of_round
    (hforward : ∀ s us v rest, statement s scope us = .ok (v, rest) → rest <:+ us)
    (h : statementStep statement s scope ts = .ok (some next, rest)) : rest.length < ts.length := by
  have hle := (behindNewlines_suffix ts).length_le
  cases hus : behindNewlines ts with
  | nil =>
    rw [statementStep_of_endOfFile hf hus hf] at h
    cases h
  | cons t us =>
    rw [hus] at hle
    by_cases hd : t.kind = .dedent
    · rw [statementStep_of_dedent hf hus hd] at h
      cases h
    by_cases he : t.kind = .endOfFile
    · rw [statementStep_of_endOfFile hf hus he] at h
      cases h
    obtain ⟨v, mid, hv, -, rfl⟩ := (statementStep_eq_ok_iff hf hus hd he).1 h
    have hmid := hforward s _ v mid hv
    by_cases hnone : mid.length = (t :: us).length
    · rw [if_pos hnone, hmid.eq_of_length hnone]
      exact Nat.lt_of_lt_of_le (length_skipStatement_lt hd he) hle
    · rw [if_neg hnone]
      have := hmid.length_le
      omega

/-- Only where there is something to read can a round fail. -/
theorem length_pos_of_failed {e : SyntaxError} (h : statementStep statement s scope ts = .error e) :
    0 < ts.length := by
  refine List.length_pos_iff.2 ?_
  rintro rfl
  have hnone : behindNewlines [] = [] := rfl
  rw [statementStep_of_endOfFile hf hnone hf] at h
  cases h

/-- The loop ends because each round reads something, and needs no bound. The induction is on the
number of tokens left. -/
theorem exists_makesRounds
    (hforward : ∀ s us v rest, statement s scope us = .ok (v, rest) → rest <:+ us) (s : σ)
    (ts : List Token) : ∃ n ≤ ts.length,
      MakesRounds statement scope n s ts (statements statement s scope ts) := by
  induction hn : ts.length using Nat.strongRecOn generalizing s ts with
  | ind k ih =>
    subst hn
    rw [statements_apply]
    cases hstep : statementStep statement s scope ts with
    | error e =>
      rw [iterateOn, hstep]
      exact ⟨1, length_pos_of_failed hf hstep, .failed hstep⟩
    | ok r =>
      obtain ⟨next?, rest⟩ := r
      cases next? with
      | none =>
        rw [iterateOn_of_none hstep]
        exact ⟨0, Nat.zero_le _, .done hstep⟩
      | some next =>
        have hlt := length_lt_of_round hf hforward hstep
        obtain ⟨n, hle, hrounds⟩ := ih rest.length hlt next rest rfl
        rw [iterateOn_of_some hstep, if_pos hlt, ← statements_apply]
        exact ⟨n + 1, by omega, .round hstep hrounds⟩

end

end

/-- A parser gets on, whatever tokens there are in front of the end of the file. -/
theorem progresses {scope : Scope} (hf : scope.final.kind = .endOfFile) (ts : List Token) :
    Progresses scope ts where
  peek k _ n := peek_progresses ts k n
  skip _ hk := skip_progresses hf hk
  rounds σ statement hforward k hk s := by
    obtain ⟨n, hn, hrounds⟩ := exists_makesRounds hf hforward s (ts.drop k)
    rw [List.length_drop] at hn
    exact ⟨n, by omega, hrounds, fun m out h => hrounds.unique h⟩
  whole hbalanced hend k content newline rest := whole_progresses hbalanced hend

theorem exists_ended (tokens : List Token) : ∃ ts final, ended tokens = ts ++ [final] ∧
    final.kind = .endOfFile ∧ ∀ (α : Type) (p : Parser α) file,
      p.runOn file tokens = (p { file, final } ts).map (·.1) := by
  unfold ended
  cases hlast : tokens.getLast? with
  | none =>
    obtain rfl := List.getLast?_eq_none_iff.1 hlast
    refine ⟨[], ⟨.endOfFile, "", 1, 1⟩, rfl, rfl, fun α p file => ?_⟩
    show (p _ [] >>= _) = _
    cases p { file, final := ⟨.endOfFile, "", 1, 1⟩ } [] <;> rfl
  | some t =>
    by_cases ht : t.kind = .endOfFile
    · obtain ⟨ts, rfl⟩ := List.getLast?_eq_some_iff.1 hlast
      exact ⟨ts, t, if_pos ht, ht, fun α p file => runOn_append p file ts ht⟩
    · refine ⟨tokens, _, if_neg ht, rfl, fun α p file => ?_⟩
      unfold runOn
      rw [hlast]
      dsimp only
      rw [if_neg ht]
      show (p _ tokens >>= _) = _
      cases p { file, final := ⟨.endOfFile, "", t.line + 1, 1⟩ } tokens <;> rfl

/-- A parser that is run on tokens reads these and the end of the file. Whether the tokens were cut
off or their blocks are closed or not, it looks at no others, passes over statements forward and
without closing more blocks than it has opened, and makes no more rounds of a loop over statements
than there are tokens left. Where the blocks are closed it passes over whole statements. -/
theorem parser_progresses (file : String) (tokens : List Token) :
    ∃ ts final, ended tokens = ts ++ [final] ∧ final.kind = .endOfFile ∧
      (∀ (α : Type) (p : Parser α), p.runOn file tokens = (p { file, final } ts).map (·.1)) ∧
      ∀ inModule, Progresses { file, inModule, final } ts := by
  obtain ⟨ts, final, hended, hf, hrun⟩ := exists_ended tokens
  exact ⟨ts, final, hended, hf, fun α p => hrun α p file, fun _ => progresses hf ts⟩

/-- The tokens of an entity with one field, without the end of the file. -/
def noted : List Token :=
  [⟨.keyword .entity, "entity", 1, 1⟩, ⟨.identifier, "Note", 1, 8⟩, ⟨.colon, ":", 1, 12⟩,
    ⟨.newline, "", 1, 13⟩, ⟨.indent, "", 2, 1⟩, ⟨.identifier, "label", 2, 3⟩,
    ⟨.newline, "", 2, 8⟩, ⟨.dedent, "", 3, 1⟩]

/-- The entity is passed over as a whole, and a statement that reads nothing is, too. -/
theorem parser_progresses_noted : ∃ ts final, ended noted = ts ++ [final] ∧
    final = ⟨.endOfFile, "", 4, 1⟩ ∧ Balanced ts ∧ (∀ t ∈ ts, t.kind ≠ .endOfFile) ∧
    (∃ body dedent others, ts.drop 5 = body ++ dedent :: others ∧ Balanced body ∧
      dedent.kind = .dedent ∧ skip { file := "notes.dsl", final } ts = .ok ((), others)) ∧
    ∃ n ≤ ts.length, MakesRounds (fun m : Nat => pure (m + 1)) { file := "notes.dsl", final } n 0 ts
      (statements (fun m => pure (m + 1)) 0 { file := "notes.dsl", final } ts) := by
  obtain ⟨ts, final, hended, -, -, hprogress⟩ := parser_progresses "notes.dsl" noted
  have hnoted : ended noted = noted ++ [⟨.endOfFile, "", 4, 1⟩] := rfl
  obtain ⟨rfl, hfinal⟩ := List.append_inj' (hnoted.symm.trans hended) rfl
  obtain rfl := List.singleton_inj.1 hfinal
  have hprefix : ∀ us ∈ noted.inits, closed us ≤ opened us := by decide
  have hbalanced : Balanced noted :=
    ⟨rfl, fun us hus => hprefix us ((List.mem_inits us noted).2 hus)⟩
  have hend : ∀ t ∈ noted, t.kind ≠ .endOfFile := by decide
  have hcontent : ∀ t ∈ noted.take 3, t.kind.endsStatement = false := by decide
  have hp := hprogress none
  obtain ⟨n, hn, hrounds, -⟩ := hp.rounds Nat (fun m => pure (m + 1))
    (fun s us v rest h => by cases h; exact List.suffix_rfl) 0 (Nat.zero_le _) 0
  have hwhole := hp.whole hbalanced hend 0 (noted.take 3) _ (noted.drop 4) rfl hcontent rfl
  exact ⟨noted, _, hended, rfl, hbalanced, hend, hwhole.2 _ (noted.drop 5) rfl rfl, n,
    by omega, hrounds⟩

end Parser

end Blueprint
