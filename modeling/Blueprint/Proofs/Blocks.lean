import Blueprint.Proofs.Agreement

/-!
# Two readings of a block

A block is read up to the mark that closes it, and no further: its loop goes on as long as the block
is open (`statementStep_agree`), since a statement of which nothing was read is passed over. So
blocks agree if their statements do (`Agree.block`).
-/

namespace Blueprint.Parser

variable {r : Rereading} {g : Ground} {plain : Bool} {α β σ σ' : Type}

/-! ## One statement of a block -/

/-- One round of the loop that reads the statements of a block. -/
def statementStep (statement : σ → Parser σ) (s : σ) : Parser (Option σ) := do
  skipNewlines
  if ← isAt .dedent then return none
  else if ← isAt .endOfFile then return none
  else
    let before ← remaining
    let next ← statement s
    if (← remaining) == before then skip
    return some next

theorem statements_eq (statement : σ → Parser σ) (s : σ) :
    statements statement s =
      iterate (statementStep statement) s >>= fun last => accept .dedent >>= fun _ => pure last :=
  rfl

/-- The tokens behind the ends of lines in front. -/
def behindNewlines (ts : List Token) : List Token := ts.dropWhile (·.kind == .newline)

theorem closedBy_behindNewlines {s : Position} {ts : List Token} (h : s.ClosedBy ts) :
    ∃ l, (⟨s.depth, l⟩ : Position).ClosedBy (behindNewlines ts) := by
  unfold behindNewlines
  induction ts generalizing s with
  | nil => exact ⟨s.inLine, h⟩
  | cons t ts ih =>
    by_cases ht : t.kind = .newline
    · rw [List.dropWhile_cons_of_pos (by rw [ht]; rfl)]
      exact @ih ⟨s.depth, false⟩ (h.of_newline ht)
    · rw [List.dropWhile_cons_of_neg (by rwa [beq_iff_eq])]
      exact ⟨s.inLine, h⟩

theorem closedBy_behindNewlines_of_start {depth : Nat} {ts : List Token}
    (h : (⟨depth, false⟩ : Position).ClosedBy ts) :
    (⟨depth, false⟩ : Position).ClosedBy (behindNewlines ts) := by
  unfold behindNewlines
  induction ts with
  | nil => exact h
  | cons t ts ih =>
    by_cases ht : t.kind = .newline
    · rw [List.dropWhile_cons_of_pos (by rw [ht]; rfl)]
      exact ih (h.of_newline ht)
    · rw [List.dropWhile_cons_of_neg (by rwa [beq_iff_eq])]
      exact h

/-- In an open block there is more than ends of lines. -/
theorem behindNewlines_ne_nil {s : Position} {ts : List Token} (hs : 0 < s.depth)
    (h : s.ClosedBy ts) : behindNewlines ts ≠ [] := by
  obtain ⟨l, hc⟩ := closedBy_behindNewlines h
  obtain ⟨t, us, e⟩ := hc.exists_cons (Position.ne_outside_of_pos hs)
  exact e ▸ List.cons_ne_nil t us

theorem behindNewlines_append {t : Token} {ts us : List Token} (h : behindNewlines ts = t :: us)
    (next : List Token) : behindNewlines (ts ++ next) = t :: (us ++ next) := by
  unfold behindNewlines at h ⊢
  induction ts with
  | nil => cases h
  | cons u ts ih =>
    rw [List.cons_append]
    by_cases hu : u.kind = .newline
    · rw [List.dropWhile_cons_of_pos (by rw [hu]; rfl)] at h ⊢
      exact ih h
    · rw [List.dropWhile_cons_of_neg (by rwa [beq_iff_eq])] at h ⊢
      rw [← List.cons_append, ← List.cons_append, h]

theorem forall₂_behindNewlines {R : Token → Token → Prop} (hR : ∀ t t', R t t' → t'.kind = t.kind)
    {a a' : List Token} (h : List.Forall₂ R a a') :
    List.Forall₂ R (behindNewlines a) (behindNewlines a') := by
  unfold behindNewlines
  induction h with
  | nil => exact .nil
  | @cons t t' ts ts' ht hrest ih =>
    rw [List.dropWhile_cons, List.dropWhile_cons, hR t t' ht]
    split
    · exact ih
    · exact .cons ht hrest

theorem skipBlock_behindNewlines (n : Nat) (ts : List Token) :
    skipBlock n (behindNewlines ts) = skipBlock n ts := by
  unfold behindNewlines
  induction ts with
  | nil => rfl
  | cons t ts ih =>
    by_cases ht : t.kind = .newline
    · rw [List.dropWhile_cons_of_pos (by rw [ht]; rfl), skipBlock_of_newline ht, ih]
    · rw [List.dropWhile_cons_of_neg (by rwa [beq_iff_eq])]

theorem behindNewlines_suffix (ts : List Token) : behindNewlines ts <:+ ts :=
  List.dropWhile_suffix _

theorem skipNewlines_of {scope : Scope} {ts us : List Token} (hf : scope.final.kind = .endOfFile)
    (h : behindNewlines ts = us) : skipNewlines scope ts = .ok ((), us) := by
  rw [skipNewlines_apply hf, ← h]
  rfl

section

variable {scope : Scope} {statement : σ → Parser σ} {s : σ} {t : Token} {ts us : List Token}
  (hf : scope.final.kind = .endOfFile) (h : behindNewlines ts = t :: us)

include hf h

theorem statementStep_of_dedent (ht : t.kind = .dedent) :
    statementStep statement s scope ts = .ok (none, t :: us) := by
  unfold statementStep
  rw [bind_eq_ok (skipNewlines_of hf h), bind_eq_ok (isAt_of_eq ht)]
  rfl

/-- A statement of which nothing was read is passed over. -/
theorem statementStep_eq_ok_iff (hd : t.kind ≠ .dedent) (he : t.kind ≠ .endOfFile)
    {next : Option σ} {b : List Token} :
    statementStep statement s scope ts = .ok (next, b) ↔
      ∃ v mid, statement s scope (t :: us) = .ok (v, mid) ∧ next = some v ∧
        b = if mid.length = (t :: us).length then skipStatement mid else mid := by
  have hskip : ∀ (v : σ) (mid : List Token), (if (mid.length == (t :: us).length) = true then
      skip >>= fun _ => pure (some v) else pure (some v) : Parser (Option σ)) scope mid =
      .ok (some v, if mid.length = (t :: us).length then skipStatement mid else mid) := by
    intro v mid
    by_cases hm : mid.length = (t :: us).length
    · rw [if_pos (beq_iff_eq.2 hm), if_pos hm]
      rfl
    · rw [if_neg (by rwa [beq_iff_eq]), if_neg hm]
      rfl
  unfold statementStep
  rw [bind_eq_ok (skipNewlines_of hf h), bind_eq_ok (isAt_of_ne hd), if_neg Bool.false_ne_true,
    bind_eq_ok (isAt_of_ne he), if_neg Bool.false_ne_true, bind_eq_ok (remaining_apply _ _),
    bind_eq_ok_iff]
  constructor
  · rintro ⟨v, mid, hv, hrest⟩
    have hrest := (hskip v mid).symm.trans hrest
    cases hrest
    exact ⟨v, mid, hv, rfl, rfl⟩
  · rintro ⟨v, mid, hv, rfl, rfl⟩
    exact ⟨v, mid, hv, hskip v mid⟩

end

/-! ## Statements that are passed over -/

/-- On level ground, a statement that is passed over is the same in both files. -/
theorem skipStatement_agree [hlevel : g.Level] {q : Position} {a a' : List Token}
    (hq : g.Holds r q) (hc : q.ClosedBy a) (hne : a ≠ []) (ha : List.Forall₂ r.Same a a') :
    (⟨q.depth, false⟩ : Position).ClosedBy (skipStatement a) ∧
      List.Forall₂ r.Same (skipStatement a) (skipStatement a') ∧
      skipStatement (a ++ r.behind) = skipStatement a ++ r.behind ∧
      skipStatement (a' ++ r.next) = skipStatement a' ++ r.next := by
  have hkinds : ∀ t t', r.Same t t' → t'.kind = t.kind ∧ t'.text = t.text :=
    fun _ _ h => ⟨h.kind, h.text⟩
  have hne' : a' ≠ [] := fun e => hne (List.forall₂_nil_right_iff.1 (e ▸ ha))
  have hground := hlevel.holds hq
  have hfirst := skipStatement_of_closedBy hc hne (hground.imp_right And.left)
  have hsecond := skipStatement_of_closedBy (hc.of_forall₂ hkinds ha) hne'
    (hground.imp_right And.right)
  exact ⟨hfirst.1, forall₂_skipStatement (fun _ _ h => h.kind) ha, hfirst.2, hsecond.2⟩

/-- Behind a statement, which is passed over if nothing of it was read, both files go on alike. -/
theorem passed_agree [g.Level] {q : Position} {t t' : Token} {us us' mid mid' : List Token}
    (hq : g.Holds r ⟨q.depth, false⟩) (ht : t.kind ≠ .dedent) (he : t.kind ≠ .endOfFile)
    (hsame : List.Forall₂ r.Same (t :: us) (t' :: us')) (hends : EndsStatement (t :: us) mid)
    (hc : (⟨q.depth, false⟩ : Position).ClosedBy mid) (hm : List.Forall₂ r.Same mid mid') :
    ∃ b b', (if (mid ++ r.behind).length = (t :: us ++ r.behind).length
        then skipStatement (mid ++ r.behind) else mid ++ r.behind) = b ++ r.behind ∧
      (if (mid' ++ r.next).length = (t' :: us' ++ r.next).length
        then skipStatement (mid' ++ r.next) else mid' ++ r.next) = b' ++ r.next ∧
      EndsStatement (t :: us) b ∧ b.length < (t :: us).length ∧
      (⟨q.depth, false⟩ : Position).ClosedBy b ∧ List.Forall₂ r.Same b b' := by
  simp only [List.length_append, Nat.add_right_cancel_iff, ← hm.length_eq, ← hsame.length_eq]
  by_cases hnone : mid.length = (t :: us).length
  · obtain rfl := hends.suffix.eq_of_length hnone
    obtain ⟨hclosed, hskipped, hfirst, hsecond⟩ :=
      skipStatement_agree hq hc (List.cons_ne_nil t us) hm
    rw [if_pos rfl, if_pos rfl]
    exact ⟨_, _, hfirst, hsecond, .inr rfl, length_skipStatement_lt ht he, hclosed, hskipped⟩
  · rw [if_neg hnone, if_neg hnone]
    exact ⟨mid, mid', rfl, rfl, hends, Nat.lt_of_le_of_ne hends.suffix.length_le hnone, hc, hm⟩

/-! ## All statements of a block -/

section

variable {statement : σ → Parser σ} {statement' : σ' → Parser σ'} {f : σ → σ'}

/-- One round leads to the mark that closes the block, or reads one statement. -/
theorem statementStep_agree [g.Level]
    (hstatement : ∀ s, Agree r g false (statement s) (statement' (f s)) f fun _ => .ends)
    {q : Position} {a a' c : List Token} {s : σ} {next : Option σ} (hq : g.Holds r q)
    (hc : q.ClosedBy a) (ha : List.Forall₂ r.Same a a') (hne : behindNewlines a ≠ [])
    (h : statementStep statement s r.first (a ++ r.behind) = .ok (next, c)) :
    ∃ b b', c = b ++ r.behind ∧ (next = none → ∃ t us, b = t :: us ∧ t.kind = .dedent) ∧
      (next ≠ none → b.length < a.length) ∧ (∀ n, 0 < n → skipBlock n b = skipBlock n a) ∧
      (⟨q.depth, false⟩ : Position).ClosedBy b ∧ List.Forall₂ r.Same b b' ∧
      statementStep statement' (f s) r.second (a' ++ r.next) =
        .ok (next.map f, b' ++ r.next) := by
  obtain ⟨l, hc₁⟩ := closedBy_behindNewlines hc
  obtain ⟨t, us, hus⟩ := List.exists_cons_of_ne_nil hne
  have hblock (n : Nat) : skipBlock n (t :: us) = skipBlock n a := by
    rw [← hus, skipBlock_behindNewlines]
  have hlength := (behindNewlines_suffix a).length_le
  have hsame := forall₂_behindNewlines (fun _ _ h => h.kind) ha
  rw [hus] at hc₁ hlength hsame
  obtain ⟨t', us', ht', -, hus'⟩ := List.forall₂_cons_left_iff.1 hsame
  rw [hus'] at hsame
  have hfirst := behindNewlines_append hus r.behind
  have hsecond := behindNewlines_append hus' r.next
  by_cases ht : t.kind = .dedent
  · rw [statementStep_of_dedent r.first_final hfirst ht] at h
    cases h
    refine ⟨t :: us, t' :: us', rfl, fun _ => ⟨t, us, rfl, ht⟩, fun e => absurd rfl e,
      fun n _ => hblock n, ?_, hsame, ?_⟩
    · obtain rfl : l = false := (hc₁.of_dedent ht).1
      exact hc₁
    · exact statementStep_of_dedent r.second_final hsecond (ht'.kind.trans ht)
  have he := hc₁.kind_ne_endOfFile
  obtain ⟨v, _, hv, rfl, rfl⟩ := (statementStep_eq_ok_iff r.first_final hfirst ht he).1 h
  have hentry : Entry r g false ⟨q.depth, l⟩ (t :: us) :=
    ⟨List.cons_ne_nil t us, hq.of_depth_eq rfl, fun e => Bool.noConfusion e⟩
  obtain ⟨_, mid, mid', rfl, ⟨rfl, hends⟩, hcm, hm, hv'⟩ := hstatement s hentry hc₁ hsame hv
  obtain ⟨b, b', hb, hb', hends, hlt, hcb, hbb⟩ :=
    passed_agree (hq.of_depth_eq rfl) ht he hsame hends hcm hm
  refine ⟨b, b', hb, nofun, fun _ => Nat.lt_of_lt_of_le hlt hlength,
    fun n hn => (hends.skipBlock_eq hn).trans (hblock n), hcb, hbb, ?_⟩
  refine (statementStep_eq_ok_iff r.second_final hsecond ?_ ?_).2 ⟨_, _, hv', rfl, hb'.symm⟩
  · rwa [ht'.kind]
  · rwa [ht'.kind]

/-- The loop leads to the mark that closes the block. The induction is on the number of tokens
left. -/
theorem iterateOn_statementStep_agree
    (hstatement : ∀ s, Agree r .block false (statement s) (statement' (f s)) f fun _ => .ends)
    {q : Position} {a a' c : List Token} {s v : σ} (hq : 0 < q.depth) (hc : q.ClosedBy a)
    (ha : List.Forall₂ r.Same a a')
    (h : iterateOn (statementStep statement) r.first s (a ++ r.behind) = .ok (v, c)) :
    ∃ b b', c = b ++ r.behind ∧ (∃ t us, b = t :: us ∧ t.kind = .dedent) ∧
      skipBlock 1 b = skipBlock 1 a ∧ (⟨q.depth, false⟩ : Position).ClosedBy b ∧
      List.Forall₂ r.Same b b' ∧
      iterateOn (statementStep statement') r.second (f s) (a' ++ r.next) =
        .ok (f v, b' ++ r.next) := by
  induction hn : a.length using Nat.strongRecOn generalizing s q a a' with
  | ind n ih =>
    obtain ⟨next, _, hs⟩ := exists_step_of_iterateOn h
    obtain ⟨b, b', rfl, hnone, hsome, hblock, hc', hb, hs'⟩ :=
      statementStep_agree hstatement hq hc ha (behindNewlines_ne_nil hq hc) hs
    cases next with
    | none =>
      rw [iterateOn_of_none hs] at h
      rw [iterateOn_of_none hs']
      cases h
      exact ⟨b, b', rfl, hnone rfl, hblock 1 Nat.one_pos, hc', hb, rfl⟩
    | some next =>
      have hlt := hsome (Option.some_ne_none next)
      have hlt' : (b ++ r.behind).length < (a ++ r.behind).length := by
        rw [List.length_append, List.length_append]
        exact Nat.add_lt_add_right hlt _
      rw [iterateOn_of_some hs, if_pos hlt'] at h
      rw [iterateOn_of_some hs', if_pos ((r.length_lt_iff ha hb).2 hlt')]
      obtain ⟨d, d', rfl, hd, hblock', hc'', hdd, h'⟩ :=
        ih b.length (hn ▸ hlt) (q := ⟨q.depth, false⟩) hq hc' hb h rfl
      exact ⟨d, d', rfl, hd, hblock'.trans (hblock 1 Nat.one_pos), hc'', hdd, h'⟩

/-- The statements of a block are read up to the mark that closes it. -/
theorem statements_agree
    (hstatement : ∀ s, Agree r .block false (statement s) (statement' (f s)) f fun _ => .ends)
    {q : Position} {a a' c : List Token} {s v : σ} (hq : 0 < q.depth) (hc : q.ClosedBy a)
    (ha : List.Forall₂ r.Same a a')
    (h : statements statement s r.first (a ++ r.behind) = .ok (v, c)) :
    ∃ b b', c = b ++ r.behind ∧ b = skipBlock 1 a ∧
      (⟨q.depth - 1, false⟩ : Position).ClosedBy b ∧ List.Forall₂ r.Same b b' ∧
      statements statement' (f s) r.second (a' ++ r.next) = .ok (f v, b' ++ r.next) := by
  rw [statements_eq] at h ⊢
  obtain ⟨last, _, hlast, h⟩ := bind_eq_ok_iff.1 h
  obtain ⟨_, c', rfl, ⟨t, us, rfl, ht⟩, hblock, hc', hcc, hlast'⟩ :=
    iterateOn_statementStep_agree hstatement hq hc ha hlast
  obtain ⟨t', us', ht', hus, rfl⟩ := List.forall₂_cons_left_iff.1 hcc
  obtain ⟨-, depth, hdepth, hclosed⟩ := hc'.of_dedent ht
  have hdepth : q.depth = depth + 1 := hdepth
  rw [skipBlock_of_dedent ht, if_pos (Nat.le_refl 1)] at hblock
  rw [List.cons_append, bind_eq_ok (accept_of_eq ht)] at h
  cases h
  refine ⟨us, us', rfl, hblock, ?_, hus, ?_⟩
  · rw [hdepth]
    exact hclosed
  · show (iterate (statementStep statement') (f s) >>= _) r.second _ = _
    rw [bind_eq_ok hlast', List.cons_append, bind_eq_ok (accept_of_eq (ht'.kind.trans ht))]
    rfl

end

/-! ## Tokens of a class -/

theorem head_ne_indent {scope : Scope} {ts : List Token} (hf : scope.final.kind = .endOfFile)
    (h : NoIndent ts) : (head scope ts).kind ≠ .indent := by
  cases ts with
  | nil =>
    show scope.final.kind ≠ .indent
    rw [hf]
    decide
  | cons t us => exact h t us rfl

/-- A token that is expected stands in both files, or in none. -/
theorem expect_agree {kind : TokenKind} {a a' c : List Token} {t : Token} (hne : a ≠ [])
    (ha : List.Forall₂ r.Same a a') (h : expect kind r.first (a ++ r.behind) = .ok (t, c)) :
    ∃ t' b b', a = t :: b ∧ a' = t' :: b' ∧ c = b ++ r.behind ∧ t.kind = kind ∧ r.Same t t' ∧
      List.Forall₂ r.Same b b' ∧ expect kind r.second (a' ++ r.next) = .ok (t', b' ++ r.next) := by
  obtain ⟨ht, rfl, rfl⟩ := expect_eq_ok_iff.1 h
  cases ha with
  | nil => exact absurd rfl hne
  | @cons t t' b b' hsame hrest =>
    refine ⟨t', b, b', rfl, rfl, rfl, ht, hsame, hrest, expect_eq_ok_iff.2 ⟨?_, rfl, rfl⟩⟩
    exact hsame.kind.trans ht

/-- Behind the end of a line, on level ground, a block is opened by a token that is there. -/
theorem ne_nil_of_head {s : Position} {a : List Token} (hs : Ground.level.Holds r s)
    (hc : (⟨s.depth, false⟩ : Position).ClosedBy a)
    (h : (head r.first (a ++ r.behind)).kind = .indent) : a ≠ [] := by
  rintro rfl
  have hdepth : s.depth = 0 := congrArg Position.depth hc.eq_outside
  obtain ⟨hbehind, -⟩ := hs.resolve_left (by rw [hdepth]; exact Nat.lt_irrefl 0)
  exact head_ne_indent r.first_final hbehind h

theorem endsStatement_of_colon {t : Token} (h : t.kind = .colon) :
    t.kind.endsStatement = false := by
  rw [h]
  rfl

theorem beginBlock_agree {s : Position} {a a' c : List Token} {v : Unit}
    (hs : Ground.level.Holds r s) (hne : a ≠ []) (hc : s.ClosedBy a)
    (ha : List.Forall₂ r.Same a a') (h : beginBlock r.first (a ++ r.behind) = .ok (v, c)) :
    ∃ b b', c = b ++ r.behind ∧ skipStatement a = skipBlock 1 b ∧
      (⟨s.depth + 1, false⟩ : Position).ClosedBy b ∧ List.Forall₂ r.Same b b' ∧
      beginBlock r.second (a' ++ r.next) = .ok ((), b' ++ r.next) := by
  unfold beginBlock at h ⊢
  obtain ⟨_, _, hcolon, h₁⟩ := bind_eq_ok_iff.1 h
  obtain ⟨_, b, b', rfl, rfl, rfl, hkc, -, hb, hcolon'⟩ := expect_agree hne ha hcolon
  have hplain := endsStatement_of_colon hkc
  have hc := hc.of_plain hplain
  obtain ⟨_, _, hline, h₂⟩ := bind_eq_ok_iff.1 h₁
  obtain ⟨_, d, d', rfl, rfl, rfl, hkn, -, hd, hline'⟩ := expect_agree hc.ne_nil hb hline
  have hc := hc.of_newline hkn
  obtain ⟨_, _, hindent, h₃⟩ := bind_eq_ok_iff.1 h₂
  have hne := ne_nil_of_head hs hc (expect_eq_ok_iff.1 hindent).1
  obtain ⟨_, e, e', rfl, rfl, rfl, hki, -, he, hindent'⟩ := expect_agree hne hd hindent
  cases h₃
  refine ⟨e, e', rfl, ?_, (hc.of_indent hki).2, he, ?_⟩
  · rw [skipStatement_eq, lineBehind_of_plain hplain, lineBehind_of_newline hkn, skipUnder_cons,
      if_pos hki]
  · rw [bind_eq_ok hcolon', bind_eq_ok hline', bind_eq_ok hindent']
    rfl

namespace Agree

/-! ## Blocks -/

/-- A block agrees if its statements do. -/
theorem block [hlevel : g.Level] {statement : σ → Parser σ} {statement' : σ' → Parser σ'}
    {f : σ → σ'}
    (h : ∀ s, Agree r .block false (statement s) (statement' (f s)) f fun _ => .ends) (s : σ) :
    Agree r g plain (block statement s) (block statement' (f s)) f fun _ => .ends := by
  intro q a a' v d hq hc ha hrun
  obtain ⟨_, _, hbegin, hrun⟩ := bind_eq_ok_iff.1 hrun
  obtain ⟨b, b', rfl, hskip, hcb, hb, hbegin'⟩ :=
    beginBlock_agree (hlevel.holds hq.ground) hq.inside hc ha hbegin
  obtain ⟨c, c', rfl, hblock, hcc, hc', hrun'⟩ :=
    statements_agree h (Nat.succ_pos q.depth) hcb hb hrun
  exact ⟨_, c, c', rfl, ⟨rfl, .inr (hblock.trans hskip.symm)⟩, hcc, hc',
    bind_eq_ok_iff.2 ⟨(), _, hbegin', hrun'⟩⟩

/-- The end of a statement is the end of its line, or is there already because the block ends. -/
theorem endStatement : Agree r g plain endStatement endStatement id fun _ => .ends := by
  intro s a a' v c hs hc ha h
  obtain ⟨t, ts, rfl⟩ := List.exists_cons_of_ne_nil hs.inside
  obtain ⟨t', ts', ht, hts, rfl⟩ := List.forall₂_cons_left_iff.1 ha
  have he := hc.kind_ne_endOfFile
  unfold Parser.endStatement at h ⊢
  rw [List.cons_append, bind_eq_ok (isAt_of_ne he)] at h
  rw [List.cons_append, bind_eq_ok (isAt_of_ne (ht.kind.symm ▸ he))]
  by_cases hd : t.kind = .dedent
  · rw [if_neg Bool.false_ne_true, bind_eq_ok (isAt_of_eq hd)] at h
    rw [if_neg Bool.false_ne_true, bind_eq_ok (isAt_of_eq (ht.kind.trans hd))]
    cases h
    refine ⟨s, t :: ts, t' :: ts', rfl, ⟨?_, .inl ?_⟩, hc, .cons ht hts, rfl⟩
    · show s = ⟨s.depth, false⟩
      rw [← (hc.of_dedent hd).1]
    · rw [lineBehind_of_mark (by rw [hd]; rfl) (by rw [hd]; decide)]
  · rw [if_neg Bool.false_ne_true, bind_eq_ok (isAt_of_ne hd), if_neg Bool.false_ne_true] at h
    rw [if_neg Bool.false_ne_true, bind_eq_ok (isAt_of_ne (ht.kind.symm ▸ hd)),
      if_neg Bool.false_ne_true]
    obtain ⟨_, _, hline, h⟩ := bind_eq_ok_iff.1 h
    obtain ⟨_, b, b', e, e', rfl, hk, -, hb, hline'⟩ := expect_agree hs.inside ha hline
    cases e
    cases e'
    cases h
    refine ⟨_, ts, ts', rfl, ⟨rfl, .inl (lineBehind_of_newline hk ts).symm⟩, hc.of_newline hk,
      hts, ?_⟩
    exact bind_eq_ok hline'

/-- Statements are passed over in both files. -/
theorem skip [g.Level] : Agree r g plain skip skip id fun _ => .ends := by
  intro s a a' v c hs hc ha h
  cases h
  obtain ⟨hclosed, hskipped, hfirst, hsecond⟩ := skipStatement_agree hs.ground hc hs.inside ha
  refine ⟨_, skipStatement a, skipStatement a', hfirst, ⟨rfl, .inr rfl⟩, hclosed, hskipped, ?_⟩
  rw [skip_apply, hsecond, id]

end Agree

end Blueprint.Parser
