import Blueprint.Module.Grammar
import Blueprint.Proofs.Bodies
import Blueprint.Proofs.Concatenation

/-!
# Statements that are not known

A statement that begins with an identifier means nothing to most bodies: they pass over it, with the
block under it, and go on as if it were not there (`Ignores`, `Lenient`). So it can be put between
two statements of such a body (`statements_insert`), and the declaration is read the same
(`Lenient.permits`), and with it the module (`InBody.module_eq`).
-/

namespace Blueprint

/-- A file, and the same with other tokens behind the first ones. -/
def Rereading.splice (scope : Scope) (behind next : List Token)
    (h : scope.final.kind = .endOfFile) : Rereading :=
  ⟨scope, scope, behind, next, id, h, h⟩

theorem Rereading.forall₂_splice (scope : Scope) (behind next : List Token)
    (h : scope.final.kind = .endOfFile) (ts : List Token) :
    List.Forall₂ (splice scope behind next h).Same ts ts :=
  List.forall₂_same.2 fun _ _ => ⟨rfl, rfl, fun _ => rfl⟩

namespace Parser

variable {α σ : Type} {scope : Scope} {statement : σ → Parser σ} {s : σ}

/-! ## Blocks -/

section

variable {ts ts' nl a a' out : List Token} {t : Token} {us : List Token} {v : σ}

/-- Ends of lines in front of a statement make no difference. -/
theorem statementStep_of_behindNewlines (hf : scope.final.kind = .endOfFile)
    (h : behindNewlines ts = behindNewlines ts') :
    statementStep statement s scope ts = statementStep statement s scope ts' := by
  unfold statementStep
  rw [bind_eq_ok (skipNewlines_of hf h), bind_eq_ok (skipNewlines_of hf rfl)]

/-- A round of a block that is open reads something. -/
theorem length_of_statementStep [∀ s, Reads .level false (statement s) .ends]
    (hf : scope.final.kind = .endOfFile) {q : Position} (hq : 0 < q.depth) (hc : q.ClosedBy a)
    {next : σ} (h : statementStep statement s scope a = .ok (some next, out)) :
    out.length < a.length := by
  rw [← List.append_nil a] at h
  obtain ⟨b, -, e, -, hlt, -⟩ := statementStep_agree (r := .self scope [] hf) (g := .block)
    (f := id) (fun s => (Reads.agree _).onLevel) hq hc (Rereading.forall₂_self scope [] hf a)
    (behindNewlines_ne_nil hq hc) h
  have hout : out = b := e.trans (List.append_nil b)
  rw [hout]
  exact hlt (Option.some_ne_none next)

/-- Ends of lines in front of the rest of a block make no difference. -/
theorem statements_of_newlines [∀ s, Reads .level false (statement s) .ends]
    (hf : scope.final.kind = .endOfFile) {q : Position} (hq : 0 < q.depth) (hc : q.ClosedBy a)
    (hnl : ∀ t ∈ nl, t.kind = .newline)
    (h : statements statement s scope (nl ++ a) = .ok (v, out)) :
    statements statement s scope a = .ok (v, out) := by
  rw [statements_eq] at h ⊢
  obtain ⟨last, mid, hloop, hend⟩ := bind_eq_ok_iff.1 h
  refine bind_eq_ok_iff.2 ⟨last, mid, ?_, hend⟩
  change iterateOn (statementStep statement) scope s (nl ++ a) = .ok (last, mid) at hloop
  show iterateOn (statementStep statement) scope s a = .ok (last, mid)
  obtain ⟨next, b, hstep⟩ := exists_step_of_iterateOn hloop
  have hstep' := hstep
  rw [statementStep_of_behindNewlines hf (behindNewlines_of_all hnl a)] at hstep'
  cases next with
  | none =>
    rw [iterateOn_of_none hstep] at hloop
    rw [iterateOn_of_none hstep', hloop]
  | some next =>
    have hlt := length_of_statementStep hf hq hc hstep'
    have hlt' : b.length < (nl ++ a).length := by
      rw [List.length_append]
      omega
    rw [iterateOn_of_some hstep, if_pos hlt'] at hloop
    rwa [iterateOn_of_some hstep', if_pos hlt]

/-- The whole statements in front of other tokens are read in rounds, the same whatever stands
behind them. The induction is on the number of tokens left. -/
theorem rounds_agree {r : Rereading} [∀ s, Reads .level false (statement s) .ends]
    (hbehind : NoIndent r.behind) (hnext : NoIndent r.next) (hc : Position.outside.ClosedBy a)
    (ha : List.Forall₂ r.Same a a')
    (h : statements statement s r.first (a ++ r.behind) = .ok (v, out)) :
    ∃ s' nl nl', (∀ t ∈ nl, t.kind = .newline) ∧ (∀ t ∈ nl', t.kind = .newline) ∧
      Rounds statement r.first s (a ++ r.behind) s' (nl ++ r.behind) ∧
      Rounds statement r.second s (a' ++ r.next) s' (nl' ++ r.next) := by
  induction hn : a.length using Nat.strongRecOn generalizing s a a' with
  | ind n ih =>
    by_cases hne : behindNewlines a = []
    · have hsame := forall₂_behindNewlines (fun _ _ h => h.kind) ha
      rw [hne, List.forall₂_nil_left_iff] at hsame
      exact ⟨s, a, a', kind_of_behindNewlines hne, kind_of_behindNewlines hsame, .refl, .refl⟩
    have hloop := h
    rw [statements_eq] at hloop
    obtain ⟨last, mid, hloop, -⟩ := bind_eq_ok_iff.1 hloop
    obtain ⟨next, c, hstep⟩ := exists_step_of_iterateOn hloop
    obtain ⟨b, b', rfl, hnone, hsome, -, hcb, hb, hstep'⟩ := statementStep_agree (g := .level)
      (f := id) (fun s => Reads.agree r) (.inr ⟨hbehind, hnext⟩) hc ha hne hstep
    cases next with
    | none =>
      -- no block is open that could end
      obtain ⟨t, us, rfl, ht⟩ := hnone rfl
      obtain ⟨-, d, hd, -⟩ := hcb.of_dedent ht
      cases hd
    | some next =>
      have hlt := hsome (Option.some_ne_none next)
      have hround : Rounds statement r.first s (a ++ r.behind) next (b ++ r.behind) :=
        Rounds.round .refl hstep
          (by simpa only [List.length_append] using Nat.add_lt_add_right hlt _)
      have hround' : Rounds statement r.second s (a' ++ r.next) next (b' ++ r.next) :=
        Rounds.round .refl hstep' (by
          rw [List.length_append, List.length_append, ← hb.length_eq, ← ha.length_eq]
          exact Nat.add_lt_add_right hlt _)
      rw [hround.statements_eq] at h
      obtain ⟨s', nl, nl', hnl, hnl', hrounds, hrounds'⟩ := ih b.length (hn ▸ hlt) hcb hb h rfl
      exact ⟨s', nl, nl', hnl, hnl', hround.trans hrounds, hround'.trans hrounds'⟩

end

/-! ## Statements that are passed over -/

/-- On the tokens, a statement leaves every state as it is, and is passed over if anything of it is
read. -/
def Ignores (statement : σ → Parser σ) (ts : List Token) : Prop :=
  ∀ s scope, scope.final.kind = .endOfFile →
    ∃ mid, statement s scope ts = .ok (s, mid) ∧ (mid = ts ∨ mid = skipStatement ts)

section

variable {ts us a x behind out : List Token} {t : Token} {v : σ}

/-- A statement that is passed over takes one round. -/
theorem statementStep_of_ignored (hf : scope.final.kind = .endOfFile)
    (hline : behindNewlines ts = t :: us) (ht : t.kind.endsStatement = false)
    (h : Ignores statement (t :: us)) :
    statementStep statement s scope ts = .ok (some s, skipStatement (t :: us)) := by
  have hd : t.kind ≠ .dedent := by rintro e; rw [e] at ht; cases ht
  have he : t.kind ≠ .endOfFile := by rintro e; rw [e] at ht; cases ht
  obtain ⟨mid, hmid, hread⟩ := h s scope hf
  refine (statementStep_eq_ok_iff hf hline hd he).2 ⟨s, mid, hmid, rfl, ?_⟩
  rcases hread with rfl | rfl
  · exact (if_pos rfl).symm
  · exact (if_neg (Nat.ne_of_lt (length_skipStatement_lt hd he))).symm

/-- A statement that is passed over can be put between two statements of a block. -/
theorem statements_insert [∀ s, Reads .level false (statement s) .ends]
    (hf : scope.final.kind = .endOfFile) (ha : Position.outside.ClosedBy a) {q : Position}
    (hq : 0 < q.depth) (hc : q.ClosedBy behind)
    (hbehind : NoIndent behind) (ht : t.kind.endsStatement = false)
    (hx : Ignores statement (t :: x ++ behind)) (hskip : skipStatement (t :: x ++ behind) = behind)
    (h : statements statement s scope (a ++ behind) = .ok (v, out)) :
    statements statement s scope (a ++ (t :: x ++ behind)) = .ok (v, out) := by
  have hnext : NoIndent (t :: x ++ behind) := .cons fun e => by rw [e] at ht; cases ht
  obtain ⟨s', nl, nl', hnl, hnl', hrounds, hrounds'⟩ :=
    rounds_agree (r := .splice scope behind (t :: x ++ behind) hf) hbehind hnext ha
      (Rereading.forall₂_splice ..) h
  have hrest : statements statement s' scope behind = .ok (v, out) :=
    statements_of_newlines hf hq hc hnl (hrounds.statements_eq.symm.trans h)
  -- behind the statements in front, the other one takes one round
  have hline : behindNewlines (nl' ++ (t :: x ++ behind)) = t :: (x ++ behind) := by
    rw [behindNewlines_of_all hnl']
    exact List.dropWhile_cons_of_neg (by rw [beq_iff_eq]; rintro e; rw [e] at ht; cases ht)
  have hstep : statementStep statement s' scope (nl' ++ (t :: x ++ behind)) =
      .ok (some s', behind) := by
    rw [statementStep_of_ignored hf hline ht hx]
    exact congrArg (fun rest => Except.ok (some s', rest)) hskip
  have hround := hrounds'.round hstep (by
    show behind.length < (nl' ++ (t :: x ++ behind)).length
    simp only [List.length_append, List.length_cons]
    omega)
  exact hround.statements_eq.trans hrest

end

/-! ## Bodies -/

/-- The tokens lead from a keyword into the body of its declaration: they end its line, open the
body and hold whole statements of it. -/
def LeadsInto (k : Keyword) (a : List Token) : Prop :=
  ∃ word line newline indent inside, a = (word :: line ++ [newline]) ++ indent :: inside ∧
    word.kind = .keyword k ∧ (∀ t ∈ line, t.kind.endsStatement = false) ∧
    Position.outside.ClosedBy (word :: line ++ [newline]) ∧ indent.kind = .indent ∧
    Position.outside.ClosedBy inside

/-- The tokens begin with a statement that bodies do not know: with an identifier and, in an entity,
no colon behind it. -/
def Unknown (k : Keyword) (t : Token) (us : List Token) : Prop :=
  t.kind = .identifier ∧ (k = .entity → ∀ c ∈ us.head?, c.kind ≠ .colon)

/-- Nothing stands behind the end of a line that is the last token of its line. -/
theorem eq_nil_of_newline {line us vs : List Token} {newline t : Token}
    (hline : ∀ t ∈ line, t.kind.endsStatement = false) (ht : t.kind = .newline)
    (h : line ++ [newline] = us ++ t :: vs) : vs = [] := by
  rcases List.eq_nil_or_concat vs with hvs | ⟨vs, last, rfl⟩
  · exact hvs
  · rw [List.concat_eq_append, ← List.cons_append, ← List.append_assoc] at h
    obtain ⟨rfl, -⟩ := List.append_inj' h rfl
    have hplain := hline t (List.mem_append_right us List.mem_cons_self)
    rw [ht] at hplain
    cases hplain

section

variable {β : Type} {k : Keyword} {opening : Parser β} {q : β → Parser α} {v : α}
  {word newline indent : Token} {line us out : List Token}

/-- A line that opens a block is read the same whatever the block holds. -/
theorem opening_agree (q' : β → Parser α) (us' : List Token) (hf : scope.final.kind = .endOfFile)
    (hopening : ∀ behind next, Agree (.splice scope behind next hf) .any true opening opening id
      fun _ => .stays)
    (hword : word.kind.endsStatement = false) (hline : ∀ t ∈ line, t.kind.endsStatement = false)
    (hc : Position.outside.ClosedBy (word :: line ++ [newline])) (hindent : indent.kind = .indent)
    (h : (opening >>= fun x => beginBlock >>= fun _ => q x) scope
      ((word :: line ++ [newline]) ++ indent :: us) = .ok (v, out)) :
    ∃ x, q x scope us = .ok (v, out) ∧
      (opening >>= fun x => beginBlock >>= fun _ => q' x) scope
        ((word :: line ++ [newline]) ++ indent :: us') = q' x scope us' := by
  obtain ⟨x, _, hx, h⟩ := bind_eq_ok_iff.1 h
  have hplain : ∀ t ∈ word :: line, t.kind.endsStatement = false :=
    List.forall_mem_cons.2 ⟨hword, hline⟩
  obtain ⟨s', b, b', rfl, hleads, hcb, hb, hx'⟩ := hopening (indent :: us) (indent :: us')
    (Entry.any_plain hword) (.plain hword (hc.of_plain hword))
    (Rereading.forall₂_splice scope (indent :: us) (indent :: us') hf _) hx
  -- what was read is a part of the line
  obtain ⟨read, hread, rfl⟩ : ∃ read, word :: line ++ [newline] = read ++ b ∧ s' = ⟨0, true⟩ := by
    rcases hleads with ⟨rfl, rfl⟩ | ⟨rfl, read, hread, -⟩
    · exact ⟨[], rfl, rfl⟩
    · exact ⟨read, hread, rfl⟩
  obtain ⟨_, _, hbegin, hq⟩ := bind_eq_ok_iff.1 h
  obtain ⟨colon, _, hcolon, hbegin⟩ := bind_eq_ok_iff.1 hbegin
  obtain ⟨_, c, c', rfl, rfl, rfl, hkc, -, hc', hcolon'⟩ := expect_agree hcb.ne_nil hb hcolon
  have hcc := hcb.of_plain (endsStatement_of_colon hkc)
  obtain ⟨t, _, hnewline, hbegin⟩ := bind_eq_ok_iff.1 hbegin
  obtain ⟨_, d, d', rfl, rfl, rfl, hkn, -, hd, hnewline'⟩ := expect_agree hcc.ne_nil hc' hnewline
  obtain rfl : d = [] := by
    rw [List.append_cons read colon] at hread
    exact eq_nil_of_newline hplain hkn hread
  obtain rfl := List.forall₂_nil_left_iff.1 hd
  obtain ⟨_, _, hexpect, hbegin⟩ := bind_eq_ok_iff.1 hbegin
  rw [List.nil_append] at hexpect
  have hus : expect .indent scope (indent :: us) = .ok (indent, us) := expect_of_eq hindent
  cases hus.symm.trans hexpect
  cases hbegin
  have hindent' : expect .indent scope (indent :: us') = .ok (indent, us') := expect_of_eq hindent
  have hbegin' : beginBlock scope (_ :: _ :: indent :: us') = .ok ((), us') :=
    bind_eq_ok_iff.2 ⟨_, _, hcolon', bind_eq_ok_iff.2 ⟨_, _, hnewline', bind_eq_ok hindent'⟩⟩
  exact ⟨x, hq, (bind_eq_ok hx').trans (bind_eq_ok hbegin')⟩

end

/-- What stands in front of the body of a declaration is read the same whatever stands behind. -/
theorem titled_agree {k : Keyword} {behind next : List Token} (hf : scope.final.kind = .endOfFile) :
    Agree (.splice scope behind next hf) .any true (titled k) (titled k) id fun _ => .stays := by
  intro s a a' v c hs hc ha h
  have hreads (l : Location) : Reads .any true (expectKeyword k >>= fun _ => header >>= fun h =>
      pure (l, h.1, h.2)) .stays := inferInstance
  obtain ⟨t, a, rfl, ht⟩ := hs.plain rfl
  obtain ⟨t', a', hsame, -, rfl⟩ := List.forall₂_cons_left_iff.1 ha
  unfold titled at h ⊢
  rw [bind_eq_ok (here_apply _ _)] at h ⊢
  have hplace : scope.locate t = scope.locate t' := hsame.place ht
  have hrun := (hreads (scope.locate t)).agree (.splice scope behind next hf) hs hc ha h
  rw [hplace] at hrun
  exact hrun

/-- The statements of a body are read one after the other, and those that are not known are passed
over. -/
structure Lenient (k : Keyword) (statement : σ → Parser σ) : Prop where
  reads : ∀ s, Reads .level false (statement s) .ends
  ignores : ∀ t us, Unknown k t us → Ignores statement (t :: us)

/-- Statements that are not known can be put anywhere into the body of the declaration that the
parser reads. -/
class Permits (k : Keyword) (p : Parser α) : Prop where
  run : ∀ {scope : Scope} {a x behind out : List Token} {t : Token} {q : Position} {v : α},
    scope.final.kind = .endOfFile → LeadsInto k a → 0 < q.depth → q.ClosedBy behind →
    NoIndent behind → Unknown k t (x ++ behind) → skipStatement (t :: x ++ behind) = behind →
    p scope (a ++ behind) = .ok (v, out) → p scope (a ++ (t :: x ++ behind)) = .ok (v, out)

theorem Lenient.permits {k : Keyword} (h : Lenient k statement)
    (start : Location → String × Option String → σ)
    (finish : Location → String × Option String → σ → Parser α) :
    Permits k (here >>= fun l => expectKeyword k >>= fun _ => header >>= fun title =>
      block statement (start l title) >>= finish l title) := by
  refine ⟨fun {scope a x behind out t q v} hf ha hq hc hbehind hx hskip hrun => ?_⟩
  have hreads := h.reads
  obtain ⟨word, line, newline, indent, inside, rfl, hword, hline, hopen, hindent, hinside⟩ := ha
  have hplain : word.kind.endsStatement = false := by rw [hword]; rfl
  have hparser : (here >>= fun l => expectKeyword k >>= fun _ => header >>= fun title =>
      Parser.block statement (start l title) >>= finish l title) =
      titled k >>= fun h => beginBlock >>= fun _ =>
        statements statement (start h.1 h.2) >>= finish h.1 h.2 := by
    unfold titled Parser.block
    simp only [bind_assoc, pure_bind]
  rw [hparser, List.append_assoc] at hrun ⊢
  obtain ⟨⟨l, title⟩, hfinish, hinsert⟩ := opening_agree (fun h =>
    statements statement (start h.1 h.2) >>= finish h.1 h.2)
    (inside ++ (t :: x ++ behind)) hf (fun _ _ => titled_agree hf) hplain hline hopen hindent
    hrun
  refine hinsert.trans ?_
  obtain ⟨s, mid, hs, hfinish⟩ := bind_eq_ok_iff.1 hfinish
  refine (bind_eq_ok ?_).trans hfinish
  refine statements_insert hf hinside hq hc hbehind ?_ (h.ignores _ _ hx) hskip hs
  rw [hx.1]
  rfl

theorem Lenient.permits_block {k : Keyword} {statement : α → Parser α} (h : Lenient k statement)
    (start : Location → String × Option String → α) :
    Permits k (here >>= fun l => expectKeyword k >>= fun _ => header >>= fun title =>
      block statement (start l title)) := by
  have hpermits := h.permits start fun _ _ s => pure s
  simp only [bind_pure] at hpermits
  exact hpermits

/-! ## Declarations -/

section

variable {k : Keyword} {t : Token}

theorem keyword?_of_identifier (ht : t.kind = .identifier) (us : List Token) :
    keyword? scope (t :: us) = .ok (none, t :: us) := by
  rw [keyword?_apply, head_cons]
  unfold Token.keyword?
  rw [ht]

theorem isAtUnkeyed_of_identifier (ht : t.kind = .identifier) (us : List Token) :
    isAtUnkeyed k scope (t :: us) = .ok (false, t :: us) := by
  unfold isAtUnkeyed
  rw [bind_eq_ok (isAtKeyword_apply k scope _), head_cons, ht]
  rfl

theorem isAtKeyed_of_identifier (ht : t.kind = .identifier) (us : List Token) :
    isAtKeyed k scope (t :: us) = .ok (false, t :: us) := by
  unfold isAtKeyed
  rw [bind_eq_ok (isAtKeyword_apply k scope _), head_cons, ht]
  rfl

/-- Statements that are chosen by their keyword. -/
theorem Lenient.of_keyword {choose : σ → Option Keyword → Parser σ}
    (hother : ∀ s, choose s none = passOver s)
    (h : ∀ s, Reads .level false (keyword? >>= choose s) .ends) :
    Lenient k fun s => keyword? >>= choose s where
  reads := h
  ignores t us hx s scope _ := by
    refine ⟨_, (bind_eq_ok (keyword?_of_identifier hx.1 us)).trans ?_, .inr rfl⟩
    rw [hother]
    rfl

end

instance : Permits .surface surface := by
  have h : Lenient .surface surfaceStatement := .of_keyword (fun _ => rfl) fun s =>
    inferInstanceAs (Reads .level false (surfaceStatement s) .ends)
  unfold surface
  exact h.permits_block fun l (n, title) => { location := l, name := n, title }

instance : Permits .persona persona := by
  have h : Lenient .persona personaDirective := .of_keyword (fun _ => rfl) fun s =>
    inferInstanceAs (Reads .level false (personaDirective s) .ends)
  unfold persona
  exact h.permits_block fun l (n, title) => { location := l, name := n, title }

instance : Permits .ledger ledger := by
  have h : Lenient .ledger ledgerStatement := .of_keyword (fun _ => rfl) fun s =>
    inferInstanceAs (Reads .level false (ledgerStatement s) .ends)
  unfold ledger
  exact h.permits (fun _ _ => {}) _

instance : Permits .approval approval := by
  have h : Lenient .approval approvalStatement := .of_keyword (fun _ => rfl) fun s =>
    inferInstanceAs (Reads .level false (approvalStatement s) .ends)
  unfold approval
  exact h.permits (fun _ _ => {}) _

instance : Permits .sla sla := by
  have h : Lenient .sla slaStatement := .of_keyword (fun _ => rfl) fun s =>
    inferInstanceAs (Reads .level false (slaStatement s) .ends)
  unfold sla
  exact h.permits (fun _ _ => {}) _

instance : Permits .webhook webhook := by
  have h : Lenient .webhook webhookStatement := .of_keyword (fun _ => rfl) fun s =>
    inferInstanceAs (Reads .level false (webhookStatement s) .ends)
  unfold webhook
  exact h.permits (fun _ _ => {}) _

instance : Permits .story story := by
  have h : Lenient .story storyStatement := .of_keyword (fun _ => rfl) fun s =>
    inferInstanceAs (Reads .level false (storyStatement s) .ends)
  unfold story
  exact h.permits (fun _ _ => {}) _

instance : Permits .stream stream := by
  have h : Lenient .stream streamStatement := .of_keyword (fun _ => rfl) fun s =>
    inferInstanceAs (Reads .level false (streamStatement s) .ends)
  unfold stream
  exact h.permits (fun l (n, title) => { location := l, name := n, title }) _

theorem step?_of_identifier {t : Token} (ht : t.kind = .identifier) (us : List Token) :
    step? scope (t :: us) = .ok (none, t :: us) := by
  unfold step? nested nestedOn
  rw [bind_eq_ok (isAtUnkeyed_of_identifier ht us), if_neg Bool.false_ne_true,
    bind_eq_ok (isAtUnkeyed_of_identifier ht us)]
  rfl

instance : Permits .process process := by
  have h : Lenient .process processStatement := by
    refine ⟨fun s => inferInstance, fun t us hx s scope _ => ⟨_, ?_, .inr rfl⟩⟩
    unfold processStatement processDirective
    rw [bind_eq_ok (step?_of_identifier hx.1 us)]
    exact bind_eq_ok (keyword?_of_identifier hx.1 us)
  unfold process
  exact h.permits (fun l (n, title) => { location := l, name := n, title }) _

section

variable {t : Token} {us : List Token}

theorem isAtWord_of_identifier (ht : t.kind = .identifier) (us : List Token) :
    isAtWord scope (t :: us) = .ok (true, t :: us) := by
  rw [isAtWord_apply, head_cons]
  unfold Token.isWord
  rw [ht]

/-- In an entity, no colon stands behind an identifier that is not known. -/
theorem peekIs_colon_of_unknown (hf : scope.final.kind = .endOfFile) (hx : Unknown .entity t us) :
    peekIs 1 .colon scope (t :: us) = .ok (false, t :: us) := by
  have hcolon : (head scope us).kind ≠ .colon := by
    cases us with
    | nil =>
      show scope.final.kind ≠ .colon
      rw [hf]
      decide
    | cons c us => exact hx.2 rfl c rfl
  have hpeek : peek 1 scope (t :: us) = .ok (head scope us, t :: us) := peek_one_apply scope _
  unfold peekIs
  rw [bind_eq_ok hpeek, beq_false_of_ne hcolon]
  rfl

theorem isAtField_of_unknown (hf : scope.final.kind = .endOfFile) (hx : Unknown .entity t us) :
    isAtField scope (t :: us) = .ok (false, t :: us) := by
  unfold isAtField
  rw [bind_eq_ok (isAtWord_of_identifier hx.1 us), if_pos rfl,
    bind_eq_ok (peekIs_colon_of_unknown hf hx)]
  rfl

theorem member?_of_unknown (hf : scope.final.kind = .endOfFile) {m : Members}
    (hx : Unknown .entity t us) : member? m scope (t :: us) = .ok (none, t :: us) := by
  unfold member?
  rw [bind_eq_ok (isAtField_of_unknown hf hx), if_neg Bool.false_ne_true,
    bind_eq_ok (isAtUnkeyed_of_identifier hx.1 us), if_neg Bool.false_ne_true,
    bind_eq_ok (isAtKeyed_of_identifier hx.1 us)]
  rfl

theorem noField_of_unknown (hf : scope.final.kind = .endOfFile) {fields : List Field}
    (hx : Unknown .entity t us) :
    noField fields scope (t :: us) = .ok (fields, skipStatement (t :: us)) := by
  unfold noField
  rw [bind_eq_ok (isAtWord_of_identifier hx.1 us), bind_eq_ok (peekIs_colon_of_unknown hf hx)]
  rfl

theorem entityDirective_of_unknown (hf : scope.final.kind = .endOfFile) {e : Entity}
    {found : List Transition} (hx : Unknown .entity t us) :
    entityDirective e found scope (t :: us) = .ok ((e, found), skipStatement (t :: us)) := by
  unfold entityDirective
  exact (bind_eq_ok (keyword?_of_identifier hx.1 us)).trans
    (bind_eq_ok (noField_of_unknown hf hx))

end

instance : Permits .entity entity := by
  have h : Lenient .entity entityStatement := by
    refine ⟨fun s => inferInstance, fun t us hx s scope hf => ⟨_, ?_, .inr rfl⟩⟩
    exact (bind_eq_ok (member?_of_unknown hf hx)).trans (entityDirective_of_unknown hf hx)
  unfold entity
  exact h.permits (fun l (n, title) => ({ location := l, name := n, title }, [])) fun _ _ s =>
    pure { s.1 with stateMachine := StateMachine.of? s.1.fields s.2 }

/-! ## Files -/

/-- The keywords of declarations whose bodies pass over statements that they do not know. -/
def lenientKeywords : List Keyword :=
  [.entity, .surface, .ledger, .stream, .approval, .sla, .webhook, .persona, .story, .process]

theorem exists_construct {k : Keyword} (hk : k ∈ lenientKeywords) :
    ∃ (kind : DeclKind) (p : Parser kind.Body), Permits k p ∧
      ∀ d, construct? d k = some (d.declare kind <$> p) := by
  simp only [lenientKeywords, List.mem_cons, List.not_mem_nil, or_false] at hk
  rcases hk with rfl | rfl | rfl | rfl | rfl | rfl | rfl | rfl | rfl | rfl
  · exact ⟨.entity, entity, (inferInstance : Permits .entity entity), fun _ => rfl⟩
  · exact ⟨.surface, surface, (inferInstance : Permits .surface surface), fun _ => rfl⟩
  · exact ⟨.ledger, ledger, (inferInstance : Permits .ledger ledger), fun _ => rfl⟩
  · exact ⟨.stream, stream, (inferInstance : Permits .stream stream), fun _ => rfl⟩
  · exact ⟨.approval, approval, (inferInstance : Permits .approval approval), fun _ => rfl⟩
  · exact ⟨.sla, sla, (inferInstance : Permits .sla sla), fun _ => rfl⟩
  · exact ⟨.webhook, webhook, (inferInstance : Permits .webhook webhook), fun _ => rfl⟩
  · exact ⟨.persona, persona, (inferInstance : Permits .persona persona), fun _ => rfl⟩
  · exact ⟨.story, story, (inferInstance : Permits .story story), fun _ => rfl⟩
  · exact ⟨.process, process, (inferInstance : Permits .process process), fun _ => rfl⟩

/-- The tokens `t :: x` are a statement that is not known, put between the tokens in front, which
lead into the body of a declaration, and those behind. -/
structure InBody (k : Keyword) (a : List Token) (t : Token) (x behind : List Token) : Prop where
  keyword : k ∈ lenientKeywords
  leads : LeadsInto k a
  closed : (⟨1, false⟩ : Position).ClosedBy behind
  level : NoIndent behind
  unknown : Unknown k t (x ++ behind)
  skip : skipStatement (t :: x ++ behind) = behind

namespace InBody

variable {k : Keyword} {a x behind out front front' : List Token} {t : Token}

theorem keywordStatement_eq (h : InBody k a t x behind) (hf : scope.final.kind = .endOfFile)
    {d v : FileDraft} (hv : keywordStatement d k scope (a ++ behind) = .ok (v, out)) :
    keywordStatement d k scope (a ++ (t :: x ++ behind)) = .ok (v, out) := by
  obtain ⟨kind, p, hp, hconstruct⟩ := exists_construct h.keyword
  have hne : k ≠ .module ∧ k ≠ .use ∧ k ≠ .app := by
    have hk := h.keyword
    simp only [lenientKeywords, List.mem_cons, List.not_mem_nil, or_false] at hk
    rcases hk with rfl | rfl | rfl | rfl | rfl | rfl | rfl | rfl | rfl | rfl <;> decide
  unfold keywordStatement at hv ⊢
  rw [if_neg hne.1, if_neg hne.2.1, declarationStatement_of_construct? hne.2.2 (hconstruct d)]
    at hv ⊢
  obtain ⟨w, mid, hw, hv⟩ := bind_eq_ok_iff.1 hv
  obtain ⟨body, hbody, rfl⟩ := map_eq_ok_iff.1 hw
  have hinsert := hp.run hf h.leads Nat.one_pos h.closed h.level h.unknown h.skip hbody
  exact (bind_eq_ok (map_eq_ok_iff.2 ⟨body, hinsert, rfl⟩)).trans hv

/-- The word that opens the declaration comes first. -/
theorem exists_front (h : InBody k a t x behind) : ∃ word rest, a = word :: rest ∧
    word.kind = .keyword k ∧ word.kind.endsStatement = false := by
  obtain ⟨word, line, newline, indent, inside, rfl, hword, -⟩ := h.leads
  exact ⟨word, _, rfl, hword, by rw [hword]; rfl⟩

/-- A file that goes on with the declaration. -/
theorem declaration_eq (h : InBody k a t x behind) (hf : scope.final.kind = .endOfFile)
    {d v : FileDraft} {nl nl' : List Token} (hnl : ∀ t ∈ nl, t.kind = .newline)
    (hnl' : ∀ t ∈ nl', t.kind = .newline) (hclosed : Position.outside.ClosedBy (a ++ behind))
    (hv : iterateOn fileStatement? scope d (nl ++ (a ++ behind)) = .ok (v, out)) :
    iterateOn fileStatement? scope d (nl' ++ (a ++ (t :: x ++ behind))) = .ok (v, out) := by
  obtain ⟨word, rest, rfl, hword, hplain⟩ := h.exists_front
  have hnext {nl us : List Token} (hnl : ∀ t ∈ nl, t.kind = .newline) :
      behindNewlines (nl ++ (word :: rest ++ us)) = word :: (rest ++ us) := by
    rw [behindNewlines_of_all hnl]
    exact List.dropWhile_cons_of_neg (by rw [beq_iff_eq, hword]; nofun)
  obtain ⟨next, mid, hstep⟩ := exists_step_of_iterateOn hv
  obtain ⟨k', w, hk', rfl, hkeyword⟩ :=
    exists_of_fileStatement? hf (hnext hnl) (by rw [hword]; nofun) hstep
  obtain rfl : k = k' := TokenKind.keyword.inj (hword.symm.trans hk')
  have hstep' : fileStatement? d scope (nl' ++ (word :: rest ++ (t :: x ++ behind))) =
      .ok (some w, mid) := by
    rw [fileStatement?_of_keyword hf (hnext hnl') hword]
    exact map_eq_ok_iff.2 ⟨w, h.keywordStatement_eq hf hkeyword, rfl⟩
  have hlt : mid.length < (word :: rest ++ behind).length := by
    have hline : (⟨0, true⟩ : Position).ClosedBy (word :: (rest ++ behind)) :=
      .plain hplain (hclosed.of_plain hplain)
    rw [← List.append_nil (word :: (rest ++ behind))] at hkeyword
    obtain ⟨b, rfl, hends, -⟩ := keywordStatement_ends hf hplain hline .nil hkeyword
    rw [List.append_nil]
    exact hends.length_lt hplain
  have hlt' : mid.length < (nl' ++ (word :: rest ++ (t :: x ++ behind))).length := by
    simp only [List.length_append, List.length_cons] at hlt ⊢
    omega
  rw [iterateOn_of_some hstep, if_pos (by rw [List.length_append]; omega)] at hv
  rwa [iterateOn_of_some hstep', if_pos hlt']

theorem fileStatements_eq (h : InBody k a t x behind) (hf : scope.final.kind = .endOfFile)
    {d v : FileDraft} (hfront : Position.outside.ClosedBy front)
    (hsame : List.Forall₂ (Token.Below 0) front front')
    (hclosed : Position.outside.ClosedBy (a ++ behind))
    (hv : iterateOn fileStatement? scope d (front ++ (a ++ behind)) = .ok (v, out)) :
    iterateOn fileStatement? scope d (front' ++ (a ++ (t :: x ++ behind))) = .ok (v, out) := by
  obtain ⟨word, rest, e, hword, -⟩ := h.exists_front
  have hlevel (us : List Token) : NoIndent (a ++ us) := by
    rw [e]
    exact .cons (by rw [hword]; nofun)
  let r := Rereading.splice scope (a ++ behind) (a ++ (t :: x ++ behind)) hf
  have hsame : List.Forall₂ r.Same front front' :=
    hsame.imp fun _ _ => (Rereading.same_iff_below rfl rfl rfl).2
  have hempty : FileDraft.after {} r.place = id := funext FileDraft.after_empty
  obtain ⟨w, nl, nl', hnl, hnl', hfirst, hsecond⟩ := fileStatements_agree (r := r) {}
    (hlevel _) (hlevel _) hfront hsame (List.forall_mem_nil _) (.nothing v) hv
  rw [hempty] at hsecond
  exact hsecond.trans (h.declaration_eq hf hnl hnl' hclosed hfirst)

/-- A statement that is not known can be put anywhere into a body, and the module is the same. -/
theorem module_eq (h : InBody k a t x behind) (hf : scope.final.kind = .endOfFile) {m : Module}
    (hfront : Position.outside.ClosedBy front) (hclosed : Position.outside.ClosedBy (a ++ behind))
    (hm : module scope (front ++ (a ++ behind)) = .ok (m, out)) :
    module scope (front ++ (a ++ (t :: x ++ behind))) = .ok (m, out) := by
  obtain ⟨declared, mid, d, hname, hd, rfl⟩ := module_eq_ok_iff.1 hm
  refine module_eq_ok_iff.2 ?_
  obtain ⟨word, rest, rfl, hword, hplain⟩ := h.exists_front
  have hfinal (name : Option String) :
      ({ scope with inModule := name } : Scope).final.kind = .endOfFile := hf
  by_cases hempty : behindNewlines front = []
  · -- in front of the declaration there are only ends of lines
    have hnext (us : List Token) :
        behindNewlines (front ++ (word :: rest ++ us)) = word :: (rest ++ us) := by
      rw [behindNewlines_of_all (kind_of_behindNewlines hempty)]
      exact List.dropWhile_cons_of_neg (by rw [beq_iff_eq, hword]; nofun)
    have hmodule : word.kind ≠ .keyword .module := by
      rw [hword]
      rintro e
      cases e
      exact absurd h.keyword (by decide)
    rw [moduleName?_of_cons hf (hnext _), if_neg hmodule] at hname
    cases hname
    refine ⟨none, _, d, (moduleName?_of_cons hf (hnext _)).trans (if_neg hmodule), ?_, rfl⟩
    exact h.fileStatements_eq (hfinal none) .nil .nil hclosed hd
  · obtain ⟨b, b', rfl, -, hcb, hb, hname'⟩ := moduleName?_agree
      (r := .splice scope (word :: rest ++ behind) (word :: rest ++ (t :: x ++ behind)) hf) hfront
      (Rereading.forall₂_splice ..) hempty hname
    refine ⟨declared, _, d, hname', ?_, rfl⟩
    exact h.fileStatements_eq (hfinal declared) hcb
      (hb.imp fun _ _ => (Rereading.same_iff_below rfl rfl rfl).1) hclosed hd

end InBody

end Parser

end Blueprint
