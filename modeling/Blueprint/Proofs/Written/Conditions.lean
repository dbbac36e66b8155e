import Blueprint.Proofs.Written.Chains
import Blueprint.Proofs.Written.Values

/-!
# Written conditions

A condition may be written with more or fewer parentheses. They are needed around an `or` that is
joined by `and`, and on the right of a connective around what is joined by the same one
(`Condition.Written`). Written like that, and at the end of a line, each condition is read back
(`condition_written`).

The induction is on how the condition is written. Of each part it says how far both loops over
operands have come behind it (`ReadsTo`), at every bound for the recursion of the grammar.
-/

namespace Blueprint

namespace ConditionValue

inductive Written : ConditionValue → List Token → Prop where
  | literal {l : Literal} {ts : List Token} (h : l.Written ts) : Written (.literal l) ts
  | identifier {s : String} {t : Token} (h : t.Spells s) : Written (.identifier s) [t]
  | path {p : FieldPath} {ts : List Token} (h : p.Written ts) : Written (.path p) ts
  | date {d : DateExpr} {ts : List Token} (h : d.Written ts) : Written (.date d) ts
  | empty {o c : Token} (ho : o.kind = .openBracket) (hc : c.kind = .closeBracket) :
    Written (.list []) [o, c]
  | list {items : List ConditionValue} {o c : Token} {ts : List Token} (ho : o.kind = .openBracket)
    (h : Separated .comma Written items ts) (hc : c.kind = .closeBracket) :
    Written (.list items) (o :: (ts ++ [c]))

/-- A value that can be told from others: no word and no path starts like a date, and a path has a
point. -/
inductive Writable : ConditionValue → Prop where
  | literal {l : Literal} (h : l.Writable) : Writable (.literal l)
  | identifier {s : String} (h : CanName s) (hdate : ∀ a : DateAnchor, s ≠ a.spelling) :
    Writable (.identifier s)
  | path {p : FieldPath} (h : p.Writable) (hlong : 2 ≤ p.segments.length)
    (hdate : ∀ a : DateAnchor, p.root ≠ a.spelling) : Writable (.path p)
  | date {d : DateExpr} (h : d.Writable) : Writable (.date d)
  | list {items : List ConditionValue} (h : ∀ v ∈ items, Writable v) : Writable (.list items)

variable {v : ConditionValue} {ts : List Token}

theorem Writable.exists_written (h : v.Writable) : ∃ ts, v.Written ts := by
  induction h with
  | literal h => exact h.exists_written.imp fun _ => .literal
  | identifier => exact ⟨[⟨.ofWord _, _, 0, 0⟩], .identifier ⟨rfl, rfl⟩⟩
  | path h => exact h.exists_written.imp fun _ => .path
  | @date d h => exact d.exists_written.imp fun _ => .date
  | @list items _ ih =>
    by_cases hnil : items = []
    · rw [hnil]
      exact ⟨_, .empty (o := ⟨.openBracket, "[", 0, 0⟩) (c := ⟨.closeBracket, "]", 0, 0⟩) rfl rfl⟩
    · obtain ⟨ts, hts⟩ := Separated.exists_of_forall .comma hnil ih
      exact ⟨_, .list (o := ⟨.openBracket, "[", 0, 0⟩) (c := ⟨.closeBracket, "]", 0, 0⟩)
        rfl hts rfl⟩

theorem Written.startsValue (h : v.Written ts) (hv : v.Writable) : StartsValue ts := by
  cases h with
  | literal h => exact h.startsValue
  | identifier h =>
    cases hv with
    | identifier hs => exact hs.startsValue h []
  | path h =>
    cases hv with
    | path hp => exact h.startsValue hp
  | date h => exact h.startsValue
  | empty ho | list ho => exact startsValue_cons ho (by decide) _

end ConditionValue

namespace Parser

variable {scope : Scope} {p : FieldPath} {l : Literal} {v : ConditionValue} {o : Token}
  {ts rest : List Token}

/-! ## Values -/

theorem conditionValue_of_literal (h : l.Written ts) (hl : l.Writable) (rest : List Token) :
    conditionValue scope (ts ++ rest) = .ok (.literal l, rest) := by
  unfold conditionValue
  rw [nested_apply, bind_eq_ok (isAtLiteral_of_written h rest), if_pos rfl]
  exact bind_eq_ok (literal_of_written h hl rest)

theorem conditionValue_of_date {d : DateExpr} (h : d.Written ts) (hd : d.Writable)
    (hrest : EndsValue scope rest) :
    conditionValue scope (ts ++ rest) = .ok (.date d, rest) := by
  have hread := date_of_written h hd hrest
  obtain ⟨t, us, rfl, ht⟩ := h.exists_anchor
  have hnot : t.kind.opensLiteral = false := by
    rw [ht]
    cases d.anchor <;> rfl
  unfold conditionValue
  rw [nested_apply, List.cons_append, bind_eq_ok (isAtLiteral_of_not hnot _),
    if_neg Bool.false_ne_true, bind_eq_ok (isAtDate_of_anchor ht _), if_pos rfl]
  exact bind_eq_ok hread

/-- Names with points between them are one word or a path. -/
theorem conditionValue_of_path (h : p.Written ts) (hp : p.Writable)
    (hdate : ∀ a : DateAnchor, p.root ≠ a.spelling) (hrest : (head scope rest).kind ≠ .dot) :
    conditionValue scope (ts ++ rest) =
      .ok (if p.isSimple then .identifier p.root else .path p, rest) := by
  have hread := fieldPath_of_written h hp hrest
  obtain ⟨t, us, rfl, ht, -⟩ := h.exists_root
  have hliteral : t.kind.opensLiteral = false := ht.kind ▸ hp.root.not_opensLiteral
  have hanchor : ∀ a : DateAnchor, t.kind ≠ .keyword a.keyword :=
    fun a => ht.kind ▸ hp.root.ofWord_ne_anchor hdate a
  have hbracket : t.kind ≠ .openBracket :=
    ht.kind ▸ hp.root.ofWord_ne_sign TokenKind.noConfusion fun _ => TokenKind.noConfusion
  unfold conditionValue
  rw [nested_apply, List.cons_append, bind_eq_ok (isAtLiteral_of_not hliteral _),
    if_neg Bool.false_ne_true, bind_eq_ok (isAtDate_of_not hanchor _), if_neg Bool.false_ne_true,
    bind_eq_ok (accept_of_ne hbracket), if_neg Bool.false_ne_true,
    bind_eq_ok (isAtWord_apply _ _), head_cons, if_pos ht.isWord]
  exact bind_eq_ok hread

/-- The rest of a list, behind its opening bracket. -/
def listRest (value : Parser ConditionValue) : Parser ConditionValue := do
  if ← accept .closeBracket then return .list []
  else
    let items ← separated .comma value
    let _ ← expect .closeBracket
    return .list items

theorem conditionValue_of_bracket (ho : o.kind = .openBracket) (ts : List Token) :
    conditionValue scope (o :: ts) =
      listRest (within (ts.length + 1) conditionValue) scope ts := by
  have hliteral : o.kind.opensLiteral = false := by rw [ho]; rfl
  have hanchor : ∀ a : DateAnchor, o.kind ≠ .keyword a.keyword := by
    intro a
    rw [ho]
    exact TokenKind.noConfusion
  show nested _ scope (o :: ts) = _
  rw [nested_apply, bind_eq_ok (isAtLiteral_of_not hliteral _), if_neg Bool.false_ne_true,
    bind_eq_ok (isAtDate_of_not hanchor _), if_neg Bool.false_ne_true,
    bind_eq_ok (accept_of_eq ho), if_pos rfl, List.length_cons]
  rfl

theorem listRest_of_items {value : Parser ConditionValue} {items : List ConditionValue} {c : Token}
    (hread : separated .comma value scope ts = .ok (items, c :: rest))
    (hfirst : (head scope ts).kind ≠ .closeBracket) (hc : c.kind = .closeBracket) :
    listRest value scope ts = .ok (.list items, rest) := by
  have haccept : accept .closeBracket scope ts = .ok (false, ts) :=
    (accept_apply _ _ _).trans (if_neg hfirst)
  unfold listRest
  rw [bind_eq_ok haccept, if_neg Bool.false_ne_true, bind_eq_ok hread, bind_eq_ok (expect_of_eq hc)]
  rfl

/-- A list is read back if its values are, with fewer tokens. -/
theorem conditionValue_of_items {n : Nat} {items : List ConditionValue} {o c : Token}
    (hvalue : Recovers conditionValue scope n (EndsValue scope) fun v ts =>
      v.Writable ∧ v.Written ts)
    (ho : o.kind = .openBracket) (h : Separated .comma ConditionValue.Written items ts)
    (hitems : ∀ v ∈ items, v.Writable) (hc : c.kind = .closeBracket)
    (hn : (ts ++ c :: rest).length ≤ n) :
    conditionValue scope (o :: (ts ++ c :: rest)) = .ok (.list items, rest) := by
  have hitem : Recovers (within ((ts ++ c :: rest).length + 1) conditionValue) scope
      (ts ++ c :: rest).length (EndsValue scope) fun v ts => v.Writable ∧ v.Written ts := by
    intro v us more hv hmore hlength
    rw [within_apply (Nat.lt_succ_of_le hlength)]
    exact hvalue v us more hv hmore (Nat.le_trans hlength hn)
  have hcomma : ∀ t us, t.kind = .comma → EndsValue scope (t :: us) :=
    fun t us ht => endsValue_cons ht (by decide) us
  have hclose : EndsValue scope (c :: rest) ∧ (head scope (c :: rest)).kind ≠ .comma := by
    refine ⟨endsValue_cons hc (by decide) rest, ?_⟩
    rw [head_cons, hc]
    decide
  have hread := recovers_separated hitem hcomma _ _ (c :: rest) (h.and hitems) hclose
    (Nat.le_refl _)
  have hfirst : (head scope (ts ++ c :: rest)).kind ≠ .closeBracket := by
    obtain ⟨v, vs, vts, more, rfl, rfl, hv, -⟩ := (h.and hitems).exists_first
    obtain ⟨t, vts, rfl, -, -, ht⟩ := hv.2.startsValue hv.1
    exact ht
  rw [conditionValue_of_bracket ho]
  exact listRest_of_items hread hfirst hc

/-- Values are read back: the induction is on the number of tokens, since the values of a list are
read like others, but with fewer tokens left. -/
theorem recovers_conditionValue (scope : Scope) (n : Nat) :
    Recovers conditionValue scope n (EndsValue scope) fun v ts => v.Writable ∧ v.Written ts := by
  induction n with
  | zero =>
    rintro v ts rest ⟨hv, h⟩ - hn
    obtain ⟨t, us, rfl, -⟩ := h.startsValue hv
    cases hn
  | succ n ih =>
    rintro v ts rest ⟨hv, h⟩ hrest hn
    cases hv with
    | literal hl =>
      cases h with
      | literal h => exact conditionValue_of_literal h hl rest
    | @identifier s hs hdate =>
      cases h with
      | identifier h =>
        have hread := conditionValue_of_path (p := ⟨[s]⟩) (.one ⟨_, h, rfl⟩)
          ⟨List.cons_ne_nil _ _, List.forall_mem_singleton.2 hs⟩ hdate hrest.1
        exact hread
    | @path p hp hlong hdate =>
      cases h with
      | path h =>
        have hsimple : p.isSimple = false := by
          unfold FieldPath.isSimple
          exact beq_eq_false_iff_ne.2 (by omega)
        have hread := conditionValue_of_path h hp hdate hrest.1
        rw [hsimple] at hread
        exact hread
    | date hd =>
      cases h with
      | date h => exact conditionValue_of_date h hd hrest
    | @list items hitems =>
      cases h with
      | @empty o c ho hc =>
        rw [List.cons_append, conditionValue_of_bracket ho, List.singleton_append]
        exact bind_eq_ok (accept_of_eq hc)
      | @list _ o c us ho h hc =>
        rw [List.cons_append, List.append_assoc, List.singleton_append] at hn ⊢
        exact conditionValue_of_items ih ho h hitems hc (Nat.le_of_succ_le_succ hn)

end Parser

/-! ## Conditions -/

namespace Condition

/-- How a condition is written, and its connective that stands in no parentheses. -/
inductive Written : Condition → Option Connective → List Token → Prop where
  | comparison {field : FieldPath} {op : ComparisonOp} {value : ConditionValue}
    {ts us vs : List Token} (hfield : field.Written ts) (hop : op.Written us)
    (hvalue : value.Written vs) : Written (.comparison field op value) none (ts ++ (us ++ vs))
  | role {r : String} {w o t c : Token} (hw : w.kind = .keyword .role) (ho : o.kind = .openParen)
    (ht : t.Spells r) (hc : c.kind = .closeParen) : Written (.role r) none [w, o, t, c]
  | logical {op : Connective} {left right : Condition} {k k' : Option Connective} {t : Token}
    {ts us : List Token} (hleft : Written left k ts) (ht : t.kind = .keyword op.keyword)
    (hright : Written right k' us) (hor : op = .and → k ≠ some .or ∧ k' ≠ some .or)
    (hsame : k' ≠ some op) : Written (.logical op left right) (some op) (ts ++ t :: us)
  | parens {e : Condition} {k : Option Connective} {o c : Token} {ts : List Token}
    (ho : o.kind = .openParen) (h : Written e k ts) (hc : c.kind = .closeParen) :
    Written e none (o :: (ts ++ [c]))

/-- Fields and roles are names, and values can be told from others. -/
def Writable : Condition → Prop
  | comparison field _ value => field.Writable ∧ value.Writable
  | role r => CanName r
  | logical _ left right => left.Writable ∧ right.Writable

variable {e : Condition} {k : Option Connective} {ts : List Token}

theorem Written.exists_parens (h : e.Written k ts) : ∃ us, e.Written none us :=
  ⟨_, .parens (o := ⟨.openParen, "(", 0, 0⟩) (c := ⟨.closeParen, ")", 0, 0⟩) rfl h rfl⟩

theorem Writable.exists_written (h : e.Writable) : ∃ k ts, e.Written k ts := by
  induction e with
  | comparison field op value =>
    obtain ⟨ts, hts⟩ := h.1.exists_written
    obtain ⟨us, hus⟩ := op.exists_written
    obtain ⟨vs, hvs⟩ := h.2.exists_written
    exact ⟨_, _, .comparison hts hus hvs⟩
  | role r =>
    exact ⟨_, _, .role (w := ⟨.keyword .role, "role", 0, 0⟩) (o := ⟨.openParen, "(", 0, 0⟩)
      (t := ⟨.ofWord r, r, 0, 0⟩) (c := ⟨.closeParen, ")", 0, 0⟩) rfl rfl ⟨rfl, rfl⟩ rfl⟩
  | logical op left right ihl ihr =>
    obtain ⟨k, ts, hts⟩ := ihl h.1
    obtain ⟨k', us, hus⟩ := ihr h.2
    obtain ⟨ts, hts⟩ := hts.exists_parens
    obtain ⟨us, hus⟩ := hus.exists_parens
    exact ⟨_, _, .logical (t := ⟨.keyword op.keyword, "", 0, 0⟩) hts rfl hus
      (fun _ => ⟨nofun, nofun⟩) nofun⟩

end Condition

namespace Parser

variable {scope : Scope} {e : Condition} {k : Option Connective} {inner : Parser Condition}
  {t : Token} {ts rest : List Token}

/-- One operand of a condition, which may be a condition in parentheses. -/
def conditionOperand (inner : Parser Condition) : Parser Condition := do
  if ← accept .openParen then
    let c ← inner
    let _ ← expect .closeParen
    return c
  else if ← isAtRoleCheck then return .role (← roleCheck)
  else
    let path ← fieldPath
    let op ← comparisonOp
    return .comparison path op (← conditionValue)

theorem condition_apply (scope : Scope) (ts : List Token) :
    condition scope ts =
      connected .logical (conditionOperand (within ts.length condition)) scope ts :=
  nested_apply _ scope ts

theorem conditionOperand_of_parens {o c : Token} (ho : o.kind = .openParen)
    (h : inner scope ts = .ok (e, c :: rest)) (hc : c.kind = .closeParen) :
    conditionOperand inner scope (o :: ts) = .ok (e, rest) := by
  unfold conditionOperand
  rw [bind_eq_ok (accept_of_eq ho), if_pos rfl, bind_eq_ok h, bind_eq_ok (expect_of_eq hc)]
  rfl

theorem conditionOperand_of_role {r : String} {w o t c : Token} (hw : w.kind = .keyword .role)
    (ho : o.kind = .openParen) (ht : t.Spells r) (hr : CanName r) (hc : c.kind = .closeParen)
    (rest : List Token) :
    conditionOperand inner scope (w :: o :: t :: c :: rest) = .ok (.role r, rest) := by
  have hnot : w.kind ≠ .openParen := by
    rw [hw]
    exact TokenKind.noConfusion
  have hkeyword : isAtKeyword .role scope (w :: o :: t :: c :: rest) =
      .ok (true, w :: o :: t :: c :: rest) := isAt_of_eq hw
  have hrole : isAtRoleCheck scope (w :: o :: t :: c :: rest) =
      .ok (true, w :: o :: t :: c :: rest) := by
    unfold isAtRoleCheck
    rw [bind_eq_ok hkeyword, if_pos rfl, peekIs_apply]
    exact congrArg (fun b => Except.ok (b, _)) (beq_iff_eq.2 ho)
  have hexpect : expectKeyword .role scope (w :: o :: t :: c :: rest) =
      .ok (w, o :: t :: c :: rest) := expect_of_eq hw
  unfold conditionOperand roleCheck
  rw [bind_eq_ok (accept_of_ne hnot), if_neg Bool.false_ne_true, bind_eq_ok hrole, if_pos rfl]
  refine bind_eq_ok ?_
  rw [bind_eq_ok hexpect, bind_eq_ok (expect_of_eq ho), bind_eq_ok (name_of_spells ht hr),
    bind_eq_ok (expect_of_eq hc)]
  rfl

theorem isAtRoleCheck_of_not (h : (head scope rest).kind ≠ .openParen) :
    isAtRoleCheck scope (t :: rest) = .ok (false, t :: rest) := by
  unfold isAtRoleCheck isAtKeyword
  by_cases ht : t.kind = .keyword .role
  · rw [bind_eq_ok (isAt_of_eq ht), if_pos rfl]
    unfold peekIs
    rw [bind_eq_ok (peek_one_apply _ _), List.tail_cons, beq_eq_false_iff_ne.2 h]
    rfl
  · rw [bind_eq_ok (isAt_of_ne ht)]
    rfl

theorem conditionOperand_of_comparison {field : FieldPath} {op : ComparisonOp}
    {value : ConditionValue} {us vs : List Token} (hts : field.Written ts) (hfield : field.Writable)
    (hus : op.Written us) (hvs : value.Written vs) (hvalue : value.Writable)
    (hrest : EndsValue scope rest) :
    conditionOperand inner scope (ts ++ (us ++ (vs ++ rest))) =
      .ok (.comparison field op value, rest) := by
  obtain ⟨hends, hparen⟩ := endsValue_of_op hus scope (vs ++ rest)
  have hpath := fieldPath_of_written hts hfield hends.1
  have hread := recovers_conditionValue scope _ value vs rest ⟨hvalue, hvs⟩ hrest (Nat.le_refl _)
  have hop : comparisonOp scope (us ++ (vs ++ rest)) = .ok (op, vs ++ rest) := by
    obtain ⟨t, vs, rfl, hnot, -⟩ := hvs.startsValue hvalue
    exact comparisonOp_of_written hus fun _ => hnot
  obtain ⟨t, more, rfl, ht, hmore⟩ := hts.exists_root
  have hword : t.kind ≠ .openParen :=
    ht.kind ▸ hfield.root.ofWord_ne_sign TokenKind.noConfusion fun _ => TokenKind.noConfusion
  have hsecond : (head scope (more ++ (us ++ (vs ++ rest)))).kind ≠ .openParen := by
    rcases hmore with rfl | ⟨d, more, rfl, hd⟩
    · exact hparen
    · rw [List.cons_append, head_cons, hd]
      exact TokenKind.noConfusion
  unfold conditionOperand
  rw [List.cons_append] at hpath ⊢
  rw [bind_eq_ok (accept_of_ne hword), if_neg Bool.false_ne_true,
    bind_eq_ok (isAtRoleCheck_of_not hsecond), if_neg Bool.false_ne_true, bind_eq_ok hpath,
    bind_eq_ok hop]
  exact bind_eq_ok hread

/-- As far as a written condition is read, whatever follows it. -/
theorem readsTo_condition (h : e.Written k ts) (he : e.Writable) (n : Nat)
    (hrest : EndsValue scope rest) (hn : (ts ++ rest).length ≤ n) :
    ReadsTo .logical (conditionOperand (within n condition)) scope k e (ts ++ rest) rest := by
  induction h generalizing n rest with
  | comparison hfield hop hvalue =>
    simp only [List.append_assoc]
    exact conditionOperand_of_comparison hfield he.1 hop hvalue he.2 hrest
  | role hw ho ht hc => exact conditionOperand_of_role hw ho ht he hc rest
  | @logical op left right k k' t ts us _ ht _ hor hsame ihl ihr =>
    have hends : EndsValue scope (t :: (us ++ rest)) :=
      endsValue_cons ht ⟨TokenKind.noConfusion, TokenKind.noConfusion, TokenKind.noConfusion⟩ _
    rw [List.append_assoc, List.cons_append] at hn ⊢
    have hright : (us ++ rest).length ≤ n := Nat.le_of_lt (length_behind_lt hn)
    have hbehind : rest.length ≤ (us ++ rest).length := (List.suffix_append us rest).length_le
    exact (ihl he.1 n hends hn).logical (ihr he.2 n hrest hright) ht hbehind hor hsame
  | @parens e k o c ts ho _ hc ih =>
    have hends : EndsValue scope (c :: rest) := endsValue_cons hc (by decide) rest
    have hinner : condition scope (ts ++ c :: rest) = .ok (e, c :: rest) := by
      rw [condition_apply]
      exact (ih he _ hends (Nat.le_refl _)).connected_eq_ok
        fun w hw => by cases hc.symm.trans hw
    rw [List.cons_append, List.append_assoc, List.singleton_append] at hn ⊢
    have hlength : (ts ++ c :: rest).length < n := Nat.lt_of_succ_le hn
    exact conditionOperand_of_parens ho ((within_apply hlength).trans hinner) hc

end Parser

/-- At the end of a line, a condition is read back from each way to write it, and there is one. -/
theorem condition_written {e : Condition} (he : e.Writable) (scope : Scope) :
    (∃ k ts, e.Written k ts) ∧ ∀ k ts newline rest, e.Written k ts → newline.kind = .newline →
      Parser.condition scope (ts ++ newline :: rest) = .ok (e, newline :: rest) := by
  refine ⟨he.exists_written, fun k ts newline rest h hline => ?_⟩
  have hends : Parser.EndsValue scope (newline :: rest) :=
    Parser.endsValue_cons hline (by decide) rest
  rw [Parser.condition_apply]
  exact (Parser.readsTo_condition h he _ hends (Nat.le_refl _)).connected_eq_ok
    fun w hw => by cases hline.symm.trans hw

/-- `(status == draft or role(admin)) and in not in [-1, today - 7d]`, where a field is called like
an operator. -/
theorem condition_written_guard :
    let word (s : String) : Token := ⟨.ofWord s, s, 1, 1⟩
    let sign (k : TokenKind) : Token := ⟨k, "", 1, 1⟩
    let e : Condition := .logical .and
      (.logical .or (.comparison ⟨["status"]⟩ .eq (.identifier "draft")) (.role "admin"))
      (.comparison ⟨["in"]⟩ .notWithin
        (.list [.literal (.integer (-1)), .date ⟨.today, some (.minus, ⟨7, .days⟩)⟩]))
    let ts := [sign .openParen, word "status", sign .doubleEqual, word "draft", word "or",
      word "role", sign .openParen, word "admin", sign .closeParen, sign .closeParen, word "and",
      word "in", word "not", word "in", sign .openBracket, sign .minus, ⟨.number, "1", 1, 1⟩,
      sign .comma, word "today", sign .minus, ⟨.duration, "7d", 1, 1⟩, sign .closeBracket]
    let scope : Scope := { file := "guard.dsl", final := ⟨.endOfFile, "", 2, 1⟩ }
    e.Writable ∧ e.Written (some .and) ts ∧
      Parser.condition scope (ts ++ [sign .newline]) = .ok (e, [sign .newline]) := by
  intro word sign e ts scope
  have hname : ∀ s ∈ ["status", "draft", "admin", "in"], CanName s := by decide +kernel
  have hkeyword : ∀ k ∈ [Keyword.andOp, .orOp, .notOp, .in, .role, .today],
      (word k.spelling).kind = .keyword k := by decide +kernel
  have hword : ∀ s, (word s).Spells s := fun s => ⟨rfl, rfl⟩
  have he : e.Writable := by
    have hfield : ∀ s : String, CanName s → FieldPath.Writable ⟨[s]⟩ := fun s hs =>
      ⟨List.cons_ne_nil _ _, List.forall_mem_singleton.2 hs⟩
    have hdraft : ConditionValue.Writable (.identifier "draft") :=
      .identifier (hname _ (by decide)) fun a => by cases a <;> decide
    have hnumber : Literal.Writable (.integer (-1)) := ⟨by decide +kernel, by decide +kernel⟩
    have hdate : DateExpr.Writable ⟨.today, some (.minus, ⟨7, .days⟩)⟩ := by
      intro o ho
      cases ho
      exact (by decide +kernel : 7 < Text.amountBound)
    exact ⟨⟨⟨hfield _ (hname _ (by decide)), hdraft⟩, hname _ (by decide)⟩,
      hfield _ (hname _ (by decide)),
      .list (List.forall_mem_cons.2 ⟨.literal hnumber, List.forall_mem_singleton.2 (.date hdate)⟩)⟩
  have hwritten : e.Written (some .and) ts := by
    have hfield : ∀ s : String, FieldPath.Written ⟨[s]⟩ [word s] := fun s => .one ⟨_, hword s, rfl⟩
    have hdraft : ConditionValue.Written (.identifier "draft") [word "draft"] :=
      .identifier (hword "draft")
    have heq : ComparisonOp.eq.Written [sign .doubleEqual] := by decide
    have hwithin : ComparisonOp.notWithin.Written [word "not", word "in"] := by decide +kernel
    have hnumber : Literal.Written (.integer (-1)) [sign .minus, ⟨.number, "1", 1, 1⟩] :=
      .negative (m := sign .minus) (t := ⟨.number, "1", 1, 1⟩) rfl rfl (by decide)
    have hdays : Duration.Written ⟨7, .days⟩ [⟨.duration, "7d", 1, 1⟩] :=
      .compact ⟨rfl, ['7'], "d", by decide, by decide, by decide, rfl⟩
    have hdate : DateExpr.Written ⟨.today, some (.minus, ⟨7, .days⟩)⟩
        [word "today", sign .minus, ⟨.duration, "7d", 1, 1⟩] :=
      .shifted (hkeyword .today (by decide)) (.mk rfl hdays)
    have hlist := ConditionValue.Written.list (o := sign .openBracket) (c := sign .closeBracket) rfl
      (.more (.one (.literal hnumber)) (t := sign .comma) rfl (.date hdate)) rfl
    have hrole := Condition.Written.role (hkeyword .role (by decide)) (o := sign .openParen) rfl
      (hword "admin") (c := sign .closeParen) rfl
    have hor : Condition.Written (.logical .or _ _) (some .or) _ :=
      (Condition.Written.comparison (hfield "status") heq hdraft).logical
        (hkeyword .orOp (by decide)) hrole nofun nofun
    have hparens := hor.parens (o := sign .openParen) rfl (c := sign .closeParen) rfl
    exact hparens.logical (hkeyword .andOp (by decide))
      (.comparison (hfield "in") hwithin hlist) (fun _ => ⟨nofun, nofun⟩) nofun
  exact ⟨he, hwritten, (condition_written he scope).2 _ _ _ _ hwritten rfl⟩

end Blueprint
