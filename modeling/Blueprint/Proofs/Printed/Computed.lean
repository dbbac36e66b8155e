import Blueprint.Proofs.Printed.ReadBack

/-!
# Printed computed expressions

A computed expression that was read off a text is printed with every operation in parentheses, and
the print is read as the same expression (`computed_readsBack`). What is drawn from the tokens of a
text can be printed (`draws_computed`); the characters of the print are scanned as the tokens that
write it (`Computed.Printable.scans`); and these are read back, each operation as a factor between
its parentheses (`factor_of_written`), so that neither precedence nor grouping comes in.
-/

namespace Blueprint

/-- The class of the sign of an operator. -/
def ArithmeticOp.kind : ArithmeticOp → TokenKind
  | add => .plus
  | sub => .minus
  | mul => .star
  | div => .slash

def Aggregate.keyword : Aggregate → Keyword
  | count => .count
  | sum => .sum
  | avg => .avg
  | min => .min
  | max => .max
  | daysUntil => .daysUntil
  | daysSince => .daysSince

namespace Computed

/-- The tokens of an expression with every operation in parentheses. -/
inductive Written : Computed → List Token → Prop where
  | field {p : FieldPath} {ts : List Token} (h : p.Written ts) : Written (.field p) ts
  | number {t : Token} (ht : t.kind = .number) : Written (.number t.text) [t]
  | negative {m t : Token} (hm : m.kind = .minus) (ht : t.kind = .number) :
    Written (.number ("-" ++ t.text)) [m, t]
  | aggregate {k : Keyword} {function : Aggregate} {p : FieldPath} {t o c : Token}
    {ts : List Token} (ht : t.kind = .keyword k) (hk : Aggregate.ofKeyword? k = some function)
    (ho : o.kind = .openParen) (h : p.Written ts) (hc : c.kind = .closeParen) :
    Written (.aggregate function p) (t :: o :: (ts ++ [c]))
  | binary {op : ArithmeticOp} {l r : Computed} {o t c : Token} {ls rs : List Token}
    (ho : o.kind = .openParen) (hl : Written l ls) (ht : t.kind = op.kind) (hr : Written r rs)
    (hc : c.kind = .closeParen) : Written (.binary op l r) (o :: (ls ++ t :: (rs ++ [c])))

/-- Paths are made of names that are words, and numbers are numerals or decimals, with or without a
minus sign. -/
def Printable : Computed → Prop
  | field p => p.Printable
  | number text =>
    ∃ s : String, (IsNumeral s.toList ∨ IsDecimal s.toList) ∧ (text = s ∨ text = "-" ++ s)
  | aggregate _ p => p.Printable
  | binary _ l r => l.Printable ∧ r.Printable

end Computed

namespace Parser

/-! ## What can be read can be printed -/

/-- An operand of `*` and `/`, with the given parser for what stands in parentheses. -/
def factor (inner : Parser Computed) : Parser Computed := do
  if ← accept .openParen then
    let e ← inner
    let _ ← expect .closeParen
    return e
  else if ← isAtNumber then return .number (← numberText)
  else if ← isAtCall then aggregate
  else if ← isAtWord then return .field (← fieldPath)
  else unexpected "expression"

def timesOrOver : Parser (Option (Computed → Computed → Computed)) :=
  arithmetic? [(.star, .mul), (.slash, .div)]

def plusOrMinus : Parser (Option (Computed → Computed → Computed)) :=
  arithmetic? [(.plus, .add), (.minus, .sub)]

theorem computed_eq : computed =
    nested fun inner => leftChain (leftChain (factor inner) timesOrOver) plusOrMinus := rfl

theorem draws_arithmetic? {A : Token → Prop} (ops : List (TokenKind × ArithmeticOp)) :
    Draws A (arithmetic? ops) fun o => ∀ f, o = some f →
      ∀ a b : Computed, a.Printable → b.Printable → (f a b).Printable := by
  refine Draws.current.bind fun t _ => ?_
  dsimp only
  split
  · refine Draws.advance.bind fun _ _ => .pure fun f e a b ha hb => ?_
    cases e
    exact ⟨ha, hb⟩
  · exact .pure nofun

theorem draws_aggregate : Draws Token.IsGenuine aggregate Computed.Printable := by
  refine Draws.current.bind fun t _ => ?_
  split
  · exact .of_never failAt_ne_ok
  · exact Draws.advance.bind fun _ _ => Draws.expect.bind fun _ _ =>
      Draws.fieldPath.bind fun p hp => Draws.expect.bind fun _ _ => .pure hp

theorem draws_factor {inner : Parser Computed}
    (h : Draws Token.IsGenuine inner Computed.Printable) :
    Draws Token.IsGenuine (factor inner) Computed.Printable := by
  have hlook {A : Token → Prop} : Draws A isAtNumber fun _ => True := by
    rw [isAtNumber_eq]
    exact Draws.isAt.bind fun _ _ => .ite (.pure trivial) <|
      Draws.isAt.bind fun _ _ => .ite .peekIs (.pure trivial)
  have hcall {A : Token → Prop} : Draws A isAtCall fun _ => True :=
    Draws.isAtWord.bind fun _ _ => .ite .peekIs (.pure trivial)
  refine Draws.accept.bind fun _ _ => .ite ?_ <| hlook.bind fun _ _ => .ite ?_ <|
    hcall.bind fun _ _ => .ite draws_aggregate <| Draws.isAtWord.bind fun _ _ => .ite ?_ ?_
  · exact h.bind fun e he => Draws.expect.bind fun _ _ => .pure he
  · exact Draws.numberText.bind fun text htext => .pure htext
  · exact Draws.fieldPath.bind fun p hp => .pure hp
  · exact .of_never unexpected_ne_ok

theorem draws_computed : Draws Token.IsGenuine computed Computed.Printable := by
  rw [computed_eq]
  refine Draws.nested fun inner h => ?_
  exact ((draws_factor h).leftChain (draws_arithmetic? _)).leftChain (draws_arithmetic? _)

/-! ## What is written is read back -/

section

variable {α : Type} {scope : Scope} {ts us mid rest : List Token} {t u : Token} {e : Computed}

theorem leftChain_of_stop {operand : Parser α} {operator? : Parser (Option (α → α → α))} {a : α}
    (h : operand scope ts = .ok (a, rest)) (hstop : operator? scope rest = .ok (none, rest)) :
    leftChain operand operator? scope ts = .ok (a, rest) := by
  unfold leftChain
  rw [bind_eq_ok h]
  exact iterateOn_of_none (bind_eq_ok hstop)

theorem leftChain_of_one {operand : Parser α} {operator? : Parser (Option (α → α → α))} {a b : α}
    {f : α → α → α} (h : operand scope ts = .ok (a, mid))
    (hop : operator? scope mid = .ok (some f, us)) (h' : operand scope us = .ok (b, rest))
    (hlt : rest.length < mid.length) (hstop : operator? scope rest = .ok (none, rest)) :
    leftChain operand operator? scope ts = .ok (f a b, rest) := by
  unfold leftChain
  rw [bind_eq_ok h]
  refine (iterateOn_of_some ((bind_eq_ok hop).trans (bind_eq_ok h'))).trans ?_
  rw [if_pos hlt]
  exact iterateOn_of_none (bind_eq_ok hstop)

theorem arithmetic?_of_some {ops : List (TokenKind × ArithmeticOp)} {k : TokenKind}
    {op : ArithmeticOp} (h : ops.find? (·.1 == t.kind) = some (k, op)) (us : List Token) :
    arithmetic? ops scope (t :: us) = .ok (some (.binary op), us) := by
  unfold arithmetic?
  rw [bind_eq_ok (current_apply _ _), head_cons, h]
  exact bind_eq_ok (advance_apply _ _)

theorem arithmetic?_of_none {ops : List (TokenKind × ArithmeticOp)}
    (h : ops.find? (·.1 == t.kind) = none) (us : List Token) :
    arithmetic? ops scope (t :: us) = .ok (none, t :: us) := by
  unfold arithmetic?
  rw [bind_eq_ok (current_apply _ _), head_cons, h]
  rfl

/-- One operation, up to the parenthesis that closes it. -/
theorem chains_of_operation {p : Parser Computed} {op : ArithmeticOp} {a b : Computed}
    (hp : p scope ts = .ok (a, t :: us)) (ht : t.kind = op.kind)
    (hp' : p scope us = .ok (b, u :: rest)) (hu : u.kind = .closeParen)
    (hlt : (u :: rest).length < (t :: us).length) :
    leftChain (leftChain p timesOrOver) plusOrMinus scope ts = .ok (.binary op a b, u :: rest) := by
  have hstop : timesOrOver scope (u :: rest) = .ok (none, u :: rest) :=
    arithmetic?_of_none (by rw [hu]; rfl) rest
  have hstop' : plusOrMinus scope (u :: rest) = .ok (none, u :: rest) :=
    arithmetic?_of_none (by rw [hu]; rfl) rest
  by_cases hop : op = .mul ∨ op = .div
  · have htimes : timesOrOver scope (t :: us) = .ok (some (.binary op), us) := by
      rcases hop with rfl | rfl
      · exact arithmetic?_of_some (by rw [ht]; rfl) us
      · exact arithmetic?_of_some (by rw [ht]; rfl) us
    exact leftChain_of_stop (leftChain_of_one hp htimes hp' hlt hstop) hstop'
  · have hplus : plusOrMinus scope (t :: us) = .ok (some (.binary op), us) ∧
        timesOrOver scope (t :: us) = .ok (none, t :: us) := by
      cases op with
      | add =>
        exact ⟨arithmetic?_of_some (by rw [ht]; rfl) us, arithmetic?_of_none (by rw [ht]; rfl) us⟩
      | sub =>
        exact ⟨arithmetic?_of_some (by rw [ht]; rfl) us, arithmetic?_of_none (by rw [ht]; rfl) us⟩
      | mul => exact absurd (.inl rfl) hop
      | div => exact absurd (.inr rfl) hop
    exact leftChain_of_one (leftChain_of_stop hp hplus.2) hplus.1 (leftChain_of_stop hp' hstop) hlt
      hstop'

theorem isAtNumber_of_isWord (ht : t.isWord = true) (us : List Token) :
    isAtNumber scope (t :: us) = .ok (false, t :: us) := by
  have hne : t.kind ≠ .number ∧ t.kind ≠ .minus := by
    unfold Token.isWord at ht
    constructor <;> (intro hk; rw [hk] at ht; cases ht)
  rw [isAtNumber_eq, isAt_bind_of_ne hne.1, isAt_bind_of_ne hne.2]
  rfl

theorem accept_bind_of_ne {k : TokenKind} {q q' : Parser α} (h : t.kind ≠ k) :
    (accept k >>= fun b => if b = true then q else q') scope (t :: us) = q' scope (t :: us) := by
  rw [bind_eq_ok (accept_of_ne h)]
  rfl

/-- Behind a word, a parenthesis makes a call. -/
theorem factor_of_isWord {inner : Parser Computed} (ht : t.isWord = true) :
    factor inner scope (t :: us) =
      if (head scope us).kind = .openParen then aggregate scope (t :: us)
      else (fieldPath >>= fun p => pure (.field p) : Parser Computed) scope (t :: us) := by
  have hne : t.kind ≠ .openParen := by
    intro hk
    unfold Token.isWord at ht
    rw [hk] at ht
    cases ht
  have hword : isAtWord scope (t :: us) = .ok (true, t :: us) := by
    rw [isAtWord_apply, head_cons, ht]
  have hpeek : peekIs 1 .openParen scope (t :: us) =
      .ok ((head scope us).kind == .openParen, t :: us) := by
    unfold peekIs
    rw [bind_eq_ok (peek_one_apply _ _)]
    rfl
  have hcall : isAtCall scope (t :: us) = .ok ((head scope us).kind == .openParen, t :: us) := by
    unfold isAtCall
    rw [bind_eq_ok hword]
    exact hpeek
  unfold factor
  rw [accept_bind_of_ne hne, bind_eq_ok (isAtNumber_of_isWord ht us), if_neg Bool.false_ne_true,
    bind_eq_ok hcall]
  by_cases h : (head scope us).kind = .openParen
  · rw [if_pos h, if_pos (beq_iff_eq.2 h)]
  · rw [if_neg h, if_neg (by rwa [beq_iff_eq]), bind_eq_ok hword]
    rfl

/-- What a path or a call must not be followed by. -/
def EndsFactor (scope : Scope) (rest : List Token) : Prop :=
  (head scope rest).kind ≠ .dot ∧ (head scope rest).kind ≠ .openParen

theorem EndsFactor.of_kind (h : t.kind ≠ .dot ∧ t.kind ≠ .openParen) (us : List Token) :
    EndsFactor scope (t :: us) := h

theorem factor_of_path {inner : Parser Computed} {p : FieldPath} (h : p.Written ts)
    (hp : p.Writable) (hrest : EndsFactor scope rest) :
    factor inner scope (ts ++ rest) = .ok (.field p, rest) := by
  have hread := fieldPath_of_written h hp hrest.1
  obtain ⟨t, us, rfl, ht, hus⟩ := h.exists_root
  have hparen : (head scope (us ++ rest)).kind ≠ .openParen := by
    rcases hus with rfl | ⟨d, more, rfl, hd⟩
    · exact hrest.2
    · rw [List.cons_append, head_cons, hd]
      decide
  rw [List.cons_append, factor_of_isWord ht.isWord, if_neg hparen, ← List.cons_append,
    bind_eq_ok hread]
  rfl

theorem factor_of_call {inner : Parser Computed} {k : Keyword} {function : Aggregate}
    {p : FieldPath} {o c : Token} (ht : t.kind = .keyword k)
    (hk : Aggregate.ofKeyword? k = some function) (ho : o.kind = .openParen) (h : p.Written ts)
    (hp : p.Writable) (hc : c.kind = .closeParen) :
    factor inner scope (t :: o :: (ts ++ c :: rest)) = .ok (.aggregate function p, rest) := by
  have hword : t.isWord = true := by
    unfold Token.isWord
    rw [ht]
  have hkeyword : t.keyword?.bind Aggregate.ofKeyword? = some function := by
    unfold Token.keyword?
    rw [ht]
    exact hk
  have hread : fieldPath scope (ts ++ c :: rest) = .ok (p, c :: rest) := by
    refine fieldPath_of_written h hp ?_
    rw [head_cons, hc]
    decide
  rw [factor_of_isWord hword, head_cons, if_pos ho]
  unfold aggregate
  rw [bind_eq_ok (current_apply _ _), head_cons, hkeyword]
  dsimp only
  rw [bind_eq_ok (advance_apply _ _), List.tail_cons, bind_eq_ok (expect_of_eq ho),
    bind_eq_ok hread, bind_eq_ok (expect_of_eq hc)]
  rfl

theorem factor_of_number {inner : Parser Computed} {text : String}
    (hk : (head scope ts).kind ≠ .openParen)
    (hat : isAtNumber scope ts = .ok (true, ts)) (h : numberText scope ts = .ok (text, rest)) :
    factor inner scope ts = .ok (.number text, rest) := by
  have haccept : accept .openParen scope ts = .ok (false, ts) := by
    rw [accept_apply, if_neg hk]
  unfold factor
  rw [bind_eq_ok haccept, if_neg Bool.false_ne_true, bind_eq_ok hat, if_pos rfl, bind_eq_ok h]
  rfl

/-- Written expressions are read back as operands. The induction is on how they are written; what
stands in parentheses is read by the whole grammar again. -/
theorem factor_of_written {n : Nat} (h : e.Written ts) (he : e.Printable)
    (hrest : EndsFactor scope rest) (hn : (ts ++ rest).length ≤ n) :
    factor (within n computed) scope (ts ++ rest) = .ok (e, rest) := by
  induction h generalizing n rest with
  | field h => exact factor_of_path h he.toWritable hrest
  | @number t ht =>
    have hk : t.kind ≠ .openParen := by
      rw [ht]
      decide
    exact factor_of_number hk (isAtNumber_of_number ht _) (numberText_of_number ht rest)
  | @negative m t hm ht =>
    have hk : m.kind ≠ .openParen := by
      rw [hm]
      decide
    exact factor_of_number hk (isAtNumber_of_minus hm ht _) (numberText_of_minus hm ht rest)
  | aggregate ht hk ho h hc =>
    rw [List.cons_append, List.cons_append, List.append_assoc, List.singleton_append]
    exact factor_of_call ht hk ho h he.toWritable hc
  | @binary op l r o t c ls rs ho _ ht _ hc ihl ihr =>
    have hends : ∀ {u : Token} (us : List Token), u.kind = op.kind ∨ u.kind = .closeParen →
        EndsFactor scope (u :: us) := by
      rintro u us (hu | hu)
      · refine .of_kind ?_ us
        rw [hu]
        cases op <;> decide
      · refine .of_kind ?_ us
        rw [hu]
        decide
    have hlist : o :: (ls ++ t :: (rs ++ [c])) ++ rest = o :: (ls ++ t :: (rs ++ c :: rest)) := by
      simp
    rw [hlist] at hn ⊢
    have hwithin : (ls ++ t :: (rs ++ c :: rest)).length < n := hn
    have hlength : (rs ++ c :: rest).length ≤ (ls ++ t :: (rs ++ c :: rest)).length :=
      Nat.le_of_lt (length_behind_lt (Nat.le_refl _))
    have hinner :
        computed scope (ls ++ t :: (rs ++ c :: rest)) = .ok (.binary op l r, c :: rest) := by
      rw [computed_eq, nested_apply]
      refine chains_of_operation (ihl he.1 (hends _ (.inl ht)) (Nat.le_refl _)) ht
        (ihr he.2 (hends _ (.inr hc)) hlength) hc ?_
      simp only [List.length_cons, List.length_append]
      omega
    unfold factor
    rw [bind_eq_ok (accept_of_eq ho), if_pos rfl, bind_eq_ok ((within_apply hwithin).trans hinner),
      bind_eq_ok (expect_of_eq hc)]
    rfl

/-- A written expression at the front of a line is read up to its end. -/
theorem computed_of_written (h : e.Written ts) (he : e.Printable) (ht : t.kind = .newline) :
    computed scope (ts ++ t :: us) = .ok (e, t :: us) := by
  have hends : EndsFactor scope (t :: us) := .of_kind (by rw [ht]; decide) us
  have hfactor : factor (within (ts ++ t :: us).length computed) scope (ts ++ t :: us) =
      .ok (e, t :: us) := factor_of_written h he hends (Nat.le_refl _)
  have htimes : timesOrOver scope (t :: us) = .ok (none, t :: us) :=
    arithmetic?_of_none (by rw [ht]; rfl) us
  have hplus : plusOrMinus scope (t :: us) = .ok (none, t :: us) :=
    arithmetic?_of_none (by rw [ht]; rfl) us
  rw [computed_eq, nested_apply]
  exact leftChain_of_stop (leftChain_of_stop hfactor htimes) hplus

end

end Parser

/-! ## What is printed is scanned as it is written -/

namespace Computed

variable {e : Computed} {ts : List Token}

theorem Written.closesBrackets (h : e.Written ts) : ClosesBrackets ts := by
  induction h with
  | field h => exact h.closesBrackets
  | number ht => exact .cons (by rw [ht]; rfl) .nil
  | negative hm ht => exact .cons (by rw [hm]; rfl) (.cons (by rw [ht]; rfl) .nil)
  | aggregate ht _ ho h hc =>
    exact .cons (by rw [ht]; rfl) (.enclosed (.inl ho) h.closesBrackets (.inl hc))
  | @binary op _ _ o t c ls rs ho _ ht _ hc ihl ihr =>
    have hop : t.kind.isBracket = false := by
      rw [ht]
      cases op <;> rfl
    have henclosed := ClosesBrackets.enclosed (.inl ho) (ihl.append (.cons hop ihr)) (.inl hc)
    rwa [List.append_assoc, List.cons_append] at henclosed

/-- The character of an operator, unless an arrow comes of it. -/
theorem scans_symbol (op : ArithmeticOp) :
    Lexer.Scans (fun rest => rest.head? ≠ some '>') op.symbol.toList (IsSign op.kind) := by
  cases op with
  | add => exact .sign "+" (by decide) fun _ _ => rfl
  | sub => exact .minus
  | mul => exact .sign "*" (by decide) fun _ _ => rfl
  | div => exact .sign "/" (by decide) fun _ _ => rfl

/-- What an aggregate is called is read as its keyword. -/
theorem spelling_eq (function : Aggregate) : IsWord function.spelling.toList ∧
    TokenKind.ofWord function.spelling = .keyword function.keyword ∧
      Aggregate.ofKeyword? function.keyword = some function := by
  cases function <;> decide +kernel

theorem scans_number {text s : String} (hs : IsNumeral s.toList ∨ IsDecimal s.toList)
    (htext : text = s ∨ text = "-" ++ s) :
    Lexer.Scans EndsOperand text.toList (Computed.number text).Written := by
  rcases htext with rfl | rfl
  · refine (Lexer.Scans.number hs).mono ?_
    rintro us ⟨t, rfl, hk, rfl⟩
    exact .number hk
  · refine (Lexer.Scans.negated hs).mono ?_
    rintro us ⟨m, t, rfl, hm, ht, rfl⟩
    exact .negative hm ht

theorem scans_aggregate {p : FieldPath} (hp : p.Printable) (function : Aggregate) :
    Lexer.Scans EndsOperand (Computed.aggregate function p).render.toList
      (Computed.aggregate function p).Written := by
  obtain ⟨hword, hkind, hk⟩ := spelling_eq function
  have hcall := hp.scans.between .openParen .closeParen (.cons (by decide) (by decide))
  have hscan := (Lexer.Scans.word hword).append hcall fun rest _ => .cons (by decide) _
  have htext : (Computed.aggregate function p).render.toList =
      function.spelling.toList ++ '(' :: (p.render.toList ++ [')']) := by
    show (function.spelling ++ "(" ++ p.render ++ ")").toList = _
    simp only [String.toList_append, List.append_assoc]
    rfl
  rw [htext]
  refine (hscan.weaken fun _ _ => trivial).mono ?_
  rintro us ⟨_, _, rfl, ⟨t, ht, rfl⟩, o, ts, c, rfl, ho, hts, hc⟩
  exact .aggregate (ht.kind.trans hkind) hk ho hts hc

theorem scans_binary {l r : Computed} (hl : Lexer.Scans EndsOperand l.render.toList l.Written)
    (hr : Lexer.Scans EndsOperand r.render.toList r.Written) (op : ArithmeticOp) :
    Lexer.Scans EndsOperand (Computed.binary op l r).render.toList
      (Computed.binary op l r).Written := by
  have hblank : ∀ cs : List Char, EndsOperand (' ' :: cs) := .cons (by decide) (by decide)
  have hright := (scans_symbol op).blank.append hr.blank fun rest _ => by
    rw [List.cons_append]
    exact fun e => by cases e
  have hoperation := hl.append hright fun rest _ => hblank _
  have hscan := hoperation.between .openParen .closeParen (.cons (by decide) (by decide))
  have htext : (Computed.binary op l r).render.toList =
      '(' :: (l.render.toList ++ (' ' :: op.symbol.toList ++ ' ' :: r.render.toList) ++ [')']) := by
    show ("(" ++ l.render ++ " " ++ op.symbol ++ " " ++ r.render ++ ")").toList = _
    simp only [String.toList_append, List.append_assoc]
    rfl
  rw [htext]
  refine (hscan.weaken fun _ _ => trivial).mono ?_
  rintro us ⟨o, _, c, rfl, ho, ⟨ls, _, rfl, hls, _, rs, rfl, ⟨t, rfl, ht⟩, hrs⟩, hc⟩
  rw [List.append_assoc]
  exact .binary ho hls ht hrs hc

/-- The print of an expression is scanned as the tokens that write it. -/
theorem Printable.scans (h : e.Printable) : Lexer.Scans EndsOperand e.render.toList e.Written := by
  induction e with
  | field p => exact (FieldPath.Printable.scans h).mono fun _ => .field
  | number text =>
    obtain ⟨s, hs, htext⟩ := h
    exact scans_number hs htext
  | aggregate function p => exact scans_aggregate h function
  | binary op l r ihl ihr => exact scans_binary (ihl h.1) (ihr h.2) op

/-- It starts with neither a blank nor a comment. -/
theorem Printable.exists_first (h : e.Printable) :
    ∃ c cs, e.render.toList = c :: cs ∧ isBlank c = false ∧ c ≠ '#' := by
  cases e with
  | field p => exact FieldPath.Printable.exists_first h
  | number text =>
    obtain ⟨s, hs, rfl | rfl⟩ := h
    · obtain ⟨c, cs, hcs, hc⟩ := exists_digit_of_number hs
      exact ⟨c, cs, hcs, visible_of hc (by decide)⟩
    · exact ⟨'-', s.toList, String.toList_append, by decide, by decide⟩
  | aggregate function p =>
    have htext : (Computed.aggregate function p).render.toList =
        function.spelling.toList ++ ("(" ++ p.render ++ ")").toList := by
      show (function.spelling ++ "(" ++ p.render ++ ")").toList = _
      simp only [String.toList_append, List.append_assoc]
    rw [htext]
    exact (spelling_eq function).1.exists_first _
  | binary op l r =>
    refine ⟨'(', (l.render ++ " " ++ op.symbol ++ " " ++ r.render ++ ")").toList, ?_, by decide⟩
    show ("(" ++ l.render ++ " " ++ op.symbol ++ " " ++ r.render ++ ")").toList = _
    simp only [String.toList_append, List.append_assoc]
    rfl

end Computed

/-! ## Reading back -/

theorem Computed.printable_of_canReturn {e : Computed} (h : Parser.computed.CanReturn e) :
    e.Printable :=
  h.drawn Parser.draws_computed

theorem Computed.Printable.readsBack {e : Computed} (h : e.Printable) :
    Parser.computed.ReadsBack e.render e :=
  Parser.readsBack_of_line (isLineOf_of_scans h.exists_first h.scans .nil fun _ hus =>
    hus.closesBrackets) fun _ _ _ hus hn => Parser.computed_of_written hus h hn

/-- Every computed expression that can be read off a text is read back from its print, up to the end
of the line. So the print tells such expressions apart, and the print of what a text was read as is
read as the same. -/
theorem computed_readsBack :
    (∀ e : Computed, Parser.computed.CanReturn e → Parser.computed.ReadsBack e.render e) ∧
    (∀ e e' : Computed, Parser.computed.CanReturn e → Parser.computed.CanReturn e' →
      e.render = e'.render → e = e') ∧
    ∀ file text a f inModule e rest, tokenize file text = .ok (a ++ [f]) →
      Parser.computed ⟨file, inModule, f⟩ a = .ok (e, rest) →
        Parser.computed.ReadsBack e.render e := by
  have hback (e : Computed) (h : Parser.computed.CanReturn e) :
      Parser.computed.ReadsBack e.render e :=
    (Computed.printable_of_canReturn h).readsBack
  refine ⟨hback, fun e e' h h' hrender => ?_, ?_⟩
  · have hread := hback e h
    rw [hrender] at hread
    exact hread.unique (hback e' h')
  · intro file text a f inModule e rest htokens hread
    exact hback e ⟨file, text, a, f, inModule, a, rest, htokens, List.suffix_refl a, hread⟩

/-- A negative decimal behind a minus, and the name of an aggregate as that of a field. -/
theorem computed_readsBack_total :
    let e : Computed := .binary .sub (.field ⟨["total"]⟩)
      (.binary .mul (.number "-1.5") (.aggregate .sum ⟨["lines", "count"]⟩))
    Parser.computed.CanReturn e ∧
      Parser.computed.ReadsBack "(total - (-1.5 * sum(lines.count)))" e := by
  intro e
  have hcan : Parser.computed.CanReturn e :=
    Parser.canReturn_of_tokenize "order.dsl" "total - -1.5 * sum(lines.count)" (by decide +kernel)
  have hrender : e.render = "(total - (-1.5 * sum(lines.count)))" := by decide +kernel
  refine ⟨hcan, ?_⟩
  rw [← hrender]
  exact computed_readsBack.1 e hcan

end Blueprint
