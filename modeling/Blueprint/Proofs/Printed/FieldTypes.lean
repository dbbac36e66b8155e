import Blueprint.Proofs.Printed.ReadBack
import Blueprint.Proofs.WellFormed.Fields

/-!
# Printed field types

A field type is printed without the options of its relation. A type that was read off a text and
has none of them is read back from its print (`fieldType_readsBack`). Every print is the keyword of
the type with its parameters behind it (`FieldType.toList_render`): only in these do the shapes of
types differ when they are printed, scanned and read.
-/

namespace Blueprint

/-! ## Keywords -/

/-- The keyword of a relation of the kind. -/
def RelationKind.keyword : RelationKind → Keyword
  | ref => .ref
  | hasMany => .hasMany
  | hasOne => .hasOne
  | belongsTo => .belongsTo
  | embeds => .embeds

namespace FieldType

/-- The keyword that a type of the shape starts with. -/
def keyword : FieldType → Keyword
  | str _ => .str
  | text => .text
  | int => .int
  | float => .float
  | decimal .. => .decimal
  | bool => .bool
  | date => .date
  | datetime => .datetime
  | time => .time
  | uuid => .uuid
  | email => .email
  | url => .url
  | phone => .phone
  | json => .json
  | money _ => .money
  | file => .file
  | image => .image
  | timezone => .timezone
  | enum _ | enumRef _ => .enum
  | relation r => r.kind.keyword

theorem opensType_keyword (t : FieldType) : t.keyword.opensType = true := by
  cases t with
  | relation r =>
    show r.kind.keyword.opensType = true
    cases r.kind <;> rfl
  | _ => rfl

end FieldType

/-- A keyword that opens a type is a word that is read as that keyword. -/
theorem Keyword.isWord_of_opensType {k : Keyword} (h : k.opensType = true) :
    IsWord k.spelling.toList ∧ TokenKind.ofWord k.spelling = .keyword k := by
  cases k <;> first | (cases h; done) | decide +kernel

/-! ## Parameters -/

namespace FieldType

/-- What the print of a type has behind its keyword. -/
def parameters : FieldType → List Char
  | str (some n) => '(' :: ((toString n).toList ++ [')'])
  | decimal precision scale =>
    '(' :: ((toString precision).toList ++ ',' :: (toString scale).toList ++ [')'])
  | money currency => '(' :: (currency.toList ++ [')'])
  | enum values => '[' :: ([','].intercalate (values.map String.toList) ++ [']'])
  | enumRef name => ' ' :: name.toList
  | relation r => ' ' :: r.target.toList
  | _ => []

/-- A print is the keyword of the type with the parameters behind it. -/
theorem toList_render (t : FieldType) :
    t.render.toList = t.keyword.spelling.toList ++ t.parameters := by
  cases t with
  | str n =>
    cases n with
    | none => rfl
    | some n =>
      show ("str(" ++ toString n ++ ")").toList = "str".toList ++ _
      simp only [String.toList_append, List.append_assoc]
      rfl
  | decimal precision scale =>
    show ("decimal(" ++ toString precision ++ "," ++ toString scale ++ ")").toList =
      "decimal".toList ++ _
    simp only [parameters, String.toList_append, List.append_assoc]
    rfl
  | money currency =>
    show ("money(" ++ currency ++ ")").toList = "money".toList ++ _
    simp only [String.toList_append, List.append_assoc]
    rfl
  | enum values =>
    show ("enum[" ++ ",".intercalate values ++ "]").toList = "enum".toList ++ _
    simp only [String.toList_append, List.append_assoc, String.toList_intercalate]
    rfl
  | enumRef name =>
    show ("enum " ++ name).toList = "enum".toList ++ _
    rw [String.toList_append]
    rfl
  | relation r =>
    have hkind : r.kind.spelling = r.kind.keyword.spelling := by cases r.kind <;> rfl
    show (r.kind.spelling ++ " " ++ r.target).toList = r.kind.keyword.spelling.toList ++ _
    simp only [String.toList_append, List.append_assoc, hkind]
    rfl
  | _ => rfl

/-- The tokens that the parameters of a type are written with. -/
def ParametersWritten : FieldType → List Token → Prop
  | str (some n) => Between .openParen .closeParen (IsToken .number (toString n))
  | decimal precision scale => Between .openParen .closeParen fun ts =>
    ∃ ps m ss, ts = ps ++ m :: ss ∧ IsToken .number (toString precision) ps ∧ m.kind = .comma ∧
      IsToken .number (toString scale) ss
  | money currency => Between .openParen .closeParen (WordWritten currency)
  | enum values => Between .openBracket .closeBracket (Separated .comma WordWritten values)
  | enumRef name => WordWritten name
  | relation r => WordWritten r.target
  | _ => fun ts => ts = []

/-- The keyword of the type and its parameters. -/
def Written (t : FieldType) (ts : List Token) : Prop :=
  ∃ k us, ts = k :: us ∧ k.kind = .keyword t.keyword ∧ t.ParametersWritten us

/-- Numbers are counts, and names are words that can be names. -/
def Printable : FieldType → Prop
  | str n => ∀ v ∈ n, v < Text.countBound
  | decimal precision scale => precision < Text.countBound ∧ scale < Text.countBound
  | money currency => IsName currency
  | enum values => ∀ v ∈ values, IsName v
  | enumRef name => IsName name
  | relation r => IsName r.target
  | _ => True

/-- There are no options of a relation, which the print would leave out. -/
def IsPlain (t : FieldType) : Prop :=
  ∀ r ∈ t.relation?, r.via = none ∧ r.onDelete = none ∧ r.readonly = false

end FieldType

namespace Parser

/-! ## What can be read can be printed -/

theorem draws_parenthesized? {α : Type} {A : Token → Prop} {part : Parser α} {P : α → Prop}
    (h : Draws A part P) : Draws A (parenthesized? part) fun o => ∀ v ∈ o, P v := by
  refine Draws.accept.bind fun _ _ => .ite ?_ (.pure nofun)
  refine h.bind fun v hv => Draws.expect.bind fun _ _ => .pure fun w hw => ?_
  cases hw
  exact hv

theorem draws_decimalType {t : Token} :
    Draws Token.IsGenuine (decimalType t) FieldType.Printable := by
  refine Draws.expect.bind fun _ _ => Draws.count.bind fun precision hp =>
    Draws.expect.bind fun _ _ => Draws.count.bind fun scale hs => Draws.expect.bind fun _ _ => ?_
  exact .ite (.of_never failAt_ne_ok) (.pure ⟨hp, hs⟩)

theorem draws_enumType : Draws Token.IsGenuine enumType FieldType.Printable := by
  have hvalue (values : List String) (h : ∀ v ∈ values, IsName v) :
      Draws Token.IsGenuine (enumValue values) fun values => ∀ v ∈ values, IsName v := by
    refine Draws.current.bind fun _ _ => Draws.name.bind fun v hv => ?_
    exact .ite (.of_never failAt_ne_ok)
      (.pure (List.forall_mem_append.2 ⟨h, List.forall_mem_singleton.2 hv⟩))
  refine Draws.accept.bind fun _ _ => .ite ?_ (Draws.name.bind fun n hn => .pure hn)
  exact (Draws.separatedFold (List.forall_mem_nil _) hvalue fun _ h => h).bind fun _ h =>
    Draws.expect.bind fun _ _ => .pure h

/-- The options of a relation leave its target alone. -/
theorem draws_relationOption? {r : Relation} (h : IsName r.target) :
    Draws Token.IsGenuine (relationOption? r) fun o => ∀ r', o = some r' → IsName r'.target := by
  have hsome {r' : Relation} (h : IsName r'.target) :
      Draws Token.IsGenuine (pure (some r') : Parser (Option Relation))
        fun o => ∀ r', o = some r' → IsName r'.target := by
    refine .pure fun r'' e => ?_
    cases e
    exact h
  unfold relationOption?
  refine Draws.keyword?.bind fun k _ => ?_
  split
  · exact Draws.advance.bind fun _ _ => Draws.name.bind fun _ _ => hsome h
  · exact Draws.advance.bind fun _ _ => hsome h
  · exact Draws.advance.bind fun _ _ => hsome h
  · exact Draws.advance.bind fun _ _ => hsome h
  · exact Draws.advance.bind fun _ _ => hsome h
  · refine .pure fun r' e => ?_
    cases e

theorem draws_relation {kind : RelationKind} :
    Draws Token.IsGenuine (relation kind) fun r => IsName r.target := by
  refine Draws.name.bind fun target ht => ?_
  refine (Draws.iterate (I := fun r => IsName r.target) ht fun _ => draws_relationOption?).bind
    fun r hr => ?_
  exact .ite (.of_never fail_ne_ok) (.pure hr)

theorem draws_fieldType : Draws Token.IsGenuine fieldType FieldType.Printable := by
  have hscalar {k : Keyword} {t : FieldType} (h : FieldType.ofKeyword? k = some t) :
      t.Printable := by
    unfold FieldType.ofKeyword? at h
    split at h <;> cases h <;> trivial
  refine Draws.current.bind fun t _ => ?_
  split
  · next k _ =>
    refine .ite (Draws.advance.bind fun _ _ => ?_) (.of_never failAt_ne_ok)
    unfold fieldTypeAfter
    split
    · exact (draws_parenthesized? Draws.count).bind fun n hn => .pure hn
    · exact draws_decimalType
    · refine (draws_parenthesized? Draws.name).bind fun currency hc => .pure ?_
      cases currency with
      | none =>
        show IsName defaultCurrency
        decide +kernel
      | some c => exact hc c rfl
    · exact draws_enumType
    · split
      · next h => exact .pure (hscalar h)
      · exact draws_relation.bind fun r hr => .pure hr
      · exact .of_never failAt_ne_ok
  · exact .of_never failAt_ne_ok

/-! ## What is written is read back -/

section

variable {α : Type} {scope : Scope} {us rest : List Token} {t newline : Token} {v : α}

theorem count_of_isToken {n : Nat} (h : IsToken .number (toString n) us)
    (hn : n < Text.countBound) (rest : List Token) : count scope (us ++ rest) = .ok (n, rest) := by
  obtain ⟨t, rfl, hk, ht⟩ := h
  obtain ⟨hnumeral, hvalue⟩ := isNumeral_toString n
  rw [← ht] at hnumeral hvalue
  have hlt : Text.digitsValue t.text.toList < Text.countBound := hvalue.symm ▸ hn
  have hread : count scope (t :: rest) = .ok (_, rest) := count_of_isNumeral hk hnumeral hlt rest
  rwa [hvalue] at hread

theorem name_of_written {s : String} (h : WordWritten s us) (hs : CanName s) (rest : List Token) :
    name scope (us ++ rest) = .ok (s, rest) := by
  obtain ⟨t, ht, rfl⟩ := h
  exact name_of_spells ht hs

theorem parenthesized?_of_between {part : Parser α} {W : List Token → Prop}
    (h : Between .openParen .closeParen W us)
    (hpart : ∀ us rest, W us → part scope (us ++ rest) = .ok (v, rest)) (rest : List Token) :
    parenthesized? part scope (us ++ rest) = .ok (some v, rest) := by
  obtain ⟨o, us, c, rfl, ho, hus, hc⟩ := h
  rw [List.cons_append, List.append_assoc, List.singleton_append]
  unfold parenthesized?
  rw [bind_eq_ok (accept_of_eq ho), if_pos rfl, bind_eq_ok (hpart us _ hus),
    bind_eq_ok (expect_of_eq hc)]
  rfl

theorem parenthesized?_of_ne {part : Parser α} (h : t.kind ≠ .openParen) (rest : List Token) :
    parenthesized? part scope (t :: rest) = .ok (none, t :: rest) := by
  unfold parenthesized?
  rw [bind_eq_ok (accept_of_ne h)]
  rfl

theorem decimalType_of_written {precision scale : Nat}
    (h : (FieldType.decimal precision scale).ParametersWritten us)
    (ht : (FieldType.decimal precision scale).Printable) (hle : scale ≤ precision)
    (rest : List Token) :
    decimalType t scope (us ++ rest) = .ok (.decimal precision scale, rest) := by
  obtain ⟨o, _, c, rfl, ho, ⟨ps, m, ss, rfl, hps, hm, hss⟩, hc⟩ := h
  have hlist : o :: (ps ++ m :: ss ++ [c]) ++ rest = o :: (ps ++ m :: (ss ++ c :: rest)) := by
    simp
  rw [hlist]
  unfold decimalType
  rw [bind_eq_ok (expect_of_eq ho), bind_eq_ok (count_of_isToken hps ht.1 _),
    bind_eq_ok (expect_of_eq hm), bind_eq_ok (count_of_isToken hss ht.2 _),
    bind_eq_ok (expect_of_eq hc), if_neg (Nat.not_lt.2 hle)]
  rfl

/-- A value that is not yet among the values is read behind them. -/
theorem enumValue_of_written {values : List String} {s : String} (h : WordWritten s us)
    (hs : CanName s) (hnew : s ∉ values) (rest : List Token) :
    enumValue values scope (us ++ rest) = .ok (values ++ [s], rest) := by
  have hno : values.contains s = false := by
    rw [List.contains_eq_mem, decide_eq_false hnew]
  unfold enumValue
  rw [bind_eq_ok (current_apply _ _), bind_eq_ok (name_of_written h hs rest), hno]
  rfl

theorem enumType_of_values {values : List String}
    (h : (FieldType.enum values).ParametersWritten us) (ht : (FieldType.enum values).Printable)
    (hnodup : values.Nodup) (rest : List Token) :
    enumType scope (us ++ rest) = .ok (.enum values, rest) := by
  obtain ⟨o, us, c, rfl, ho, hus, hc⟩ := h
  have hitem (as : List String) (s : String) (us rest : List Token) (hn : (as ++ [s]).Nodup)
      (hs : IsName s ∧ WordWritten s us) :
      enumValue as scope (us ++ rest) = .ok (as ++ [s], rest) := by
    rw [← List.concat_eq_append, List.nodup_concat] at hn
    exact enumValue_of_written hs.2 hs.1.canName hn.1 rest
  have hprefix (as : List String) (s : String) (hn : (as ++ [s]).Nodup) : as.Nodup :=
    (List.nodup_append.1 hn).1
  have hstop : (head scope (c :: rest)).kind ≠ .comma := by
    rw [head_cons, hc]
    decide
  have hread : separatedFold .comma enumValue [] scope (us ++ c :: rest) =
      .ok (values, c :: rest) :=
    (separatedFold_eq_iterateOn id List.Nodup (fun _ => True)
      (fun as s us rest hn hs _ _ => hitem as s us rest hn hs) hprefix (fun _ _ _ => trivial)
      (hus.and ht) hnodup trivial (Nat.le_refl _)).trans
        (iterateOn_of_none (separatedStep_of_stop hstop))
  rw [List.cons_append, List.append_assoc, List.singleton_append]
  unfold enumType
  rw [bind_eq_ok (accept_of_eq ho), if_pos rfl, bind_eq_ok hread, bind_eq_ok (expect_of_eq hc)]
  rfl

theorem enumType_of_name {name : String} (h : WordWritten name us) (hname : CanName name)
    (rest : List Token) : enumType scope (us ++ rest) = .ok (.enumRef name, rest) := by
  obtain ⟨t, ht, rfl⟩ := h
  have hne : t.kind ≠ .openBracket := by
    rw [ht.kind]
    exact hname.ofWord_ne_sign TokenKind.noConfusion fun _ => TokenKind.noConfusion
  unfold enumType
  rw [List.singleton_append, bind_eq_ok (accept_of_ne hne), if_neg Bool.false_ne_true,
    bind_eq_ok (name_of_spells ht hname)]
  rfl

/-- At the end of a line, a relation has no options. -/
theorem relation_of_written {kind : RelationKind} {target : String} (h : WordWritten target us)
    (ht : CanName target) (hn : newline.kind = .newline) (rest : List Token) :
    relation kind scope (us ++ newline :: rest) = .ok ({ kind, target }, newline :: rest) := by
  have hkeyword : keyword? scope (newline :: rest) = .ok (none, newline :: rest) := by
    have hnone : newline.keyword? = none := by
      unfold Token.keyword?
      rw [hn]
    unfold keyword?
    rw [bind_eq_ok (current_apply _ _), head_cons, hnone]
    rfl
  have hstop : relationOption? { kind, target } scope (newline :: rest) =
      .ok (none, newline :: rest) := by
    unfold relationOption?
    rw [bind_eq_ok hkeyword]
    rfl
  have hoptions : iterate relationOption? { kind, target } scope (newline :: rest) =
      .ok ({ kind, target }, newline :: rest) := iterateOn_of_none hstop
  unfold relation
  rw [bind_eq_ok (name_of_written h ht _), bind_eq_ok hoptions]
  rfl

/-- The parameters are read behind the keyword, up to the end of the line. -/
theorem fieldTypeAfter_of_written {ty : FieldType} (h : ty.ParametersWritten us)
    (hprint : ty.Printable) (hwell : ty.WellFormed) (hplain : ty.IsPlain)
    (hn : newline.kind = .newline) (rest : List Token) :
    fieldTypeAfter t ty.keyword scope (us ++ newline :: rest) = .ok (ty, newline :: rest) := by
  have hparen : newline.kind ≠ .openParen := by
    rw [hn]
    decide
  cases ty with
  | str n =>
    have hread : parenthesized? count scope (us ++ newline :: rest) =
        .ok (n, newline :: rest) := by
      cases n with
      | none =>
        obtain rfl : us = [] := h
        exact parenthesized?_of_ne hparen rest
      | some n =>
        exact parenthesized?_of_between h
          (fun us rest hus => count_of_isToken hus (hprint n rfl) rest) _
    exact bind_eq_ok hread
  | decimal precision scale => exact decimalType_of_written h hprint hwell _
  | money currency =>
    have hread : parenthesized? name scope (us ++ newline :: rest) =
        .ok (some currency, newline :: rest) :=
      parenthesized?_of_between h (fun us rest hus => name_of_written hus hprint.canName rest) _
    exact bind_eq_ok hread
  | enum values => exact enumType_of_values h hprint hwell.2 _
  | enumRef name => exact enumType_of_name h hprint.canName _
  | relation r =>
    obtain ⟨kind, target, via, onDelete, readonly⟩ := r
    obtain ⟨rfl, rfl, rfl⟩ := hplain _ rfl
    have hread : Parser.relation kind scope (us ++ newline :: rest) =
        .ok ({ kind, target }, newline :: rest) := relation_of_written h hprint.canName hn rest
    cases kind <;> exact bind_eq_ok hread
  | _ =>
    obtain rfl : us = [] := h
    rfl

theorem fieldType_of_written {ty : FieldType} {ts : List Token} (h : ty.Written ts)
    (hprint : ty.Printable) (hwell : ty.WellFormed) (hplain : ty.IsPlain)
    (hn : newline.kind = .newline) (rest : List Token) :
    fieldType scope (ts ++ newline :: rest) = .ok (ty, newline :: rest) := by
  obtain ⟨k, us, rfl, hk, hus⟩ := h
  have hkeyword : k.keyword? = some ty.keyword := by
    unfold Token.keyword?
    rw [hk]
  unfold fieldType
  rw [List.cons_append, bind_eq_ok (current_apply _ _), head_cons, hkeyword]
  dsimp only
  rw [if_pos ty.opensType_keyword, bind_eq_ok (advance_apply _ _)]
  exact fieldTypeAfter_of_written hus hprint hwell hplain hn rest

end

end Parser

/-! ## What is printed is scanned as it is written -/

namespace FieldType

variable {t : FieldType}

theorem ParametersWritten.closesBrackets {ts : List Token} (h : t.ParametersWritten ts) :
    ClosesBrackets ts := by
  cases t with
  | str n =>
    cases n with
    | none => exact h ▸ .nil
    | some n => exact h.closesBrackets (.inl rfl) (.inl rfl) fun _ hus => hus.closesBrackets rfl
  | decimal precision scale =>
    refine h.closesBrackets (.inl rfl) (.inl rfl) ?_
    rintro us ⟨ps, m, ss, rfl, hps, hm, hss⟩
    exact (hps.closesBrackets rfl).append (.cons (by rw [hm]; rfl) (hss.closesBrackets rfl))
  | money currency =>
    exact h.closesBrackets (.inl rfl) (.inl rfl) fun _ => WordWritten.closesBrackets
  | enum values =>
    exact h.closesBrackets (.inr rfl) (.inr rfl) fun _ hus =>
      hus.closesBrackets rfl fun _ _ => WordWritten.closesBrackets
  | enumRef name => exact WordWritten.closesBrackets h
  | relation r => exact WordWritten.closesBrackets h
  | _ => exact h ▸ .nil

theorem Written.closesBrackets {ts : List Token} (h : t.Written ts) : ClosesBrackets ts := by
  obtain ⟨k, us, rfl, hk, hus⟩ := h
  exact .cons (by rw [hk]; rfl) hus.closesBrackets

theorem scans_count (n : Nat) :
    Lexer.Scans EndsOperand (toString n).toList (IsToken .number (toString n)) :=
  .number (.inl (isNumeral_toString n).1)

/-- Parameters are scanned as the tokens that write them. -/
theorem Printable.scans_parameters (h : t.Printable) (hw : t.WellFormed) :
    Lexer.Scans EndsWord t.parameters t.ParametersWritten := by
  have hoperand : ∀ rest, EndsOperand (')' :: rest) := .cons (by decide) (by decide)
  have hcomma : Lexer.Scans (fun _ => True) [','] (IsSign .comma) :=
    .sign "," (by decide) fun _ _ => rfl
  cases t with
  | str n =>
    cases n with
    | none => exact .nil rfl
    | some n =>
      exact ((scans_count n).between .openParen .closeParen hoperand).weaken fun _ _ => trivial
  | decimal precision scale =>
    have hscale := hcomma.append (scans_count scale) fun _ _ => trivial
    have hboth := (scans_count precision).append hscale fun rest _ =>
      .cons (by decide) (by decide) _
    refine (Lexer.Scans.between (hboth.mono ?_) .openParen .closeParen hoperand).weaken
      fun _ _ => trivial
    rintro us ⟨ps, _, rfl, hps, _, ss, rfl, ⟨m, rfl, hm⟩, hss⟩
    exact ⟨ps, m, ss, rfl, hps, hm, hss⟩
  | money currency =>
    have hcurrency := Lexer.Scans.word (IsName.isWord h)
    exact (hcurrency.between .openParen .closeParen (.cons (by decide))).weaken fun _ _ => trivial
  | enum values =>
    have hvalues := Lexer.Scans.separated hcomma (by decide) hw.1 fun v hv => (h v hv).isWord
    have hopen : Lexer.Scans (fun _ => True) ['['] (IsSign .openBracket) :=
      .sign "[" (by decide) fun _ _ => rfl
    have hclose : Lexer.Scans (fun _ => True) [']'] (IsSign .closeBracket) :=
      .sign "]" (by decide) fun _ _ => rfl
    exact (hvalues.between hopen hclose (.cons (by decide))).weaken fun _ _ => trivial
  | enumRef name => exact (Lexer.Scans.word (IsName.isWord h)).blank
  | relation r => exact (Lexer.Scans.word (IsName.isWord h)).blank
  | _ => exact .nil rfl

/-- Parameters do not go on with a word. -/
theorem endsWord_parameters (t : FieldType) {rest : List Char} (hrest : EndsWord rest) :
    EndsWord (t.parameters ++ rest) := by
  cases t with
  | str n =>
    cases n with
    | none => exact hrest
    | some n => exact .cons (by decide) _
  | decimal | money | enum | enumRef | relation => exact .cons (by decide) _
  | _ => exact hrest

/-- The print of a type is scanned as the tokens that write it. -/
theorem Printable.scans (h : t.Printable) (hw : t.WellFormed) :
    Lexer.Scans EndsWord t.render.toList t.Written := by
  obtain ⟨hword, hkind⟩ := Keyword.isWord_of_opensType t.opensType_keyword
  have hscan := (Lexer.Scans.word hword).append (h.scans_parameters hw) fun _ =>
    t.endsWord_parameters
  rw [toList_render]
  refine hscan.mono ?_
  rintro us ⟨_, vs, rfl, ⟨k, hk, rfl⟩, hvs⟩
  exact ⟨k, vs, rfl, hk.kind.trans hkind, hvs⟩

theorem Printable.readsBack (h : t.Printable) (hw : t.WellFormed) (hplain : t.IsPlain) :
    Parser.fieldType.ReadsBack t.render t := by
  have hfirst : ∃ c cs, t.render.toList = c :: cs ∧ isBlank c = false ∧ c ≠ '#' := by
    rw [toList_render]
    exact (Keyword.isWord_of_opensType t.opensType_keyword).1.exists_first _
  exact Parser.readsBack_of_line (isLineOf_of_scans hfirst (h.scans hw) nofun fun _ hus =>
    hus.closesBrackets) fun _ _ _ hus hn => Parser.fieldType_of_written hus h hw hplain hn []

end FieldType

/-! ## Reading back -/

/-- Every field type that can be read off a text, and has no options of a relation, is read back
from its print, up to the end of the line. So the print tells such types apart. -/
theorem fieldType_readsBack :
    (∀ t : FieldType, Parser.fieldType.CanReturn t → t.IsPlain →
      Parser.fieldType.ReadsBack t.render t) ∧
    ∀ t t' : FieldType, Parser.fieldType.CanReturn t → t.IsPlain → Parser.fieldType.CanReturn t' →
      t'.IsPlain → t.render = t'.render → t = t' := by
  have hback (t : FieldType) (h : Parser.fieldType.CanReturn t) (hplain : t.IsPlain) :
      Parser.fieldType.ReadsBack t.render t :=
    (h.drawn Parser.draws_fieldType).readsBack (h.given Parser.fieldType_gives) hplain
  refine ⟨hback, fun t t' h hplain h' hplain' hrender => ?_⟩
  have hread := hback t h hplain
  rw [hrender] at hread
  exact hread.unique (hback t' h' hplain')

/-- Keywords as values of an enum and as the target of a relation. -/
theorem fieldType_readsBack_keywords :
    (Parser.fieldType.CanReturn (.enum ["ref", "min", "enum"]) ∧
      Parser.fieldType.ReadsBack "enum[ref,min,enum]" (.enum ["ref", "min", "enum"])) ∧
    Parser.fieldType.CanReturn (.relation { kind := .hasMany, target := "list" }) ∧
      Parser.fieldType.ReadsBack "has_many list"
        (.relation { kind := .hasMany, target := "list" }) := by
  have hplain : FieldType.IsPlain (.enum ["ref", "min", "enum"]) := nofun
  have hplain' : FieldType.IsPlain (.relation { kind := .hasMany, target := "list" }) := by
    intro r hr
    cases hr
    exact ⟨rfl, rfl, rfl⟩
  have hcan : Parser.fieldType.CanReturn (.enum ["ref", "min", "enum"]) :=
    Parser.canReturn_of_tokenize "task.dsl" "enum [ref, min, enum]" (by decide +kernel)
  have hcan' : Parser.fieldType.CanReturn (.relation { kind := .hasMany, target := "list" }) :=
    Parser.canReturn_of_tokenize "task.dsl" "has_many list required" (by decide +kernel)
  exact ⟨⟨hcan, fieldType_readsBack.1 _ hcan hplain⟩, hcan', fieldType_readsBack.1 _ hcan' hplain'⟩

end Blueprint
