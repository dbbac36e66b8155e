import Blueprint.Proofs.Lexing
import Mathlib.Data.List.Infix
import Mathlib.Data.List.TakeWhile

/-!
# Where tokens stand

Nothing of a text is lost in its tokens. Each token that is no mark of layout is read off an excerpt
of its line, which spells it (`Spelled`). The excerpts of a line stand one behind the other, and
what stands between them is blank or belongs to a comment (`CoversLine`). The tokens of a text are
those of its lines, in their order, and the marks at its end (`tokenize_covers`).

The scanner cuts a line from left to right. `Cut` follows it, and the facts about whole lines are
read off a cut by induction.
-/

namespace Blueprint

/-! ## Spellings -/

/-- Whether a backslash at the end escapes the character behind it: it does unless it is escaped
itself. -/
def endsEscaping (cs : List Char) : Bool :=
  cs.foldl (fun escaping c => c == '\\' && !escaping) false

/-- What can stand between the quotes of a string: every quote in it is escaped, and the one behind
it is not. -/
structure IsQuoted (body : List Char) : Prop where
  escaped : ∀ us vs, body = us ++ '"' :: vs → endsEscaping us = true
  closes : endsEscaping body = false

/-- The characters that a token of the class and text is read off. -/
inductive Spelled : TokenKind → String → List Char → Prop where
  /-- Marks of layout are read off no characters. -/
  | mark {kind : TokenKind} (hk : kind.endsStatement = true) : Spelled kind "" []
  | string {text : String} {body : List Char} (hbody : IsQuoted body) :
    Spelled .string text ('"' :: body ++ ['"'])
  | plain {kind : TokenKind} {text : String} (hk : kind.endsStatement = false)
    (hs : kind ≠ .string) (htext : text ≠ "") : Spelled kind text text.toList

/-- A token with the characters that it is read off. -/
structure Excerpt where
  token : Token
  chars : List Char

namespace Excerpt

/-- The number of characters in front of it in its line. -/
def start (e : Excerpt) : Nat := e.token.column - 1

/-- The number of characters in its line up to its end. -/
def stop (e : Excerpt) : Nat := e.start + e.chars.length

/-- The character with `i` others in front of it in the line belongs to the excerpt. -/
def Holds (e : Excerpt) (i : Nat) : Prop := e.start ≤ i ∧ i < e.stop

end Excerpt

/-- The excerpts, from left to right, are all of the line with the given number that counts. -/
structure CoversLine (number : Nat) (l : List Char) (es : List Excerpt) : Prop where
  spelled : ∀ e ∈ es, Spelled e.token.kind e.token.text e.chars
  /-- Each one stands in the line at the column of its token. -/
  stands : ∀ e ∈ es, e.token.line = number ∧ 1 ≤ e.token.column ∧ e.chars <+: l.drop e.start
  ordered : es.Pairwise fun e e' => e.stop ≤ e'.start
  /-- What is in no excerpt is blank, or in a comment, or a carriage return at the end. -/
  rest : ∀ i c, l[i]? = some c → (∃ e ∈ es, e.Holds i) ∨ isBlank c = true ∨
    (∃ k ≤ i, l[k]? = some '#' ∧ ∀ e ∈ es, ∀ j, k ≤ j → ¬ e.Holds j) ∨ ∀ r ∈ l.drop i, r = '\r'

/-! ## The spelling of one token -/

theorem endsEscaping_cons {c : Char} (hc : c ≠ '\\') (cs : List Char) :
    endsEscaping (c :: cs) = endsEscaping cs := by
  have hstep : (c == '\\' && !false) = false := by simp [hc]
  rw [endsEscaping, List.foldl_cons, hstep]
  rfl

theorem endsEscaping_escape (c : Char) (cs : List Char) :
    endsEscaping ('\\' :: c :: cs) = endsEscaping cs := by
  simp [endsEscaping]

namespace IsQuoted

variable {c : Char} {body : List Char}

theorem nil : IsQuoted [] := ⟨fun us vs e => by simp at e, rfl⟩

theorem cons (hq : c ≠ '"') (hb : c ≠ '\\') (h : IsQuoted body) : IsQuoted (c :: body) := by
  refine ⟨fun us vs e => ?_, by rw [endsEscaping_cons hb, h.closes]⟩
  cases us with
  | nil => exact absurd (List.cons.inj e).1 hq
  | cons u us =>
    obtain rfl := (List.cons.inj e).1
    rw [endsEscaping_cons hb]
    exact h.escaped us vs (List.cons.inj e).2

theorem escape (c : Char) (h : IsQuoted body) : IsQuoted ('\\' :: c :: body) := by
  refine ⟨fun us vs e => ?_, by rw [endsEscaping_escape, h.closes]⟩
  match us with
  | [] => exact absurd (List.cons.inj e).1 (by decide)
  | [u] =>
    obtain ⟨rfl, -⟩ := List.cons.inj e
    rfl
  | u :: u' :: us =>
    simp only [List.cons_append, List.cons.injEq] at e
    obtain ⟨rfl, rfl, e⟩ := e
    rw [endsEscaping_escape]
    exact h.escaped us vs e

end IsQuoted

namespace Lexeme

variable {c : Char} {cs content : List Char} {l : Lexeme} {width : Nat}

/-- A string is read up to the first quote that is not escaped. -/
theorem isQuoted_of_quoted (h : quoted cs = .ok (content, width)) :
    ∃ body, IsQuoted body ∧ width = body.length + 1 ∧ cs = body ++ '"' :: cs.drop width := by
  fun_induction quoted cs generalizing content width with
  | case1 => cases h
  | case2 cs =>
    cases h
    exact ⟨[], .nil, rfl, rfl⟩
  | case3 => cases h
  | case4 c cs ih =>
    obtain ⟨⟨inner, n⟩, hn, h⟩ := Except.bind_eq_ok_iff.1 h
    cases h
    obtain ⟨body, hbody, rfl, hcs⟩ := ih hn
    refine ⟨'\\' :: c :: body, hbody.escape c, rfl, ?_⟩
    rw [List.cons_append, List.cons_append]
    exact congrArg ('\\' :: c :: ·) hcs
  | case5 c cs hq hend hb ih =>
    obtain ⟨⟨inner, n⟩, hn, h⟩ := Except.bind_eq_ok_iff.1 h
    cases h
    obtain ⟨body, hbody, rfl, hcs⟩ := ih hn
    refine ⟨c :: body, hbody.cons hq ?_, rfl, ?_⟩
    · rintro rfl
      cases cs with
      | nil => exact hend rfl rfl
      | cons d ds => exact hb d ds rfl rfl
    · rw [List.cons_append]
      exact congrArg (c :: ·) hcs

/-- The lexeme is no string and as wide as its text, which the characters begin with. -/
structure Begins (l : Lexeme) (cs : List Char) : Prop where
  kind : l.kind ≠ .string
  spelled : l.text.toList <+: cs
  width : l.width = l.text.toList.length
  pos : l.text ≠ ""

theorem begins_ofList {kind : TokenKind} {text : List Char} (hk : kind ≠ .string)
    (h : text <+: cs) (hne : text ≠ []) : Begins ⟨kind, String.ofList text, text.length⟩ cs := by
  refine ⟨hk, by rwa [String.toList_ofList], by rw [String.toList_ofList], fun e => hne ?_⟩
  exact String.ofList_eq_empty_iff.1 e

theorem begins_of_numeral (hc : c.isDigit = true) (h : numeral (c :: cs) = .ok l) :
    l.Begins (c :: cs) := by
  have hwhole : (c :: cs).takeWhile Char.isDigit ≠ [] := by simp [hc]
  have hcut := List.takeWhile_append_dropWhile (p := Char.isDigit) (l := c :: cs)
  unfold numeral at h
  dsimp only at h
  generalize (c :: cs).takeWhile Char.isDigit = whole at h hwhole hcut
  rw [← hcut]
  split at h
  · next d rest hrest =>
    rw [hrest]
    split at h
    · cases h
      refine begins_ofList nofun ?_ (by simp)
      exact List.prefix_append_right_inj _ |>.2 <|
        List.cons_prefix_cons.2 ⟨rfl, List.takeWhile_prefix _⟩
    · cases h
      exact begins_ofList nofun (List.prefix_append _ _) hwhole
  · next d rest _ hrest =>
    rw [hrest]
    split at h
    · split at h
      · cases h
        refine begins_ofList nofun ?_ (by simp [hwhole])
        exact List.prefix_append_right_inj _ |>.2 (List.takeWhile_prefix _)
      · cases h
    · cases h
      exact begins_ofList nofun (List.prefix_append _ _) hwhole
  · cases h
    exact begins_ofList nofun (List.prefix_append _ _) hwhole

theorem begins_word (hc : Text.startsWord c = true) : (word (c :: cs)).Begins (c :: cs) := by
  have hcont : Text.continuesWord c = true := by
    unfold Text.startsWord at hc
    unfold Text.continuesWord
    grind
  refine begins_ofList ?_ (List.takeWhile_prefix _) (by simp [hcont])
  split <;> exact TokenKind.noConfusion

theorem begins_of_sign? (h : sign? cs = some l) : l.Begins cs := by
  unfold sign? at h
  split at h <;> cases h <;> exact ⟨nofun, ⟨_, rfl⟩, rfl, by decide⟩

theorem Begins.exists_spelled (h : l.Begins (c :: cs)) (hk : l.kind.endsStatement = false) :
    ∃ chars, Spelled l.kind l.text chars ∧ chars.length = l.width ∧
      c :: cs = chars ++ cs.drop (l.width - 1) := by
  refine ⟨l.text.toList, .plain hk h.kind h.pos, h.width.symm, ?_⟩
  have hpos : 0 < l.width := by
    rw [h.width]
    exact List.length_pos_of_ne_nil fun e => h.pos (String.toList_inj.1 e)
  obtain ⟨vs, hvs⟩ := h.spelled
  have hdrop : (c :: cs).drop l.width = vs := by rw [← hvs, h.width, List.drop_left]
  obtain ⟨n, hn⟩ := Nat.exists_eq_succ_of_ne_zero (Nat.ne_of_gt hpos)
  rw [hn] at hdrop ⊢
  rw [← hvs]
  exact congrArg (l.text.toList ++ ·) hdrop.symm

/-- A token that is read spells the characters up to what is left. -/
theorem exists_spelled_of_read (h : read c cs = .ok l) : ∃ chars, Spelled l.kind l.text chars ∧
    chars.length = l.width ∧ c :: cs = chars ++ cs.drop (l.width - 1) := by
  have hk := plain_of_read h
  unfold read at h
  split at h
  · next hc =>
    obtain ⟨⟨content, width⟩, hcontent, h⟩ := Except.bind_eq_ok_iff.1 h
    cases h
    obtain ⟨body, hbody, rfl, hcs⟩ := isQuoted_of_quoted hcontent
    refine ⟨_, .string hbody, by simp, ?_⟩
    rw [hc]
    show '"' :: cs = '"' :: (body ++ ['"'] ++ cs.drop (body.length + 1))
    rw [List.append_assoc]
    exact congrArg ('"' :: ·) hcs
  split at h
  · next hd => exact (begins_of_numeral hd h).exists_spelled hk
  split at h
  · next hw =>
    cases h
    exact (begins_word hw).exists_spelled hk
  split at h
  · next hs =>
    cases h
    exact (begins_of_sign? hs).exists_spelled hk
  · cases h

end Lexeme

/-! ## Cutting a line -/

/-- The characters from a column on are cut into excerpts, blanks and a comment. -/
inductive Cut (number : Nat) : Nat → List Char → List Excerpt → Prop where
  | nil {column : Nat} : Cut number column [] []
  | blank {column : Nat} {c : Char} {cs : List Char} {es : List Excerpt}
    (hc : isBlank c = true) : Cut number (column + 1) cs es → Cut number column (c :: cs) es
  | comment {column : Nat} {cs : List Char} : Cut number column ('#' :: cs) []
  | excerpt {kind : TokenKind} {text : String} {column : Nat} {chars cs : List Char}
    {es : List Excerpt} (hs : Spelled kind text chars) :
    Cut number (column + chars.length) cs es →
      Cut number column (chars ++ cs) (⟨⟨kind, text, number, column⟩, chars⟩ :: es)

namespace Cut

variable {file : String} {number column : Nat} {cs bs : List Char} {ts : List Token}
  {es : List Excerpt} {e : Excerpt}

theorem exists_of_scan (h : Lexer.scan file number column cs = .ok ts) :
    ∃ es, es.map Excerpt.token = ts ∧ Cut number column cs es := by
  fun_induction Lexer.scan file number column cs generalizing ts with
  | case1 column =>
    cases h
    exact ⟨[], rfl, .nil⟩
  | case2 column c cs hblank ih =>
    obtain ⟨es, hes, hcut⟩ := ih h
    exact ⟨es, hes, .blank hblank hcut⟩
  | case3 column cs hblank =>
    cases h
    exact ⟨[], rfl, .comment⟩
  | case4 => cases h
  | case5 column c cs hblank hcomment l hl ih =>
    obtain ⟨rest, hrest, h⟩ := Except.bind_eq_ok_iff.1 h
    cases h
    obtain ⟨es, rfl, hcut⟩ := ih hrest
    obtain ⟨chars, hchars, hlength, hcs⟩ := Lexeme.exists_spelled_of_read hl
    rw [hcs]
    exact ⟨_, rfl, .excerpt hchars (by rwa [hlength])⟩

theorem blanks (hb : ∀ c ∈ bs, isBlank c = true)
    (h : Cut number (column + bs.length) cs es) : Cut number column (bs ++ cs) es := by
  induction bs generalizing column with
  | nil => exact h
  | cons c bs ih =>
    rw [List.length_cons, Nat.add_comm bs.length, ← Nat.add_assoc] at h
    exact .blank (hb c List.mem_cons_self) (ih (fun d hd => hb d (List.mem_cons_of_mem c hd)) h)

/-- The characters in front of an excerpt are left out, those behind it do not matter. -/
theorem stands (h : Cut number column cs es) : ∀ e ∈ es,
    Spelled e.token.kind e.token.text e.chars ∧ e.token.line = number ∧ column ≤ e.token.column ∧
      e.chars <+: cs.drop (e.token.column - column) := by
  induction h with
  | nil | comment => exact List.forall_mem_nil _
  | @blank column c cs es hc _ ih =>
    intro e he
    obtain ⟨hs, hline, hle, hprefix⟩ := ih e he
    refine ⟨hs, hline, Nat.le_of_succ_le hle, ?_⟩
    rw [show e.token.column - column = e.token.column - (column + 1) + 1 by omega]
    exact hprefix
  | @excerpt kind text column chars cs es hs _ ih =>
    intro e he
    rcases List.mem_cons.1 he with rfl | he
    · refine ⟨hs, rfl, Nat.le_refl _, ?_⟩
      rw [Nat.sub_self]
      exact List.prefix_append _ _
    · obtain ⟨hs, hline, hle, hprefix⟩ := ih e he
      refine ⟨hs, hline, by omega, ?_⟩
      have hsplit : e.token.column - column =
          chars.length + (e.token.column - (column + chars.length)) := by omega
      rw [hsplit, List.drop_length_add_append]
      exact hprefix

theorem ordered (h : Cut number column cs es) :
    es.Pairwise fun e e' => e.token.column + e.chars.length ≤ e'.token.column := by
  induction h with
  | nil | comment => exact .nil
  | blank _ _ ih => exact ih
  | excerpt _ hcut ih => exact .cons (fun e he => (hcut.stands e he).2.2.1) ih

theorem stop_le (h : Cut number column cs es) :
    ∀ e ∈ es, e.token.column + e.chars.length ≤ column + cs.length := by
  induction h with
  | nil | comment => exact List.forall_mem_nil _
  | blank _ _ ih =>
    intro e he
    have := ih e he
    rw [List.length_cons]
    omega
  | excerpt _ _ ih =>
    intro e he
    rw [List.length_append]
    rcases List.mem_cons.1 he with rfl | he
    · exact Nat.add_le_add_left (Nat.le_add_right _ _) _
    · have := ih e he
      omega

/-- The excerpt takes the character with `i` others between the column and it. -/
def Takes (e : Excerpt) (column i : Nat) : Prop :=
  e.token.column ≤ column + i ∧ column + i < e.token.column + e.chars.length

theorem rest (h : Cut number column cs es) : ∀ i c, cs[i]? = some c →
    (∃ e ∈ es, Takes e column i) ∨ isBlank c = true ∨
      ∃ k ≤ i, cs[k]? = some '#' ∧ ∀ e ∈ es, e.token.column + e.chars.length ≤ column + k := by
  induction h with
  | nil => intro i c hc; cases hc
  | comment => exact fun i c _ => .inr (.inr ⟨0, Nat.zero_le i, rfl, List.forall_mem_nil _⟩)
  | @blank column d cs es hd _ ih =>
    intro i c hc
    cases i with
    | zero =>
      cases hc
      exact .inr (.inl hd)
    | succ i =>
      have hcolumn : column + 1 + i = column + (i + 1) := by omega
      rcases ih i c hc with ⟨e, he, htakes⟩ | hblank | ⟨k, hk, hsign, hes⟩
      · refine .inl ⟨e, he, ?_⟩
        rwa [Takes, hcolumn] at htakes
      · exact .inr (.inl hblank)
      · refine .inr (.inr ⟨k + 1, Nat.succ_le_succ hk, hsign, fun e he => ?_⟩)
        have := hes e he
        omega
  | @excerpt kind text column chars cs es hs hcut ih =>
    intro i c hc
    by_cases hi : i < chars.length
    · exact .inl ⟨_, List.mem_cons_self, Nat.le_add_right column i, Nat.add_lt_add_left hi column⟩
    · obtain ⟨i, rfl⟩ := Nat.exists_eq_add_of_le (Nat.not_lt.1 hi)
      rw [List.getElem?_append_right (Nat.le_add_right _ _), Nat.add_sub_cancel_left] at hc
      rcases ih i c hc with ⟨e, he, htakes⟩ | hblank | ⟨k, hk, hsign, hes⟩
      · refine .inl ⟨e, List.mem_cons_of_mem _ he, ?_⟩
        rwa [Takes, Nat.add_assoc] at htakes
      · exact .inr (.inl hblank)
      · refine .inr (.inr ⟨chars.length + k, Nat.add_le_add_left hk _, ?_, fun e he => ?_⟩)
        · rw [List.getElem?_append_right (Nat.le_add_right _ _), Nat.add_sub_cancel_left]
          exact hsign
        · rcases List.mem_cons.1 he with rfl | he
          · show column + chars.length ≤ column + (chars.length + k)
            omega
          · have := hes e he
            omega

end Cut

/-! ## Whole lines -/

theorem Text.exists_returns (l : List Char) :
    ∃ rs, l = trimReturns l ++ rs ∧ ∀ r ∈ rs, r = '\r' := by
  refine ⟨(l.reverse.takeWhile (· == '\r')).reverse, ?_, fun r hr => ?_⟩
  · rw [trimReturns, ← List.reverse_append, List.takeWhile_append_dropWhile, List.reverse_reverse]
  · have hr := List.mem_takeWhile_imp (List.mem_reverse.1 hr)
    exact eq_of_beq hr

section

variable {file text : String} {number column : Nat} {l : List Char} {es : List Excerpt}
  {marks ts : List Token} {layout next : Lexer.Layout}

/-- A mark of layout, which is read off no characters. -/
def Excerpt.ofMark (t : Token) : Excerpt := ⟨t, []⟩

/-- A token is a mark of layout at the given place. -/
def IsMarkAt (number column : Nat) (t : Token) : Prop :=
  t.kind.endsStatement = true ∧ t.text = "" ∧ t.line = number ∧ t.column = column

theorem Lexer.isMarkAt_of_indentation {indents inner : List Nat} {width : Nat}
    (h : indentation indents width number column = some (marks, inner)) :
    ∀ t ∈ marks, IsMarkAt number column t := by
  unfold indentation at h
  dsimp only at h
  split at h
  · cases h
    simp [IsMarkAt, TokenKind.endsStatement]
  · split at h
    · cases h
      intro t ht
      rw [List.eq_of_mem_replicate ht]
      exact ⟨rfl, rfl, rfl, rfl⟩
    · cases h

theorem Lexer.isMarkAt_lineEnd (depth number column : Nat) :
    ∀ t ∈ lineEnd depth number column, IsMarkAt number column t := by
  unfold lineEnd
  split
  · simp [IsMarkAt, TokenKind.endsStatement]
  · exact List.forall_mem_nil _

/-- The blanks at the front of a line are cut off. -/
theorem Cut.line {chars : List Char}
    (h : Cut number (Lexer.contentColumn chars) (chars.dropWhile isBlank) es) :
    Cut number 1 chars es := by
  rw [Lexer.contentColumn, Nat.add_comm] at h
  rw [← List.takeWhile_append_dropWhile (p := isBlank) (l := chars)]
  exact .blanks (fun c hc => List.mem_takeWhile_imp hc) h

theorem Cut.of_silent {chars : List Char} (h : Lexer.isSilent chars = true) :
    Cut number 1 chars [] := by
  refine .line ?_
  unfold Lexer.isSilent at h
  split at h
  · next hnil =>
    rw [hnil]
    exact .nil
  · next c cs hcons =>
    rw [hcons, eq_of_beq h]
    exact .comment

/-- What is cut covers the line, up to the carriage returns at its end. -/
theorem Cut.coversLine (h : Cut number 1 (Text.trimReturns l) es) : CoversLine number l es := by
  obtain ⟨rs, hl, hrs⟩ := Text.exists_returns l
  refine ⟨fun e he => (h.stands e he).1, fun e he => ?_, ?_, fun i c hc => ?_⟩
  · obtain ⟨-, hline, hcolumn, hprefix⟩ := h.stands e he
    have hcut := List.IsPrefix.drop (List.prefix_append (Text.trimReturns l) rs) e.start
    rw [← hl] at hcut
    exact ⟨hline, hcolumn, hprefix.trans hcut⟩
  · refine h.ordered.imp_of_mem fun {e e'} he _ hle => ?_
    have := (h.stands e he).2.2.1
    simp only [Excerpt.stop, Excerpt.start]
    omega
  · by_cases hi : i < (Text.trimReturns l).length
    · have hget : (Text.trimReturns l)[i]? = some c := by
        rw [hl, List.getElem?_append_left hi] at hc
        exact hc
      rcases h.rest i c hget with ⟨e, he, htakes⟩ | hblank | ⟨k, hk, hsign, hes⟩
      · have := (h.stands e he).2.2.1
        refine .inl ⟨e, he, ?_⟩
        simp only [Takes] at htakes
        simp only [Excerpt.Holds, Excerpt.stop, Excerpt.start]
        omega
      · exact .inr (.inl hblank)
      · refine .inr (.inr (.inl ⟨k, hk, ?_, fun e he j hj hholds => ?_⟩))
        · rw [hl, List.getElem?_append_left (Nat.lt_of_le_of_lt hk hi)]
          exact hsign
        · have := hes e he
          have := (h.stands e he).2.2.1
          simp only [Excerpt.Holds, Excerpt.stop, Excerpt.start] at hholds
          omega
    · refine .inr (.inr (.inr fun r hr => hrs r ?_))
      rw [hl, List.drop_append, List.drop_eq_nil_of_le (Nat.not_lt.1 hi), List.nil_append] at hr
      exact List.mem_of_mem_drop hr

namespace IsMarkAt

variable {t t' : Token} {i : Nat}

theorem spelled (h : IsMarkAt number column t) : Spelled t.kind t.text [] := by
  rw [h.2.1]
  exact .mark h.1

theorem start_eq (h : IsMarkAt number column t) : (Excerpt.ofMark t).start = column - 1 := by
  rw [Excerpt.start, ← h.2.2.2]
  rfl

theorem stop_eq (h : IsMarkAt number column t) : (Excerpt.ofMark t).stop = column - 1 := h.start_eq

theorem not_holds (t : Token) (i : Nat) : ¬ (Excerpt.ofMark t).Holds i :=
  fun h => Nat.lt_irrefl i (Nat.lt_of_lt_of_le h.2 h.1)

theorem pairwise (h : ∀ t ∈ marks, IsMarkAt number column t) :
    (marks.map Excerpt.ofMark).Pairwise fun e e' => e.stop ≤ e'.start := by
  rw [List.pairwise_map]
  refine List.pairwise_of_forall_mem_list fun t ht t' ht' => ?_
  rw [(h t ht).stop_eq, (h t' ht').start_eq]

end IsMarkAt

/-- Marks in front of a covered line and behind it cover nothing, and change nothing. -/
theorem CoversLine.marked (h : CoversLine number l es) {front back : List Token} {first last : Nat}
    (hf : ∀ t ∈ front, IsMarkAt number first t) (hb : ∀ t ∈ back, IsMarkAt number last t)
    (hpos : 1 ≤ first) (hle : first ≤ last)
    (hes : ∀ e ∈ es, first - 1 ≤ e.start ∧ e.stop ≤ last - 1) :
    CoversLine number l (front.map .ofMark ++ es ++ back.map .ofMark) := by
  have hmem : ∀ e ∈ front.map .ofMark ++ es ++ back.map .ofMark, e ∈ es ∨
      ∃ t column, e = .ofMark t ∧ IsMarkAt number column t ∧ 1 ≤ column := by
    intro e he
    simp only [List.mem_append, List.mem_map] at he
    rcases he with (⟨t, ht, rfl⟩ | he) | ⟨t, ht, rfl⟩
    · exact .inr ⟨t, first, rfl, hf t ht, hpos⟩
    · exact .inl he
    · exact .inr ⟨t, last, rfl, hb t ht, hpos.trans hle⟩
  refine ⟨fun e he => ?_, fun e he => ?_, ?_, fun i c hc => ?_⟩
  · rcases hmem e he with he | ⟨t, column, rfl, ht, -⟩
    · exact h.spelled e he
    · exact ht.spelled
  · rcases hmem e he with he | ⟨t, column, rfl, ht, hcolumn⟩
    · exact h.stands e he
    · exact ⟨ht.2.2.1, ht.2.2.2 ▸ hcolumn, List.nil_prefix⟩
  · simp only [List.pairwise_append, List.mem_append, List.mem_map]
    refine ⟨⟨IsMarkAt.pairwise hf, h.ordered, ?_⟩, IsMarkAt.pairwise hb, ?_⟩
    · rintro _ ⟨t, ht, rfl⟩ e he
      rw [(hf t ht).stop_eq]
      exact (hes e he).1
    · rintro e (⟨t, ht, rfl⟩ | he) _ ⟨t', ht', rfl⟩
      · rw [(hf t ht).stop_eq, (hb t' ht').start_eq]
        exact Nat.sub_le_sub_right hle 1
      · rw [(hb t' ht').start_eq]
        exact (hes e he).2
  · rcases h.rest i c hc with ⟨e, he, hi⟩ | hblank | ⟨k, hk, hsign, hfree⟩ | hreturns
    · exact .inl ⟨e, List.mem_append_left _ (List.mem_append_right _ he), hi⟩
    · exact .inr (.inl hblank)
    · refine .inr (.inr (.inl ⟨k, hk, hsign, fun e he => ?_⟩))
      rcases hmem e he with he | ⟨t, column, rfl, -, -⟩
      · exact hfree e he
      · exact fun j _ => IsMarkAt.not_holds t j
    · exact .inr (.inr (.inr hreturns))

/-- The tokens of a line, with the marks around them, cover it. -/
theorem exists_coversLine (h : Lexer.readLine file number layout l = .ok (ts, next)) :
    ∃ es, es.map Excerpt.token = ts ∧ CoversLine number l es := by
  cases hs : Lexer.isSilent (Text.trimReturns l) with
  | true =>
    rw [Lexer.readLine_of_silent hs] at h
    cases h
    exact ⟨[], rfl, (Cut.of_silent hs).coversLine⟩
  | false =>
    obtain ⟨marks, inner, hm, h⟩ := Lexer.exists_of_readLine hs h
    obtain ⟨tokens, hscan, rfl, rfl⟩ := Lexer.readContent_eq_ok_iff.1 h
    obtain ⟨es, rfl, hcut⟩ := Cut.exists_of_scan hscan
    have hmarks : ∀ t ∈ marks, IsMarkAt number (Lexer.contentColumn (Text.trimReturns l)) t := by
      unfold Lexer.lineMarks? at hm
      split at hm
      · exact Lexer.isMarkAt_of_indentation hm
      · cases hm
        exact List.forall_mem_nil _
    have hlength : Lexer.contentColumn (Text.trimReturns l) ≤ (Text.trimReturns l).length + 1 :=
      Nat.succ_le_succ (List.takeWhile_prefix _).length_le
    have hpos : 1 ≤ Lexer.contentColumn (Text.trimReturns l) := Nat.le_add_left 1 _
    refine ⟨_, ?_, hcut.line.coversLine.marked hmarks (Lexer.isMarkAt_lineEnd
      ((es.map Excerpt.token).foldl Lexer.bracketDepth layout.depth) _ _)
      hpos hlength fun e he => ?_⟩
    · simp [Function.comp_def, Excerpt.ofMark]
    · have hstart := (hcut.stands e he).2.2.1
      have hstop := hcut.line.stop_le e he
      simp only [Excerpt.stop, Excerpt.start]
      omega

/-- The tokens of lines cover each of them. -/
theorem exists_coversLines {ls : List (List Char)}
    (h : Lexer.readLines file number layout ls = .ok (ts, next)) :
    ∃ lines : List (List Excerpt), lines.flatten.map Excerpt.token = ts ∧
      lines.length = ls.length ∧
      ∀ i l es, ls[i]? = some l → lines[i]? = some es → CoversLine (number + i) l es := by
  induction ls generalizing number layout ts with
  | nil =>
    cases h
    exact ⟨[], rfl, rfl, fun i l es hl => by cases hl⟩
  | cons l ls ih =>
    obtain ⟨tokens, mid, more, hl, hls, rfl⟩ := Lexer.readLines_cons_eq_ok_iff.1 h
    obtain ⟨es, rfl, hes⟩ := exists_coversLine hl
    obtain ⟨lines, rfl, hlength, hlines⟩ := ih hls
    refine ⟨es :: lines, by simp, by simp [hlength], fun i l' es' hl' hes' => ?_⟩
    cases i with
    | zero =>
      cases hl'
      cases hes'
      exact hes
    | succ i =>
      rw [Nat.add_comm i, ← Nat.add_assoc]
      exact hlines i l' es' hl' hes'

/-- The tokens of a text are those of its lines, which cover them, and the marks at its end. -/
theorem tokenize_covers (h : tokenize file text = .ok ts) :
    ∃ (lines : List (List Excerpt)) (dedents : List Token) (eof : Token),
      ts = lines.flatten.map Excerpt.token ++ dedents ++ [eof] ∧
      (∀ t ∈ dedents, t.kind = .dedent) ∧ eof.kind = .endOfFile ∧
      lines.length = (Text.splitLines text.toList).length ∧
      ∀ i l es, (Text.splitLines text.toList)[i]? = some l → lines[i]? = some es →
        CoversLine (i + 1) l es := by
  obtain ⟨tokens, indents, hlines, rfl⟩ := tokenize_eq_ok_iff.1 h
  obtain ⟨lines, rfl, hlength, hcovers⟩ := exists_coversLines hlines
  refine ⟨lines, _, _, rfl, fun t ht => ?_, rfl, hlength, fun i l es hl hes => ?_⟩
  · rw [List.eq_of_mem_replicate ht]
  · rw [Nat.add_comm]
    exact hcovers i l es hl hes

/-- The tokens of a text whose string holds an escaped quote, with a comment behind it. -/
theorem tokenize_covers_note :
    let text := "entity Note:\r\n\ttitle: \"a \\\" b\" # 4.5d\n"
    ∃ ts, tokenize "note.dsl" text = .ok ts ∧ ts.length = 11 ∧
      ∃ (lines : List (List Excerpt)) (dedents : List Token) (eof : Token),
        ts = lines.flatten.map Excerpt.token ++ dedents ++ [eof] ∧
        (∀ t ∈ dedents, t.kind = .dedent) ∧ eof.kind = .endOfFile ∧
        lines.length = (Text.splitLines text.toList).length ∧
        ∀ i l es, (Text.splitLines text.toList)[i]? = some l → lines[i]? = some es →
          CoversLine (i + 1) l es := by
  intro text
  have hread : ((tokenize "note.dsl" text).toOption.any fun ts => ts.length = 11) = true := by
    decide +kernel
  obtain ⟨ts, hts, hlength⟩ := Except.exists_eq_ok_of_any hread
  exact ⟨ts, hts, of_decide_eq_true hlength, tokenize_covers hts⟩

end

end Blueprint
