import Blueprint.Proofs.Layout
import Blueprint.Proofs.Outcome
import Blueprint.Token.Lexer

/-!
# The tokens of texts

The tokens of a text are those of its lines, read one after the other, and of the marks at its end
(`tokenize_eq_ok_iff`). They end whatever they open (`tokenize_closed`). Where a line stands in a
text only counts for the lines of its tokens (`readLines_down`).
-/

namespace Blueprint

/-! ## Lines -/

namespace Text

theorem splitLines_append_newline (cs cs' : List Char) :
    splitLines (cs ++ '\n' :: cs') = splitLines cs ++ splitLines cs' := by
  induction cs with
  | nil => rfl
  | cons c cs ih =>
    rw [List.cons_append, splitLines, splitLines, ih]
    split
    · rfl
    · cases h : splitLines cs with
      | nil => exact absurd h (splitLines_ne_nil cs)
      | cons l ls => rfl

theorem length_splitLines (cs : List Char) : (splitLines cs).length = cs.count '\n' + 1 := by
  induction cs with
  | nil => rfl
  | cons c cs ih =>
    rw [splitLines, List.count_cons]
    split
    · next h =>
      subst h
      rw [List.length_cons, ih]
      rfl
    · next h =>
      rw [beq_false_of_ne h]
      cases hs : splitLines cs with
      | nil => exact absurd hs (splitLines_ne_nil cs)
      | cons l ls =>
        rw [hs] at ih
        exact ih

/-- A text that ends its last line is cut on its own, whatever stands behind it. -/
theorem exists_splitLines_append {cs : List Char} (h : cs = [] ∨ cs.getLast? = some '\n') :
    ∃ ls, ls.length = cs.count '\n' ∧
      ∀ cs', splitLines (cs ++ cs') = ls ++ splitLines cs' := by
  rcases h with rfl | h
  · exact ⟨[], rfl, fun _ => rfl⟩
  · obtain ⟨us, rfl⟩ := List.getLast?_eq_some_iff.1 h
    refine ⟨splitLines us, ?_, fun cs' => ?_⟩
    · rw [length_splitLines, List.count_append, List.count_singleton_self]
    · rw [List.append_assoc]
      exact splitLines_append_newline us cs'

end Text

/-! ## Kinds of tokens -/

namespace Lexeme

theorem plain_of_numeral {cs : List Char} {l : Lexeme} (h : numeral cs = .ok l) :
    l.kind.endsStatement = false := by
  unfold numeral at h
  dsimp only at h
  split at h
  · split at h
    · cases h
      rfl
    · cases h
      rfl
  · split at h
    · split at h
      · cases h
        rfl
      · cases h
    · cases h
      rfl
  · cases h
    rfl

theorem plain_word (cs : List Char) : (word cs).kind.endsStatement = false := by
  unfold word
  dsimp only
  split <;> rfl

theorem plain_of_sign? {cs : List Char} {l : Lexeme} (h : sign? cs = some l) :
    l.kind.endsStatement = false := by
  unfold sign? at h
  split at h <;> cases h <;> rfl

/-- No mark of layout is read off a line. -/
theorem plain_of_read {c : Char} {cs : List Char} {l : Lexeme} (h : read c cs = .ok l) :
    l.kind.endsStatement = false := by
  unfold read at h
  split at h
  · obtain ⟨_, -, h⟩ := Except.bind_eq_ok_iff.1 h
    cases h
    rfl
  split at h
  · exact plain_of_numeral h
  split at h
  · cases h
    exact plain_word _
  split at h
  · next hs =>
    cases h
    exact plain_of_sign? hs
  · cases h

end Lexeme

/-- The token `n` lines below. -/
def Token.down (n : Nat) (t : Token) : Token := { t with line := t.line + n }

/-- The same token in a text that stands `n` lines below. Marks of layout may stand elsewhere. -/
structure Token.Below (n : Nat) (t t' : Token) : Prop where
  kind : t'.kind = t.kind
  text : t'.text = t.text
  place : t.kind.endsStatement = false → t'.line = t.line + n ∧ t'.column = t.column

theorem Token.below_down (n : Nat) (t : Token) : t.Below n (t.down n) :=
  ⟨rfl, rfl, fun _ => ⟨rfl, rfl⟩⟩

theorem Token.below_map_down (n : Nat) (ts : List Token) :
    List.Forall₂ (Token.Below n) ts (ts.map (Token.down n)) :=
  List.forall₂_map_right_iff.2 (List.forall₂_same.2 fun t _ => t.below_down n)

theorem Token.below_self {ts : List Token} : List.Forall₂ (Token.Below 0) ts ts :=
  List.forall₂_same.2 fun _ _ => ⟨rfl, rfl, fun _ => ⟨rfl, rfl⟩⟩

/-- Wherever they stand, dedents correspond to each other. -/
theorem Token.below_dedents (n k line column line' column' : Nat) :
    List.Forall₂ (Token.Below n) (List.replicate k ⟨.dedent, "", line, column⟩)
      (List.replicate k ⟨.dedent, "", line', column'⟩) := by
  induction k with
  | zero => exact .nil
  | succ k ih => exact .cons ⟨rfl, rfl, fun h => Bool.noConfusion h⟩ ih

namespace Lexer

variable {file : String} {line column : Nat} {cs text : List Char} {ts : List Token}
  {layout next : Layout}

/-! ## Single lines -/

theorem plain_of_scan (h : scan file line column cs = .ok ts) :
    ∀ t ∈ ts, t.kind.endsStatement = false := by
  fun_induction scan file line column cs generalizing ts with
  | case1 column =>
    cases h
    exact List.forall_mem_nil _
  | case2 column c cs hblank ih => exact ih h
  | case3 column cs hblank =>
    cases h
    exact List.forall_mem_nil _
  | case4 => cases h
  | case5 column c cs hblank hcomment l hl ih =>
    obtain ⟨rest, hrest, h⟩ := Except.bind_eq_ok_iff.1 h
    cases h
    intro t ht
    rcases List.mem_cons.1 ht with rfl | ht
    · exact Lexeme.plain_of_read hl
    · exact ih hrest t ht

theorem scan_down (n : Nat) (h : scan file line column cs = .ok ts) :
    scan file (line + n) column cs = .ok (ts.map (Token.down n)) := by
  fun_induction scan file line column cs generalizing ts with
  | case1 column =>
    cases h
    unfold scan
    rfl
  | case2 column c cs hblank ih =>
    unfold scan
    rw [if_pos hblank]
    exact ih h
  | case3 column cs hblank =>
    cases h
    unfold scan
    rw [if_neg hblank, if_pos rfl]
    rfl
  | case4 => cases h
  | case5 column c cs hblank hcomment l hl ih =>
    obtain ⟨rest, hrest, h⟩ := Except.bind_eq_ok_iff.1 h
    cases h
    unfold scan
    rw [if_neg hblank, if_neg hcomment, hl]
    exact Except.bind_eq_ok_iff.2 ⟨_, ih hrest, rfl⟩

/-- The column at which the content of a line starts. -/
def contentColumn (chars : List Char) : Nat := (chars.takeWhile isBlank).length + 1

/-- The marks at the front of a line, and the blocks that enclose it. Inside brackets there are
none. -/
def lineMarks? (layout : Layout) (line : Nat) (chars : List Char) :
    Option (List Token × List Nat) :=
  if layout.depth = 0 then
    indentation layout.indents (indentWidth chars) line (contentColumn chars)
  else some ([], layout.indents)

/-- The mark at the end of a line, unless brackets are open. -/
def lineEnd (depth line column : Nat) : List Token :=
  if depth = 0 then [⟨.newline, "", line, column⟩] else []

/-- The rest of a line behind its marks. -/
def readContent (file : String) (line depth : Nat) (chars : List Char) (marks : List Token)
    (indents : List Nat) : Except SyntaxError (List Token × Layout) := do
  let tokens ← scan file line (contentColumn chars) (chars.dropWhile isBlank)
  let depth := tokens.foldl bracketDepth depth
  return (marks ++ tokens ++ lineEnd depth line (chars.length + 1), ⟨indents, depth⟩)

theorem readLine_of_silent (h : isSilent (Text.trimReturns text) = true) :
    readLine file line layout text = .ok ([], layout) := by
  unfold readLine
  dsimp only
  rw [if_pos h]
  rfl

theorem readLine_of_marks {marks : List Token} {indents : List Nat}
    (hs : isSilent (Text.trimReturns text) = false)
    (hm : lineMarks? layout line (Text.trimReturns text) = some (marks, indents)) :
    readLine file line layout text =
      readContent file line layout.depth (Text.trimReturns text) marks indents := by
  unfold lineMarks? contentColumn at hm
  unfold readLine
  dsimp only
  rw [if_neg (by rw [hs]; exact Bool.false_ne_true)]
  split at hm
  · next hd =>
    rw [if_pos hd, hm]
    rfl
  · next hd =>
    cases hm
    rw [if_neg hd]
    rfl

theorem readLine_of_no_marks (hs : isSilent (Text.trimReturns text) = false)
    (hm : lineMarks? layout line (Text.trimReturns text) = none) :
    readLine file line layout text ≠ .ok (ts, next) := by
  unfold lineMarks? contentColumn at hm
  unfold readLine
  dsimp only
  rw [if_neg (by rw [hs]; exact Bool.false_ne_true)]
  split at hm
  · next hd =>
    rw [if_pos hd, hm]
    nofun
  · cases hm

theorem readContent_eq_ok_iff {depth : Nat} {chars : List Char} {marks : List Token}
    {indents : List Nat} : readContent file line depth chars marks indents = .ok (ts, next) ↔
      ∃ tokens, scan file line (contentColumn chars) (chars.dropWhile isBlank) = .ok tokens ∧
        ts = marks ++ tokens ++ lineEnd (tokens.foldl bracketDepth depth) line (chars.length + 1) ∧
        next = ⟨indents, tokens.foldl bracketDepth depth⟩ := by
  unfold readContent
  rw [Except.bind_eq_ok_iff]
  constructor
  · rintro ⟨tokens, hscan, h⟩
    cases h
    exact ⟨tokens, hscan, rfl, rfl⟩
  · rintro ⟨tokens, hscan, rfl, rfl⟩
    exact ⟨tokens, hscan, rfl⟩

/-- A line that is not silent has marks, tokens and an end. -/
theorem exists_of_readLine (hs : isSilent (Text.trimReturns text) = false)
    (h : readLine file line layout text = .ok (ts, next)) : ∃ marks indents,
      lineMarks? layout line (Text.trimReturns text) = some (marks, indents) ∧
      readContent file line layout.depth (Text.trimReturns text) marks indents =
        .ok (ts, next) := by
  cases hm : lineMarks? layout line (Text.trimReturns text) with
  | none => exact absurd h (readLine_of_no_marks hs hm)
  | some r =>
    rw [readLine_of_marks hs hm] at h
    exact ⟨_, _, rfl, h⟩

/-! ## Lines further below -/

theorem indentation_down (n : Nat) (indents : List Nat) (width line column : Nat) :
    indentation indents width (line + n) column =
      (indentation indents width line column).map fun r => (r.1.map (Token.down n), r.2) := by
  unfold indentation
  dsimp only
  split
  · rfl
  · split
    · rw [Option.map_some, List.map_replicate]
      rfl
    · rfl

theorem lineMarks?_down (n : Nat) (layout : Layout) (line : Nat) (chars : List Char) :
    lineMarks? layout (line + n) chars =
      (lineMarks? layout line chars).map fun r => (r.1.map (Token.down n), r.2) := by
  unfold lineMarks?
  split
  · exact indentation_down n ..
  · rfl

theorem foldl_bracketDepth_down (n : Nat) (ts : List Token) (depth : Nat) :
    (ts.map (Token.down n)).foldl bracketDepth depth = ts.foldl bracketDepth depth := by
  rw [List.foldl_map]
  rfl

theorem lineEnd_down (n depth line column : Nat) :
    lineEnd depth (line + n) column = (lineEnd depth line column).map (Token.down n) := by
  unfold lineEnd
  split <;> rfl

theorem readLine_down (n : Nat) (h : readLine file line layout text = .ok (ts, next)) :
    readLine file (line + n) layout text = .ok (ts.map (Token.down n), next) := by
  cases hs : isSilent (Text.trimReturns text) with
  | true =>
    rw [readLine_of_silent hs] at h ⊢
    cases h
    rfl
  | false =>
    obtain ⟨marks, indents, hm, h⟩ := exists_of_readLine hs h
    obtain ⟨tokens, hscan, rfl, rfl⟩ := readContent_eq_ok_iff.1 h
    have hm' : lineMarks? layout (line + n) (Text.trimReturns text) =
        some (marks.map (Token.down n), indents) := by
      rw [lineMarks?_down, hm]
      rfl
    rw [readLine_of_marks hs hm', readContent_eq_ok_iff]
    refine ⟨_, scan_down n hscan, ?_, ?_⟩
    · rw [foldl_bracketDepth_down, lineEnd_down, List.map_append, List.map_append]
    · rw [foldl_bracketDepth_down]

variable {ls ls' : List (List Char)} {ts' : List Token} {last : Layout}

theorem readLines_cons_eq_ok_iff {l : List Char} :
    readLines file line layout (l :: ls) = .ok (ts, last) ↔ ∃ tokens next more,
      readLine file line layout l = .ok (tokens, next) ∧
      readLines file (line + 1) next ls = .ok (more, last) ∧ ts = tokens ++ more := by
  rw [readLines, Except.bind_eq_ok_iff]
  constructor
  · rintro ⟨⟨tokens, next⟩, hl, h⟩
    obtain ⟨⟨more, last⟩, hls, h⟩ := Except.bind_eq_ok_iff.1 h
    cases h
    exact ⟨tokens, next, more, hl, hls, rfl⟩
  · rintro ⟨tokens, next, more, hl, hls, rfl⟩
    exact ⟨_, hl, Except.bind_eq_ok_iff.2 ⟨_, hls, rfl⟩⟩

theorem readLines_down (n : Nat) (h : readLines file line layout ls = .ok (ts, last)) :
    readLines file (line + n) layout ls = .ok (ts.map (Token.down n), last) := by
  induction ls generalizing line layout ts with
  | nil =>
    cases h
    rfl
  | cons l ls ih =>
    obtain ⟨tokens, next, more, hl, hls, rfl⟩ := readLines_cons_eq_ok_iff.1 h
    have hls' := ih hls
    rw [Nat.add_right_comm] at hls'
    exact readLines_cons_eq_ok_iff.2
      ⟨_, next, _, readLine_down n hl, hls', List.map_append⟩

theorem readLines_append (h : readLines file line layout ls = .ok (ts, next))
    (h' : readLines file (line + ls.length) next ls' = .ok (ts', last)) :
    readLines file line layout (ls ++ ls') = .ok (ts ++ ts', last) := by
  induction ls generalizing line layout ts with
  | nil =>
    cases h
    exact h'
  | cons l ls ih =>
    obtain ⟨tokens, mid, more, hl, hls, rfl⟩ := readLines_cons_eq_ok_iff.1 h
    rw [List.length_cons, Nat.add_comm ls.length, ← Nat.add_assoc] at h'
    exact readLines_cons_eq_ok_iff.2 ⟨_, mid, _, hl, ih hls h', List.append_assoc ..⟩

/-- An empty line at the end leaves everything as it is. -/
theorem readLines_concat_nil (h : readLines file line layout (ls ++ [[]]) = .ok (ts, last)) :
    readLines file line layout ls = .ok (ts, last) := by
  induction ls generalizing line layout ts with
  | nil =>
    obtain ⟨tokens, next, more, hl, hls, rfl⟩ := readLines_cons_eq_ok_iff.1 h
    rw [readLine_of_silent rfl] at hl
    cases hl
    cases hls
    rfl
  | cons l ls ih =>
    obtain ⟨tokens, next, more, hl, hls, rfl⟩ := readLines_cons_eq_ok_iff.1 h
    exact readLines_cons_eq_ok_iff.2 ⟨tokens, next, more, hl, ih hls, rfl⟩

/-! ## Layout -/

/-- The position between two lines. Inside brackets, a line goes on. -/
def Layout.position (l : Layout) : Position := ⟨l.indents.length, l.depth != 0⟩

section

variable {indents indents' : List Nat} {marks us : List Token} {width d n : Nat}

theorem length_leave (width : Nat) (indents : List Nat) :
    (leave width indents).1.length + (leave width indents).2 = indents.length := by
  induction indents with
  | nil => rfl
  | cons w ws ih =>
    rw [leave]
    split
    · rw [List.length_cons, ← ih]
      rfl
    · rfl

theorem closedBy_dedents {line column : Nat} (h : (⟨d, false⟩ : Position).ClosedBy us) :
    (⟨d + n, false⟩ : Position).ClosedBy
      (List.replicate n ⟨.dedent, "", line, column⟩ ++ us) := by
  induction n with
  | zero => exact h
  | succ n ih => exact .dedent rfl rfl ih

theorem closedBy_replicate (n line column : Nat) :
    (⟨n, false⟩ : Position).ClosedBy (List.replicate n ⟨.dedent, "", line, column⟩) := by
  have h : (⟨0 + n, false⟩ : Position).ClosedBy
      (List.replicate n ⟨.dedent, "", line, column⟩ ++ []) := closedBy_dedents .nil
  rwa [List.append_nil, Nat.zero_add] at h

/-- The marks at the front of a line open and close blocks. -/
theorem closedBy_indentation
    (hm : indentation indents width line column = some (marks, indents'))
    (h : (⟨indents'.length, false⟩ : Position).ClosedBy us) :
    (⟨indents.length, false⟩ : Position).ClosedBy (marks ++ us) := by
  unfold indentation at hm
  dsimp only at hm
  split at hm
  · cases hm
    exact .indent rfl rfl h
  · split at hm
    · cases hm
      rw [← length_leave width indents]
      exact closedBy_dedents h
    · cases hm

/-- The tokens of a line go on in their line. -/
theorem closedBy_plain (hts : ∀ t ∈ ts, t.kind.endsStatement = false)
    (h : (⟨d, true⟩ : Position).ClosedBy us) : (⟨d, true⟩ : Position).ClosedBy (ts ++ us) := by
  induction ts with
  | nil => exact h
  | cons t ts ih =>
    exact .plain (hts t List.mem_cons_self) (ih fun u hu => hts u (List.mem_cons_of_mem t hu))

/-- A line ends, unless brackets are open behind it. -/
theorem closedBy_lineEnd {depth : Nat} {inLine : Bool} (hd : inLine = true ∨ depth = 0)
    (h : (⟨d, depth != 0⟩ : Position).ClosedBy us) :
    (⟨d, inLine⟩ : Position).ClosedBy (lineEnd depth line column ++ us) := by
  unfold lineEnd
  by_cases hdepth : depth = 0
  · subst hdepth
    exact .newline rfl rfl h
  · obtain rfl := hd.resolve_right hdepth
    rw [if_neg hdepth]
    rw [bne_iff_ne.2 hdepth] at h
    exact h

theorem closedBy_content {depth : Nat} (hts : ∀ t ∈ ts, t.kind.endsStatement = false)
    (h : (⟨d, ts.foldl bracketDepth depth != 0⟩ : Position).ClosedBy us) :
    (⟨d, depth != 0⟩ : Position).ClosedBy
      (ts ++ (lineEnd (ts.foldl bracketDepth depth) line column ++ us)) := by
  cases ts with
  | nil =>
    refine closedBy_lineEnd ?_ h
    by_cases hdepth : depth = 0
    · exact .inr hdepth
    · exact .inl (bne_iff_ne.2 hdepth)
  | cons t ts =>
    refine .plain (hts t List.mem_cons_self) ?_
    exact closedBy_plain (fun u hu => hts u (List.mem_cons_of_mem t hu))
      (closedBy_lineEnd (.inl rfl) h)

end

/-- What ends behind a line also ends in front of it, behind the tokens of the line. -/
theorem closedBy_readLine {us : List Token} (h : readLine file line layout text = .ok (ts, next))
    (hus : next.position.ClosedBy us) : layout.position.ClosedBy (ts ++ us) := by
  cases hs : isSilent (Text.trimReturns text) with
  | true =>
    rw [readLine_of_silent hs] at h
    cases h
    exact hus
  | false =>
    obtain ⟨marks, indents, hm, h⟩ := exists_of_readLine hs h
    obtain ⟨tokens, hscan, rfl, rfl⟩ := readContent_eq_ok_iff.1 h
    have hcontent : (⟨indents.length, layout.depth != 0⟩ : Position).ClosedBy
        (tokens ++ (lineEnd (tokens.foldl bracketDepth layout.depth) line
          ((Text.trimReturns text).length + 1) ++ us)) :=
      closedBy_content (plain_of_scan hscan) hus
    rw [List.append_assoc, List.append_assoc]
    unfold Layout.position
    unfold lineMarks? at hm
    by_cases hd : layout.depth = 0
    · rw [if_pos hd] at hm
      rw [hd] at hcontent ⊢
      exact closedBy_indentation hm hcontent
    · rw [if_neg hd] at hm
      cases hm
      exact hcontent

theorem closedBy_readLines {us : List Token} (h : readLines file line layout ls = .ok (ts, last))
    (hus : last.position.ClosedBy us) : layout.position.ClosedBy (ts ++ us) := by
  induction ls generalizing line layout ts with
  | nil =>
    cases h
    exact hus
  | cons l ls ih =>
    obtain ⟨tokens, next, more, hl, hls, rfl⟩ := readLines_cons_eq_ok_iff.1 h
    rw [List.append_assoc]
    exact closedBy_readLine hl (ih hls)

/-! ## Behind open blocks -/

section

variable {indents indents' : List Nat} {marks : List Token} {width n : Nat}

theorem pos_of_indentation (hpos : ∀ w ∈ indents, 0 < w)
    (hm : indentation indents width line column = some (marks, indents')) :
    ∀ w ∈ indents', 0 < w := by
  unfold indentation at hm
  dsimp only at hm
  split at hm
  · next hw =>
    cases hm
    intro w hmem
    rcases List.mem_cons.1 hmem with rfl | hmem
    · exact Nat.zero_lt_of_lt hw
    · exact hpos w hmem
  · split at hm
    · cases hm
      rw [leave_fst]
      exact fun w hmem => hpos w (List.mem_of_mem_drop hmem)
    · cases hm

/-- Blocks stand deeper than the file itself. -/
theorem pos_of_readLine (hpos : ∀ w ∈ layout.indents, 0 < w)
    (h : readLine file line layout text = .ok (ts, next)) : ∀ w ∈ next.indents, 0 < w := by
  cases hs : isSilent (Text.trimReturns text) with
  | true =>
    rw [readLine_of_silent hs] at h
    cases h
    exact hpos
  | false =>
    obtain ⟨marks, indents, hm, h⟩ := exists_of_readLine hs h
    obtain ⟨tokens, -, -, rfl⟩ := readContent_eq_ok_iff.1 h
    unfold lineMarks? at hm
    split at hm
    · exact pos_of_indentation hpos hm
    · cases hm
      exact hpos

theorem pos_of_readLines (hpos : ∀ w ∈ layout.indents, 0 < w)
    (h : readLines file line layout ls = .ok (ts, last)) : ∀ w ∈ last.indents, 0 < w := by
  induction ls generalizing line layout ts with
  | nil =>
    cases h
    exact hpos
  | cons l ls ih =>
    obtain ⟨tokens, next, more, hl, hls, rfl⟩ := readLines_cons_eq_ok_iff.1 h
    exact ih (pos_of_readLine hpos hl) hls

theorem leave_zero (hpos : ∀ w ∈ indents, 0 < w) : leave 0 indents = ([], indents.length) := by
  induction indents with
  | nil => rfl
  | cons w ws ih =>
    rw [leave, if_pos (hpos w List.mem_cons_self),
      ih fun v hv => hpos v (List.mem_cons_of_mem w hv)]
    rfl

/-- A line that is not indented leaves all blocks. -/
theorem indentation_zero (hpos : ∀ w ∈ indents, 0 < w) (line column : Nat) :
    indentation indents 0 line column =
      some (List.replicate indents.length ⟨.dedent, "", line, column⟩, []) := by
  unfold indentation
  dsimp only
  rw [if_neg (Nat.not_lt_zero _), leave_zero hpos]
  rfl

end

end Lexer

/-! ## Texts -/

section

variable {file : String} {ts : List Token}

/-- The marks at the end of a text: of the blocks that are still open, and of the end itself. -/
def closingTokens (indents : List Nat) (line : Nat) : List Token :=
  List.replicate indents.length ⟨.dedent, "", line, 1⟩

theorem tokenize_eq_ok_iff {text : String} : tokenize file text = .ok ts ↔ ∃ tokens indents,
    Lexer.readLines file 1 {} (Text.splitLines text.toList) = .ok (tokens, ⟨indents, 0⟩) ∧
    ts = tokens ++ closingTokens indents ((Text.splitLines text.toList).length + 1) ++
      [⟨.endOfFile, "", (Text.splitLines text.toList).length + 1, 1⟩] := by
  unfold tokenize
  dsimp only
  rw [Except.bind_eq_ok_iff]
  constructor
  · rintro ⟨⟨tokens, layout⟩, hlines, h⟩
    split at h
    · cases h
    · next hd =>
      obtain ⟨indents, depth⟩ := layout
      obtain rfl : depth = 0 := Decidable.not_not.1 hd
      cases h
      exact ⟨tokens, indents, hlines, rfl⟩
  · rintro ⟨tokens, indents, hlines, rfl⟩
    exact ⟨_, hlines, rfl⟩

/-- The tokens of a text end whatever they open, and the end of the text follows them. -/
theorem tokenize_closed {text : String} (h : tokenize file text = .ok ts) :
    ∃ a f, ts = a ++ [f] ∧ f.kind = .endOfFile ∧ Position.outside.ClosedBy a := by
  obtain ⟨tokens, indents, hlines, rfl⟩ := tokenize_eq_ok_iff.1 h
  exact ⟨_, _, rfl, rfl, Lexer.closedBy_readLines hlines (Lexer.closedBy_replicate ..)⟩

end

end Blueprint
