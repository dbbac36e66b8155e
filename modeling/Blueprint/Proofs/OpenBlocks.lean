import Blueprint.Proofs.Indentation

/-!
# Lines inside of blocks

Lines that stand inside of a block are read as they are in a text in which no other block is open,
up to the marks in front of the first of them (`readsTo_iff_of_leadsTo`, `readsTo_iff_inner`). The
blocks around them stay open (`readLines_within`). So a text can be taken apart where its logical
lines begin (`exists_lines_append`, `exists_logicalLine`) and put together again. In particular, the
tokens of a text behind another one are those of both, up to their places (`tokenize_append`).
-/

namespace Blueprint

namespace Lexer

variable {file : String} {line depth column width bottom : Nat} {ls ls' : List (List Char)}
  {l : List Char} {ts us : List Token} {indents base inner ws : List Nat} {last : Layout}

/-! ## Parts of a text -/

theorem readLines_append_iff : readLines file line ⟨indents, depth⟩ (ls ++ ls') = .ok (ts, last) ↔
    ∃ us mid vs, readLines file line ⟨indents, depth⟩ ls = .ok (us, mid) ∧
      readLines file (line + ls.length) mid ls' = .ok (vs, last) ∧ ts = us ++ vs := by
  constructor
  · intro h
    induction ls generalizing line indents depth ts with
    | nil => exact ⟨[], _, ts, rfl, h, rfl⟩
    | cons l ls ih =>
      obtain ⟨tokens, next, more, hl, hls, rfl⟩ := readLines_cons_eq_ok_iff.1 h
      obtain ⟨us, mid, vs, hus, hvs, rfl⟩ := ih hls
      refine ⟨tokens ++ us, mid, vs, readLines_cons_eq_ok_iff.2 ⟨_, _, _, hl, hus, rfl⟩, ?_,
        (List.append_assoc ..).symm⟩
      rwa [List.length_cons, Nat.add_comm ls.length, ← Nat.add_assoc]
  · rintro ⟨us, mid, vs, hus, hvs, rfl⟩
    exact readLines_append hus hvs

theorem logicalLinesFrom_append : logicalLinesFrom file line depth (ls ++ ls') =
    logicalLinesFrom file line depth ls ++ logicalLinesFrom file (line + ls.length)
      (bracketsBehind file line depth ls) ls' := by
  induction ls generalizing line depth with
  | nil => rfl
  | cons l ls ih =>
    rw [List.cons_append, logicalLinesFrom, logicalLinesFrom, ih, bracketsBehind, List.length_cons,
      Nat.add_comm ls.length, ← Nat.add_assoc]
    split <;> rfl

/-- How many brackets are open behind lines that are read. -/
theorem depth_of_readLine {next : Layout}
    (h : readLine file line ⟨indents, depth⟩ l = .ok (ts, next)) :
    next.depth = depthBehind file line depth (Text.trimReturns l) := by
  cases hs : isSilent (Text.trimReturns l) with
  | true =>
    rw [readLine_of_silent hs] at h
    cases h
    exact (depthBehind_of_scanLine (scanLine_of_silent hs)).symm
  | false =>
    obtain ⟨marks, inner, -, h⟩ := exists_of_readLine hs h
    obtain ⟨tokens, hscan, -, rfl⟩ := readContent_eq_ok_iff.1 h
    exact (depthBehind_of_scanLine hscan).symm

theorem depth_of_readLines (h : readLines file line ⟨indents, depth⟩ ls = .ok (ts, last)) :
    last.depth = bracketsBehind file line depth ls := by
  induction ls generalizing line indents depth ts with
  | nil =>
    cases h
    rfl
  | cons l ls ih =>
    obtain ⟨tokens, ⟨inner, d⟩, more, hl, hls, rfl⟩ := readLines_cons_eq_ok_iff.1 h
    have hd : d = _ := depth_of_readLine hl
    rw [ih hls, hd]
    rfl

/-- Lines without a logical one leave the blocks as they are. -/
theorem indents_of_readLines (hnone : logicalLinesFrom file line depth ls = [])
    (h : readLines file line ⟨indents, depth⟩ ls = .ok (ts, last)) : last.indents = indents := by
  induction ls generalizing line indents depth ts with
  | nil =>
    cases h
    rfl
  | cons l ls ih =>
    obtain ⟨tokens, ⟨inner, d⟩, more, hl, hls, rfl⟩ := readLines_cons_eq_ok_iff.1 h
    cases hs : isSilent (Text.trimReturns l) with
    | true =>
      rw [readLine_of_silent hs] at hl
      cases hl
      rw [logicalLinesFrom_cons_of_silent hs] at hnone
      exact ih hnone hls
    | false =>
      by_cases hd : depth = 0
      · subst hd
        rw [logicalLinesFrom_cons_of_loud hs] at hnone
        cases hnone
      · rw [logicalLinesFrom_cons_of_depth hd, ← depth_of_readLine hl] at hnone
        obtain ⟨marks, inner', hm, hl⟩ := exists_of_readLine hs hl
        obtain ⟨content, -, -, e⟩ := readContent_eq_ok_iff.1 hl
        unfold lineMarks? at hm
        rw [if_neg hd] at hm
        cases hm
        cases e
        exact ih hnone hls

/-- Outside of brackets, such lines have no tokens. -/
theorem readLines_of_no_lines (hnone : logicalLinesFrom file line 0 ls = []) :
    readLines file line ⟨indents, 0⟩ ls = .ok ([], ⟨indents, 0⟩) := by
  induction ls generalizing line with
  | nil => rfl
  | cons l ls ih =>
    cases hs : isSilent (Text.trimReturns l) with
    | true =>
      rw [logicalLinesFrom_cons_of_silent hs] at hnone
      exact readLines_cons_eq_ok_iff.2 ⟨_, _, _, readLine_of_silent hs, ih hnone, rfl⟩
    | false =>
      rw [logicalLinesFrom_cons_of_loud hs] at hnone
      cases hnone

variable {lines more : List LogicalLine} {first : LogicalLine}

/-- Lines are cut in front of a logical one. -/
theorem exists_lines_append (h : logicalLinesFrom file line depth ls = lines ++ first :: more) :
    ∃ ls₁ ls₂, ls = ls₁ ++ ls₂ ∧ logicalLinesFrom file line depth ls₁ = lines ∧
      bracketsBehind file line depth ls₁ = 0 ∧
      logicalLinesFrom file (line + ls₁.length) 0 ls₂ = first :: more := by
  induction ls generalizing line depth lines with
  | nil => exact absurd h.symm (List.append_ne_nil_of_right_ne_nil _ (List.cons_ne_nil _ _))
  | cons l ls ih =>
    by_cases hcut : lines = [] ∧ isSilent (Text.trimReturns l) = false ∧ depth = 0
    · obtain ⟨rfl, -, rfl⟩ := hcut
      exact ⟨[], l :: ls, rfl, rfl, rfl, h⟩
    · -- the line belongs to the first part
      obtain ⟨lines', hlines, h'⟩ : ∃ lines', (∀ ls₁, logicalLinesFrom file (line + 1)
          (depthBehind file line depth (Text.trimReturns l)) ls₁ = lines' →
            logicalLinesFrom file line depth (l :: ls₁) = lines) ∧
          logicalLinesFrom file (line + 1) (depthBehind file line depth (Text.trimReturns l)) ls =
            lines' ++ first :: more := by
        by_cases hloud : isSilent (Text.trimReturns l) = false ∧ depth = 0
        · obtain ⟨hs, rfl⟩ := hloud
          rw [logicalLinesFrom_cons_of_loud hs] at h
          cases lines with
          | nil => exact absurd ⟨rfl, hs, rfl⟩ hcut
          | cons a lines =>
            obtain ⟨rfl, htail⟩ := List.cons.inj h
            exact ⟨lines, fun ls₁ e => by rw [logicalLinesFrom_cons_of_loud hs, e], htail⟩
        · rw [logicalLinesFrom, if_neg hloud] at h
          exact ⟨lines, fun ls₁ e => by rw [logicalLinesFrom, if_neg hloud, e], h⟩
      obtain ⟨ls₁, ls₂, rfl, h₁, hbrackets, h₂⟩ := ih h'
      refine ⟨l :: ls₁, ls₂, rfl, hlines ls₁ h₁, hbrackets, ?_⟩
      rwa [List.length_cons, Nat.add_comm ls₁.length, ← Nat.add_assoc]

/-- In front of the first logical line there is only the rest of the line that is open. -/
theorem exists_rest_of_line (hlines : logicalLinesFrom file line depth ls = lines)
    (h : readLines file line ⟨indents, depth⟩ ls = .ok (ts, last)) (hlast : last.depth = 0) :
    ∃ ls₁ ls₂ lead rest, ls = ls₁ ++ ls₂ ∧ GoesOn depth lead ∧ ts = lead ++ rest ∧
      readLines file line ⟨indents, depth⟩ ls₁ = .ok (lead, ⟨indents, 0⟩) ∧
      readLines file (line + ls₁.length) ⟨indents, 0⟩ ls₂ = .ok (rest, last) ∧
      logicalLinesFrom file (line + ls₁.length) 0 ls₂ = lines := by
  -- the tokens of lines without a logical one
  have hlead {ls : List (List Char)} {ts : List Token} {last : Layout}
      (hnone : logicalLinesFrom file line depth ls = [])
      (h : readLines file line ⟨indents, depth⟩ ls = .ok (ts, last)) (hlast : last.depth = 0) :
      last = ⟨indents, 0⟩ ∧ GoesOn depth ts := by
    obtain ⟨outer, d⟩ := last
    obtain rfl : d = 0 := hlast
    obtain rfl : outer = indents := indents_of_readLines hnone h
    obtain ⟨lead, pieces, rfl, hgoes, hpieces⟩ := exists_laidOut h
    rw [hnone] at hpieces
    cases hpieces
    rw [List.flatMap_nil, List.append_nil]
    exact ⟨rfl, hgoes⟩
  cases lines with
  | nil =>
    obtain ⟨rfl, hgoes⟩ := hlead hlines h hlast
    exact ⟨ls, [], ts, [], (List.append_nil ls).symm, hgoes, (List.append_nil ts).symm, h, rfl, rfl⟩
  | cons first more =>
    have hlines : logicalLinesFrom file line depth ls = [] ++ first :: more := hlines
    obtain ⟨ls₁, ls₂, rfl, hnone, hbrackets, hmore⟩ := exists_lines_append hlines
    obtain ⟨us, mid, vs, hus, hvs, rfl⟩ := readLines_append_iff.1 h
    obtain ⟨rfl, hgoes⟩ := hlead hnone hus ((depth_of_readLines hus).trans hbrackets)
    exact ⟨ls₁, ls₂, us, vs, rfl, hgoes, rfl, hus, hvs, hmore⟩

/-- The tokens of lines that begin with a logical one are the marks in front of it, its own tokens
up to the end of its line, and those of the lines behind it. -/
theorem exists_logicalLine (hlines : logicalLinesFrom file line 0 ls = first :: more)
    (h : readLines file line ⟨indents, 0⟩ ls = .ok (ts, last)) (hlast : last.depth = 0) :
    ∃ ls₁ ls₂ marks inner tokens content newline rest, ls = ls₁ ++ ls₂ ∧
      indentation indents first.width first.number first.column = some (marks, inner) ∧
      scanLine file first.number first.chars = .ok tokens ∧
      (∀ t ∈ tokens ++ content, t.kind.endsStatement = false) ∧ newline.kind = .newline ∧
      ts = marks ++ (tokens ++ content ++ [newline]) ++ rest ∧
      readLines file line ⟨indents, 0⟩ ls₁ =
        .ok (marks ++ (tokens ++ content ++ [newline]), ⟨inner, 0⟩) ∧
      readLines file (line + ls₁.length) ⟨inner, 0⟩ ls₂ = .ok (rest, last) ∧
      logicalLinesFrom file (line + ls₁.length) 0 ls₂ = more := by
  induction ls generalizing line ts with
  | nil => cases hlines
  | cons l ls ih =>
    obtain ⟨tokens, ⟨inner, d⟩, behind, hl, hls, rfl⟩ := readLines_cons_eq_ok_iff.1 h
    cases hs : isSilent (Text.trimReturns l) with
    | true =>
      rw [readLine_of_silent hs] at hl
      cases hl
      rw [logicalLinesFrom_cons_of_silent hs] at hlines
      obtain ⟨ls₁, ls₂, marks, inner, tokens, content, newline, rest, rfl, hm, hscan, hplain,
        hnewline, rfl, hfirst, hread, hmore⟩ := ih hlines hls
      rw [Nat.add_assoc, Nat.add_comm 1 ls₁.length] at hread hmore
      exact ⟨l :: ls₁, ls₂, marks, inner, tokens, content, newline, rest, rfl, hm, hscan, hplain,
        hnewline, rfl, (readLines_cons_of_silent hs _).trans hfirst, hread, hmore⟩
    | false =>
      rw [logicalLinesFrom_cons_of_loud hs, ← depth_of_readLine hl] at hlines
      obtain ⟨rfl, htail⟩ := List.cons.inj hlines
      obtain ⟨marks, inner', hm, hcontent⟩ := exists_of_readLine hs hl
      obtain ⟨content, hscan, rfl, e⟩ := readContent_eq_ok_iff.1 hcontent
      cases e
      unfold lineMarks? at hm
      rw [if_pos rfl] at hm
      obtain ⟨ls₁, ls₂, lead, rest, rfl, hgoes, rfl, hlead, hread, hmore⟩ :=
        exists_rest_of_line htail hls hlast
      obtain ⟨more, newline, hend, hplain, hnewline⟩ : ClosesLine
          (lineEnd (content.foldl bracketDepth 0) line ((Text.trimReturns l).length + 1) ++ lead) :=
        hgoes.closesLine
      rw [Nat.add_assoc, Nat.add_comm 1 ls₁.length] at hread hmore
      refine ⟨l :: ls₁, ls₂, marks, inner, content, more, newline, rest, rfl, hm, hscan, ?_,
        hnewline, ?_, readLines_cons_eq_ok_iff.2 ⟨_, _, _, hl, hlead, ?_⟩, hread, hmore⟩
      · intro t ht
        rcases List.mem_append.1 ht with ht | ht
        · exact plain_of_scan hscan t ht
        · exact hplain t ht
      · rw [List.append_assoc content, ← hend]
        simp only [List.append_assoc]
      · rw [List.append_assoc content, ← hend]
        simp only [List.append_assoc]

/-! ## Marks in front of a line -/

/-- Marks of the given classes. -/
def marksAt (line column : Nat) (kinds : List TokenKind) : List Token :=
  kinds.map (⟨·, "", line, column⟩)

theorem marksAt_replicate (line column n : Nat) (kind : TokenKind) :
    marksAt line column (List.replicate n kind) = List.replicate n ⟨kind, "", line, column⟩ :=
  List.map_replicate

/-- In front of a line of the width, marks of the classes lead from one list of enclosing blocks to
another one. -/
def LeadsTo (kinds : List TokenKind) (indents base : List Nat) (width : Nat) : Prop :=
  ∀ line column, indentation indents width line column =
    (indentation base width line column).map fun r => (marksAt line column kinds ++ r.1, r.2)

theorem indentation_self : indentation (width :: base) width line column =
    some ([], width :: base) := by
  unfold indentation leave
  dsimp only [List.head?_cons, Option.getD_some]
  rw [if_neg (Nat.lt_irrefl width), if_neg (Nat.lt_irrefl width)]
  exact if_pos rfl

/-- A deeper line opens a block. -/
theorem leadsTo_open (h : base.head?.getD 0 < width) :
    LeadsTo [.indent] base (width :: base) width := by
  intro line column
  rw [indentation_self]
  unfold indentation
  exact if_pos h

theorem leave_append (hws : ∀ w ∈ ws, width < w) :
    leave width (ws ++ base) = ((leave width base).1, (leave width base).2 + ws.length) := by
  induction ws with
  | nil => rfl
  | cons w ws ih =>
    rw [List.cons_append, leave, if_pos (hws w List.mem_cons_self),
      ih fun v hv => hws v (List.mem_cons_of_mem w hv)]
    rfl

/-- A line that stands under none of the innermost blocks closes them. -/
theorem leadsTo_inner (hws : ∀ w ∈ ws, width < w) (hbase : width ≤ base.head?.getD 0) :
    LeadsTo (List.replicate ws.length .dedent) (ws ++ base) base width := by
  intro line column
  have htop : width ≤ (ws ++ base).head?.getD 0 := by
    cases ws with
    | nil => exact hbase
    | cons w ws => exact Nat.le_of_lt (hws w List.mem_cons_self)
  rw [marksAt_replicate]
  unfold indentation
  dsimp only
  rw [if_neg (Nat.not_lt.2 htop), if_neg (Nat.not_lt.2 hbase), leave_append hws]
  dsimp only
  split
  · rw [Option.map_some, Nat.add_comm, List.replicate_add]
  · rfl

theorem readLine_eq_ok_iff {layout next : Layout} (hs : isSilent (Text.trimReturns l) = false) :
    readLine file line layout l = .ok (ts, next) ↔ ∃ marks inner,
      lineMarks? layout line (Text.trimReturns l) = some (marks, inner) ∧
      readContent file line layout.depth (Text.trimReturns l) marks inner = .ok (ts, next) :=
  ⟨exists_of_readLine hs, fun ⟨_, _, hm, h⟩ => (readLine_of_marks hs hm).trans h⟩

theorem readLine_iff_of_leadsTo {kinds : List TokenKind} {next : Layout}
    (hs : isSilent (Text.trimReturns l) = false)
    (h : LeadsTo kinds indents base (indentWidth (Text.trimReturns l))) :
    readLine file line ⟨indents, 0⟩ l = .ok (ts, next) ↔
      ∃ us, readLine file line ⟨base, 0⟩ l = .ok (us, next) ∧
        ts = marksAt line (contentColumn (Text.trimReturns l)) kinds ++ us := by
  have hmarks : lineMarks? ⟨indents, 0⟩ line (Text.trimReturns l) =
      (lineMarks? ⟨base, 0⟩ line (Text.trimReturns l)).map fun r =>
        (marksAt line (contentColumn (Text.trimReturns l)) kinds ++ r.1, r.2) := h line _
  simp only [readLine_eq_ok_iff hs, readContent_eq_ok_iff, hmarks, Option.map_eq_some_iff,
    Prod.mk.injEq]
  constructor
  · rintro ⟨_, inner, ⟨⟨marks, _⟩, hm, rfl, rfl⟩, tokens, hscan, rfl, rfl⟩
    exact ⟨_, ⟨marks, _, hm, tokens, hscan, rfl, rfl⟩, by simp only [List.append_assoc]⟩
  · rintro ⟨_, ⟨marks, inner, hm, tokens, hscan, rfl, rfl⟩, rfl⟩
    exact ⟨_, inner, ⟨⟨marks, inner⟩, hm, rfl, rfl⟩, tokens, hscan,
      by simp only [List.append_assoc], rfl⟩

/-- The marks stand in front of the first logical line. -/
theorem readLines_iff_of_leadsTo {kinds : List TokenKind}
    (hlines : logicalLinesFrom file line 0 ls = first :: more)
    (h : LeadsTo kinds indents base first.width) : ∃ line' column', ∀ ts last,
      readLines file line ⟨indents, 0⟩ ls = .ok (ts, last) ↔
        ∃ us, readLines file line ⟨base, 0⟩ ls = .ok (us, last) ∧
          ts = marksAt line' column' kinds ++ us := by
  induction ls generalizing line with
  | nil => cases hlines
  | cons l ls ih =>
    cases hs : isSilent (Text.trimReturns l) with
    | true =>
      rw [logicalLinesFrom_cons_of_silent hs] at hlines
      simp only [readLines_cons_of_silent hs]
      exact ih hlines
    | false =>
      rw [logicalLinesFrom_cons_of_loud hs] at hlines
      obtain ⟨rfl, -⟩ := List.cons.inj hlines
      refine ⟨line, contentColumn (Text.trimReturns l), fun ts last => ?_⟩
      simp only [readLines_cons_eq_ok_iff, readLine_iff_of_leadsTo hs h]
      constructor
      · rintro ⟨_, next, more, ⟨us, hus, rfl⟩, hmore, rfl⟩
        exact ⟨_, ⟨us, next, more, hus, hmore, rfl⟩, List.append_assoc ..⟩
      · rintro ⟨_, ⟨us, next, more, hus, hmore, rfl⟩, rfl⟩
        exact ⟨_, next, more, ⟨us, hus, rfl⟩, hmore, (List.append_assoc ..).symm⟩

/-! ## The rest of a text -/

/-- Behind blocks that are open, lines up to the end of a text have the tokens. -/
def ReadsTo (file : String) (line : Nat) (indents : List Nat) (ls : List (List Char)) (bottom : Nat)
    (ts : List Token) : Prop :=
  ∃ read outer, readLines file line ⟨indents, 0⟩ ls = .ok (read, ⟨outer, 0⟩) ∧
    ts = read ++ closingTokens outer bottom

theorem readsTo_append_iff (h : readLines file line ⟨indents, 0⟩ ls = .ok (us, ⟨inner, 0⟩)) :
    ReadsTo file line indents (ls ++ ls') bottom ts ↔
      ∃ vs, ReadsTo file (line + ls.length) inner ls' bottom vs ∧ ts = us ++ vs := by
  unfold ReadsTo
  simp only [readLines_append_iff, h]
  constructor
  · rintro ⟨_, outer, ⟨_, _, vs, e, hvs, rfl⟩, rfl⟩
    cases e
    exact ⟨_, ⟨vs, outer, hvs, rfl⟩, List.append_assoc ..⟩
  · rintro ⟨_, ⟨vs, outer, hvs, rfl⟩, rfl⟩
    exact ⟨_, outer, ⟨us, _, vs, rfl, hvs, rfl⟩, (List.append_assoc ..).symm⟩

theorem readsTo_iff_of_leadsTo (bottom : Nat) {kinds : List TokenKind}
    (hlines : logicalLinesFrom file line 0 ls = first :: more)
    (h : LeadsTo kinds indents base first.width) : ∃ line' column', ∀ ts,
      ReadsTo file line indents ls bottom ts ↔
        ∃ rest, ReadsTo file line base ls bottom rest ∧
          ts = marksAt line' column' kinds ++ rest := by
  obtain ⟨line', column', hiff⟩ := readLines_iff_of_leadsTo hlines h
  refine ⟨line', column', fun ts => ?_⟩
  unfold ReadsTo
  simp only [hiff]
  constructor
  · rintro ⟨_, outer, ⟨us, hus, rfl⟩, rfl⟩
    exact ⟨_, ⟨us, outer, hus, rfl⟩, List.append_assoc ..⟩
  · rintro ⟨_, ⟨us, outer, hus, rfl⟩, rfl⟩
    exact ⟨_, outer, ⟨us, hus, rfl⟩, (List.append_assoc ..).symm⟩

/-- The innermost blocks are closed in front of the first logical line, or at the end of the
text. -/
theorem readsTo_iff_inner (bottom : Nat)
    (h : ∀ l ∈ (logicalLinesFrom file line 0 ls).head?, (∀ w ∈ ws, l.width < w) ∧
      l.width ≤ base.head?.getD 0) : ∃ line' column', ∀ ts,
      ReadsTo file line (ws ++ base) ls bottom ts ↔ ∃ rest, ReadsTo file line base ls bottom rest ∧
        ts = List.replicate ws.length ⟨.dedent, "", line', column'⟩ ++ rest := by
  cases hlines : logicalLinesFrom file line 0 ls with
  | nil =>
    refine ⟨bottom, 1, fun ts => ?_⟩
    unfold ReadsTo
    simp only [readLines_of_no_lines hlines]
    have hclosing : closingTokens (ws ++ base) bottom =
        List.replicate ws.length ⟨.dedent, "", bottom, 1⟩ ++ closingTokens base bottom := by
      unfold closingTokens
      rw [List.length_append, List.replicate_add]
    constructor
    · rintro ⟨_, _, e, rfl⟩
      cases e
      exact ⟨_, ⟨[], base, rfl, rfl⟩, hclosing⟩
    · rintro ⟨_, ⟨_, _, e, rfl⟩, rfl⟩
      cases e
      exact ⟨[], _, rfl, hclosing.symm⟩
  | cons first more =>
    obtain ⟨hws, hbase⟩ := h first (by rw [hlines]; rfl)
    simpa only [marksAt_replicate] using
      readsTo_iff_of_leadsTo bottom hlines (leadsTo_inner hws hbase)

theorem ReadsTo.down {bottom : Nat} (n bottom' : Nat) (h : ReadsTo file line indents ls bottom ts) :
    ∃ ts', ReadsTo file (line + n) indents ls bottom' ts' ∧
      List.Forall₂ (Token.Below n) ts ts' := by
  obtain ⟨read, outer, hread, rfl⟩ := h
  exact ⟨_, ⟨_, outer, readLines_down n hread, rfl⟩,
    List.rel_append (Token.below_map_down n read) (Token.below_dedents ..)⟩

theorem ReadsTo.closedBy (h : ReadsTo file line indents ls bottom ts) :
    (⟨indents.length, false⟩ : Position).ClosedBy ts := by
  obtain ⟨read, outer, hread, rfl⟩ := h
  show (Layout.position ⟨indents, 0⟩).ClosedBy (read ++ closingTokens outer bottom)
  exact closedBy_readLines hread (closedBy_replicate ..)

/-- No block is opened exactly if the first line stands under none. -/
theorem ReadsTo.noIndent_iff (h : ReadsTo file line indents ls bottom ts) : NoIndent ts ↔
    ∀ l ∈ (logicalLinesFrom file line 0 ls).head?, l.width ≤ indents.head?.getD 0 := by
  obtain ⟨read, outer, hread, rfl⟩ := h
  have hdedent {n line column : Nat} :
      ∀ t ∈ List.replicate n (⟨.dedent, "", line, column⟩ : Token), t.kind ≠ .indent := by
    intro t ht
    rw [List.eq_of_mem_replicate ht]
    nofun
  cases hlines : logicalLinesFrom file line 0 ls with
  | nil =>
    rw [readLines_of_no_lines hlines] at hread
    cases hread
    rw [List.nil_append, ← List.append_nil (closingTokens ..)]
    exact iff_of_true (.append hdedent .nil) nofun
  | cons first more =>
    obtain ⟨-, -, marks, inner, tokens, content, newline, rest, -, hm, -, hplain, hnewline, rfl,
      -⟩ :=
      exists_logicalLine hlines hread rfl
    have hhead : (∀ l ∈ (first :: more).head?, l.width ≤ indents.head?.getD 0) ↔
        first.width ≤ indents.head?.getD 0 := by simp
    rw [hhead]
    unfold indentation at hm
    dsimp only at hm
    split at hm
    · next htop =>
      cases hm
      exact iff_of_false (fun h => h _ _ rfl rfl) (Nat.not_le.2 htop)
    · next htop =>
      split at hm
      · cases hm
        refine iff_of_true ?_ (Nat.not_lt.1 htop)
        rw [List.append_assoc, List.append_assoc]
        refine .append hdedent ?_
        rw [List.append_assoc]
        refine .append (fun t ht e => ?_) (.cons (by rw [hnewline]; nofun))
        have hplain := hplain t ht
        rw [e] at hplain
        cases hplain
      · cases hm

/-! ## Lines that keep blocks open -/

/-- A line of the width belongs to the innermost of the blocks. -/
def Within (base : List Nat) (width : Nat) : Prop := ∀ w ∈ 0 :: base.tail, w < width

/-- What leads from some blocks to others, inside of blocks that stay open. -/
structure Above (base ws ws' : List Nat) (s s' : Bool) (ts : List Token) : Prop where
  deeper : (∀ w ∈ ws, base.head?.getD 0 < w) → ∀ w ∈ ws', base.head?.getD 0 < w
  closedBy : ∀ more, (⟨ws'.length, s'⟩ : Position).ClosedBy more →
    (⟨ws.length, s⟩ : Position).ClosedBy (ts ++ more)

theorem indentation_within {marks : List Token} (hwidth : Within base width)
    (hm : indentation (ws ++ base) width line column = some (marks, inner)) :
    ∃ ws', inner = ws' ++ base ∧ Above base ws ws' false false marks := by
  unfold indentation at hm
  dsimp only at hm
  split at hm
  · next htop =>
    cases hm
    refine ⟨width :: ws, rfl, fun hws w hw => ?_, fun more h => .indent rfl rfl h⟩
    rcases List.mem_cons.1 hw with rfl | hw
    · cases ws with
      | nil => exact htop
      | cons w ws => exact (hws w List.mem_cons_self).trans htop
    · exact hws w hw
  · split at hm
    · next htop hmatch =>
      cases hm
      rw [leave_fst] at hmatch ⊢
      generalize (leave width (ws ++ base)).2 = n at hmatch ⊢
      by_cases hn : n ≤ ws.length
      · refine ⟨ws.drop n, List.drop_append_of_le_length hn, fun hws w hw => ?_, fun more h => ?_⟩
        · exact hws w (List.mem_of_mem_drop hw)
        · have hdedents : (⟨(ws.drop n).length + n, false⟩ : Position).ClosedBy
              (List.replicate n ⟨.dedent, "", line, column⟩ ++ more) := closedBy_dedents h
          rwa [List.length_drop, Nat.sub_add_cancel hn] at hdedents
      · -- it would stand under the innermost of the blocks
        have hlt : ((ws ++ base).drop n).head?.getD 0 < width := by
          refine hwidth _ ?_
          rw [List.drop_append, List.drop_eq_nil_of_le (by omega), List.nil_append]
          obtain ⟨k, hk⟩ : ∃ k, n - ws.length = k + 1 := ⟨n - ws.length - 1, by omega⟩
          rw [hk, ← List.drop_tail]
          cases hd : (base.tail.drop k).head? with
          | none => exact List.mem_cons_self
          | some w =>
            exact List.mem_cons_of_mem 0 (List.mem_of_mem_drop (List.mem_of_mem_head? hd))
        omega
    · cases hm

/-- The blocks stay open over lines that all belong to the innermost of them. -/
theorem readLines_within
    (hlines : ∀ l ∈ logicalLinesFrom file line depth ls, Within base l.width)
    (h : readLines file line ⟨ws ++ base, depth⟩ ls = .ok (ts, last)) :
    ∃ ws', last.indents = ws' ++ base ∧ Above base ws ws' (depth != 0) (last.depth != 0) ts := by
  induction ls generalizing line depth ws ts with
  | nil =>
    cases h
    exact ⟨ws, rfl, fun hws => hws, fun more h => h⟩
  | cons l ls ih =>
    obtain ⟨tokens, next, more, hl, hls, rfl⟩ := readLines_cons_eq_ok_iff.1 h
    cases hs : isSilent (Text.trimReturns l) with
    | true =>
      rw [readLine_of_silent hs] at hl
      cases hl
      rw [logicalLinesFrom_cons_of_silent hs] at hlines
      exact ih hlines hls
    | false =>
      obtain ⟨marks, inner, hm, hl⟩ := exists_of_readLine hs hl
      obtain ⟨content, hscan, rfl, rfl⟩ := readContent_eq_ok_iff.1 hl
      have hplain := plain_of_scan hscan
      -- the marks of the line keep the blocks open
      obtain ⟨ws₁, rfl, hmarks, hrest⟩ : ∃ ws₁, inner = ws₁ ++ base ∧
          Above base ws ws₁ (depth != 0) (depth != 0) marks ∧
          ∀ l ∈ logicalLinesFrom file (line + 1) (content.foldl bracketDepth depth) ls,
            Within base l.width := by
        have hbehind : depthBehind file line depth (Text.trimReturns l) =
            content.foldl bracketDepth depth := depthBehind_of_scanLine hscan
        unfold lineMarks? at hm
        by_cases hd : depth = 0
        · subst hd
          rw [if_pos rfl] at hm
          rw [logicalLinesFrom_cons_of_loud hs, hbehind] at hlines
          obtain ⟨ws₁, rfl, hmarks⟩ :=
            indentation_within (hlines _ List.mem_cons_self) hm
          exact ⟨ws₁, rfl, hmarks, fun l hl => hlines l (List.mem_cons_of_mem _ hl)⟩
        · rw [if_neg hd] at hm
          cases hm
          rw [logicalLinesFrom_cons_of_depth hd, hbehind] at hlines
          exact ⟨ws, rfl, ⟨fun hws => hws, fun more h => h⟩, hlines⟩
      obtain ⟨ws', hws', hmore⟩ := ih hrest hls
      refine ⟨ws', hws', fun hws => hmore.deeper (hmarks.deeper hws), fun us hus => ?_⟩
      simp only [List.append_assoc]
      exact hmarks.closedBy _ (closedBy_content hplain (hmore.closedBy us hus))

end Lexer

/-! ## Texts -/

open Lexer

section

variable {file text t₁ t₂ : String} {a a₁ a₂ : List Token} {f f₁ f₂ : Token}

/-- A text has the tokens of its lines. -/
theorem readsTo_of_tokenize (h : tokenize file text = .ok (a ++ [f])) :
    ReadsTo file 1 [] (Text.splitLines text.toList) ((Text.splitLines text.toList).length + 1)
      a := by
  obtain ⟨tokens, indents, hread, e⟩ := tokenize_eq_ok_iff.1 h
  exact ⟨tokens, indents, hread, (List.append_inj' e rfl).1⟩

theorem tokenize_of_readsTo (h : ReadsTo file 1 [] (Text.splitLines text.toList)
    ((Text.splitLines text.toList).length + 1) a) : ∃ f, f.kind = .endOfFile ∧
      tokenize file text = .ok (a ++ [f]) := by
  obtain ⟨tokens, indents, hread, rfl⟩ := h
  exact ⟨_, rfl, tokenize_eq_ok_iff.2 ⟨tokens, indents, hread, rfl⟩⟩

/-- The tokens of a text behind another one, which ends its last line, are those of both: what the
first leaves open is closed in front of the first line of the second. -/
theorem tokenize_append (hend : t₁.toList = [] ∨ t₁.toList.getLast? = some '\n')
    (h₁ : tokenize file t₁ = .ok (a₁ ++ [f₁])) (h₂ : tokenize file t₂ = .ok (a₂ ++ [f₂]))
    (hstart : NoIndent a₂) :
    ∃ b₁ b₂ f, f.kind = .endOfFile ∧ List.Forall₂ (Token.Below 0) a₁ b₁ ∧
      List.Forall₂ (Token.Below (t₁.toList.count '\n')) a₂ b₂ ∧
      tokenize file (t₁ ++ t₂) = .ok (b₁ ++ b₂ ++ [f]) := by
  obtain ⟨ls, hlength, hsplit⟩ := Text.exists_splitLines_append hend
  rw [← hlength]
  -- the lines of the first text
  obtain ⟨tokens, indents, hread, rfl⟩ := readsTo_of_tokenize h₁
  have hself := hsplit []
  rw [List.append_nil] at hself
  rw [hself] at hread
  have hread := readLines_concat_nil hread
  have hpos : ∀ w ∈ indents, 0 < w := pos_of_readLines (List.forall_mem_nil _) hread
  -- the lines of the second text, further below
  obtain ⟨b₂, hread₂, hbelow⟩ :=
    (readsTo_of_tokenize h₂).down ls.length ((Text.splitLines (t₁ ++ t₂).toList).length + 1)
  have hzero := hread₂.noIndent_iff.1 (hstart.of_forall₂ (fun _ _ h => h.kind) hbelow)
  have hclosing : ∀ l ∈ (logicalLinesFrom file (1 + ls.length) 0 (Text.splitLines t₂.toList)).head?,
      (∀ w ∈ indents, l.width < w) ∧ l.width ≤ ([] : List Nat).head?.getD 0 := fun l hl =>
    ⟨fun w hw => (hzero l hl).trans_lt (hpos w hw), hzero l hl⟩
  obtain ⟨line, column, hiff⟩ := readsTo_iff_inner _ hclosing
  rw [List.append_nil] at hiff
  have hboth := (readsTo_append_iff hread).2 ⟨_, (hiff _).2 ⟨b₂, hread₂, rfl⟩, rfl⟩
  rw [← hsplit, ← String.toList_append, ← List.append_assoc] at hboth
  obtain ⟨f, hf, hts⟩ := tokenize_of_readsTo hboth
  exact ⟨_, b₂, f, hf, List.rel_append Token.below_self (Token.below_dedents ..), hbelow, hts⟩

end

end Blueprint
