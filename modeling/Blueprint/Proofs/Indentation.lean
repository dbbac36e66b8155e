import Blueprint.Proofs.EnclosingWidths
import Blueprint.Proofs.Lexing

/-!
# Indentation

What the lexer makes of the indentation of a text. Only its logical lines count: those that are not
silent and start outside of brackets (`logicalLines`). In front of the first token of such a line,
as many blocks are open as there are different positive widths among the least ones so far
(`Indented`). Among the texts whose lines can all be read and whose brackets are closed, exactly
those with a line that returns to no block are refused (`tokenize_indentation`).
-/

namespace Blueprint

/-! ## Marks -/

/-- The number of blocks that the tokens open. -/
def opened (ts : List Token) : Nat := ts.countP (·.kind = .indent)

/-- The number of blocks that the tokens close. -/
def closed (ts : List Token) : Nat := ts.countP (·.kind = .dedent)

section

variable {ts us vs : List Token} {t : Token}

@[simp] theorem opened_append (ts us : List Token) : opened (ts ++ us) = opened ts + opened us :=
  List.countP_append

@[simp] theorem closed_append (ts us : List Token) : closed (ts ++ us) = closed ts + closed us :=
  List.countP_append

theorem opened_cons (t : Token) (ts : List Token) :
    opened (t :: ts) = opened ts + if t.kind = .indent then 1 else 0 := by
  simp only [opened, List.countP_cons, decide_eq_true_eq]

theorem closed_cons (t : Token) (ts : List Token) :
    closed (t :: ts) = closed ts + if t.kind = .dedent then 1 else 0 := by
  simp only [closed, List.countP_cons, decide_eq_true_eq]

/-- The tokens of a line open and close nothing. -/
theorem balance_of_plain (h : ∀ t ∈ ts, t.kind.endsStatement = false) :
    opened ts = 0 ∧ closed ts = 0 := by
  have hne : ∀ k : TokenKind, k.endsStatement = true → ∀ t ∈ ts, t.kind ≠ k := by
    rintro k hk t ht rfl
    rw [h t ht] at hk
    cases hk
  unfold opened closed
  simp only [List.countP_eq_zero, decide_eq_true_eq]
  exact ⟨hne .indent rfl, hne .dedent rfl⟩

namespace Position.ClosedBy

variable {s : Position}

/-- Behind some of the tokens, what these leave open is closed by the others. -/
theorem exists_behind (h : s.ClosedBy (us ++ vs)) :
    ∃ s' : Position, s'.ClosedBy vs ∧ closed us + s'.depth = opened us + s.depth := by
  induction us generalizing s with
  | nil => exact ⟨s, h, rfl⟩
  | cons t us ih =>
    rw [List.cons_append] at h
    rw [opened_cons, closed_cons]
    cases h with
    | plain ht h =>
      obtain ⟨s', hs', hdepth⟩ := ih h
      have hi : t.kind ≠ .indent := by rintro e; rw [e] at ht; cases ht
      have hd : t.kind ≠ .dedent := by rintro e; rw [e] at ht; cases ht
      rw [if_neg hi, if_neg hd]
      exact ⟨s', hs', hdepth⟩
    | newline ht _ h =>
      obtain ⟨s', hs', hdepth⟩ := ih h
      rw [ht]
      exact ⟨s', hs', hdepth⟩
    | indent ht _ h =>
      obtain ⟨s', hs', hdepth⟩ := ih h
      rw [ht]
      refine ⟨s', hs', ?_⟩
      simp only [reduceCtorEq, ↓reduceIte] at hdepth ⊢
      omega
    | dedent ht _ h =>
      obtain ⟨s', hs', hdepth⟩ := ih h
      rw [ht]
      refine ⟨s', hs', ?_⟩
      simp only [reduceCtorEq, ↓reduceIte] at hdepth ⊢
      omega

theorem text_of_mem (h : s.ClosedBy ts) (ht : t ∈ ts) (hk : t.kind.endsStatement = true) :
    t.text = "" := by
  obtain ⟨us, vs, rfl⟩ := List.append_of_mem ht
  obtain ⟨s', hs', -⟩ := h.exists_behind
  exact hs'.text_of_endsStatement hk

/-- Up to no token more blocks are closed than open. -/
theorem closed_le (h : s.ClosedBy ts) (hus : us <+: ts) : closed us ≤ opened us + s.depth := by
  obtain ⟨vs, rfl⟩ := hus
  obtain ⟨s', -, hdepth⟩ := h.exists_behind
  omega

theorem closed_eq (h : s.ClosedBy ts) : closed ts = opened ts + s.depth := by
  rw [← List.append_nil ts] at h
  obtain ⟨s', hs', hdepth⟩ := h.exists_behind
  cases hs'
  exact hdepth

theorem forall_kind_ne_endOfFile (h : s.ClosedBy ts) : ∀ t ∈ ts, t.kind ≠ .endOfFile := by
  intro t ht
  obtain ⟨us, vs, rfl⟩ := List.append_of_mem ht
  obtain ⟨s', hs', -⟩ := h.exists_behind
  exact hs'.kind_ne_endOfFile

end Position.ClosedBy

end

namespace Lexer

/-! ## Logical lines -/

/-- A line whose indentation counts: its number and its characters. -/
structure LogicalLine where
  number : Nat
  chars : List Char
  deriving DecidableEq

namespace LogicalLine

def width (l : LogicalLine) : Nat := indentWidth l.chars

/-- The column of the first character that is no blank. -/
def column (l : LogicalLine) : Nat := contentColumn l.chars

end LogicalLine

/-- The tokens of a line that is read on its own. -/
def scanLine (file : String) (number : Nat) (chars : List Char) :
    Except SyntaxError (List Token) :=
  scan file number (contentColumn chars) (chars.dropWhile isBlank)

/-- The number of open brackets behind a line, as far as it can be read. -/
def depthBehind (file : String) (number depth : Nat) (chars : List Char) : Nat :=
  ((scanLine file number chars).toOption.getD []).foldl bracketDepth depth

/-- The number of open brackets behind lines, the first of which has the given number. -/
def bracketsBehind (file : String) (number depth : Nat) : List (List Char) → Nat
  | [] => depth
  | l :: ls =>
    bracketsBehind file (number + 1) (depthBehind file number depth (Text.trimReturns l)) ls

/-- The lines that are not silent and start outside of brackets. -/
def logicalLinesFrom (file : String) (number depth : Nat) : List (List Char) → List LogicalLine
  | [] => []
  | l :: ls =>
    let chars := Text.trimReturns l
    let lines := logicalLinesFrom file (number + 1) (depthBehind file number depth chars) ls
    if isSilent chars = false ∧ depth = 0 then ⟨number, chars⟩ :: lines else lines

/-- Every line can be read on its own. -/
def Readable (file : String) (number : Nat) (ls : List (List Char)) : Prop :=
  ∀ i l, ls[i]? = some l → ∃ ts, scanLine file (number + i) (Text.trimReturns l) = .ok ts

/-- The line at the place `i` is unmatched behind those in front of it, and behind earlier lines of
the widths `ws`. -/
def UnmatchedAt (ws : List Nat) (lines : List LogicalLine) (i : Nat) (line : LogicalLine) : Prop :=
  lines[i]? = some line ∧ Unmatched (ws ++ (lines.take i).map LogicalLine.width) line.width

/-- The tokens of one logical line: the marks of its indentation, the tokens that stand in it, of
which there is a first one, and the mark of its end. -/
structure Piece where
  marks : List Token
  first : Token
  rest : List Token
  newline : Token

namespace Piece

def tokens (p : Piece) : List Token := p.marks ++ p.first :: p.rest ++ [p.newline]

/-- The tokens are those of the line. -/
structure Of (line : LogicalLine) (p : Piece) : Prop where
  marks : ∀ t ∈ p.marks, t.kind = .indent ∨ t.kind = .dedent
  place : p.first.line = line.number ∧ p.first.column = line.column
  plain : ∀ t ∈ p.first :: p.rest, t.kind.endsStatement = false
  newline : p.newline.kind = .newline

end Piece

/-- The tokens are made up of the pieces for the logical lines, and show how deep each stands. -/
structure Indented (lines : List LogicalLine) (pieces : List Piece) (ts : List Token) : Prop where
  each : List.Forall₂ Piece.Of lines pieces
  /-- Behind the lines, the blocks that are open end, and then the file. -/
  tokens : ∃ dedents eof, ts = pieces.flatMap Piece.tokens ++ dedents ++ [eof] ∧
    (∀ t ∈ dedents, t.kind = .dedent) ∧ eof.kind = .endOfFile ∧
    ∀ t ∈ pieces.flatMap Piece.tokens ++ dedents, t.kind ≠ .endOfFile
  level : ∀ i p, pieces[i]? = some p →
    opened ((pieces.take i).flatMap Piece.tokens ++ p.marks) =
      closed ((pieces.take i).flatMap Piece.tokens ++ p.marks) +
        level ((lines.take (i + 1)).map LogicalLine.width)
  closed_le : ∀ us, us <+: ts → closed us ≤ opened us
  balanced : closed ts = opened ts

/-- The pieces stand for the lines, one behind the other, and mark their indentation. -/
inductive LaidOut : List Nat → List LogicalLine → List Piece → Prop where
  | nil {indents : List Nat} : LaidOut indents [] []
  | cons {indents inner : List Nat} {l : LogicalLine} {p : Piece} {lines : List LogicalLine}
    {pieces : List Piece} (hp : p.Of l)
    (hm : indentation indents l.width l.number l.column = some (p.marks, inner)) :
    LaidOut inner lines pieces → LaidOut indents (l :: lines) (p :: pieces)

/-- The reading of lines ends well without an unmatched one, and else at the first of them. -/
inductive Outcome (file : String) (ws : List Nat) (lines : List LogicalLine) (depth : Nat) :
    Except SyntaxError (List Token × Layout) → Prop where
  | ok {ts : List Token} {indents : List Nat} (hno : ∀ i l, ¬ UnmatchedAt ws lines i l) :
    Outcome file ws lines depth (.ok (ts, ⟨indents, depth⟩))
  | error {i : Nat} {l : LogicalLine} (hat : UnmatchedAt ws lines i l)
    (hfirst : ∀ j < i, ∀ l', ¬ UnmatchedAt ws lines j l') :
    Outcome file ws lines depth
      (.error { location := ⟨file, l.number, l.column, none⟩, fault := .unmatchedDedent })

section

variable {file : String} {number line depth column width : Nat} {ls : List (List Char)}
  {l chars : List Char} {ts marks content : List Token} {ws indents inner outer : List Nat}

theorem depthBehind_of_scanLine (h : scanLine file number chars = .ok ts) :
    depthBehind file number depth chars = ts.foldl bracketDepth depth := by
  unfold depthBehind
  rw [h]
  rfl

theorem scanLine_of_silent (h : isSilent chars = true) : scanLine file number chars = .ok [] := by
  unfold isSilent at h
  unfold scanLine
  split at h
  · next hnil =>
    rw [hnil, scan]
  · next c cs hcons =>
    rw [hcons, eq_of_beq h, scan]
    rfl

/-- The first token of a line that is not silent stands where its content starts. -/
theorem exists_first (hs : isSilent chars = false) (h : scanLine file number chars = .ok ts) :
    ∃ first rest, ts = first :: rest ∧ first.line = number ∧
      first.column = contentColumn chars := by
  unfold isSilent at hs
  unfold scanLine at h
  split at hs
  · cases hs
  · next c cs hcons =>
    have hblank : isBlank c = false := by
      have hhead := List.head?_dropWhile_not isBlank chars
      rw [hcons] at hhead
      simpa using hhead
    rw [hcons, scan, if_neg (by rw [hblank]; exact Bool.false_ne_true),
      if_neg (ne_of_beq_false hs)] at h
    split at h
    · cases h
    · obtain ⟨rest, -, h⟩ := Except.bind_eq_ok_iff.1 h
      cases h
      exact ⟨_, rest, rfl, rfl, rfl⟩

theorem logicalLinesFrom_cons_of_silent (h : isSilent (Text.trimReturns l) = true) :
    logicalLinesFrom file number depth (l :: ls) = logicalLinesFrom file (number + 1) depth ls := by
  rw [logicalLinesFrom, depthBehind_of_scanLine (scanLine_of_silent h)]
  exact if_neg fun hn => by rw [h] at hn; cases hn.1

theorem logicalLinesFrom_cons_of_depth (hd : depth ≠ 0) :
    logicalLinesFrom file number depth (l :: ls) = logicalLinesFrom file (number + 1)
      (depthBehind file number depth (Text.trimReturns l)) ls :=
  if_neg fun hn => hd hn.2

theorem logicalLinesFrom_cons_of_loud (hs : isSilent (Text.trimReturns l) = false) :
    logicalLinesFrom file number 0 (l :: ls) = ⟨number, Text.trimReturns l⟩ ::
      logicalLinesFrom file (number + 1)
        (depthBehind file number 0 (Text.trimReturns l)) ls :=
  if_pos ⟨hs, rfl⟩

theorem readLines_cons_of_silent (hl : isSilent (Text.trimReturns l) = true) (layout : Layout) :
    readLines file line layout (l :: ls) = readLines file (line + 1) layout ls := by
  rw [readLines, readLine_of_silent hl]
  change (readLines file (line + 1) layout ls >>= fun r => .ok ([] ++ r.1, r.2)) = _
  cases readLines file (line + 1) layout ls <;> rfl

/-! ## The tokens of logical lines -/

/-- The marks in front of a line make up for the blocks that it opens and leaves. -/
theorem balance_indentation (hm : indentation indents width line column = some (marks, inner)) :
    (∀ t ∈ marks, t.kind = .indent ∨ t.kind = .dedent) ∧
      indents.length + opened marks = inner.length + closed marks := by
  unfold indentation at hm
  dsimp only at hm
  split at hm
  · cases hm
    exact ⟨by simp, rfl⟩
  · split at hm
    · cases hm
      refine ⟨fun t ht => .inr (by rw [List.eq_of_mem_replicate ht]), ?_⟩
      have hlength := length_leave width indents
      simp only [opened, closed, List.countP_replicate]
      simpa using hlength.symm
    · cases hm

variable {lines : List LogicalLine} {pieces : List Piece} {i : Nat}

theorem LaidOut.forall₂ (h : LaidOut indents lines pieces) :
    List.Forall₂ Piece.Of lines pieces := by
  induction h with
  | nil => exact .nil
  | cons hp _ _ ih => exact .cons hp ih

/-- A piece opens and closes what its marks do. -/
theorem Piece.Of.balance {a : LogicalLine} {p : Piece} (h : p.Of a) :
    opened p.tokens = opened p.marks ∧ closed p.tokens = closed p.marks := by
  obtain ⟨hopened, hclosed⟩ := balance_of_plain h.plain
  unfold Piece.tokens
  simp only [opened_append, closed_append, hopened, hclosed, opened_cons, closed_cons, h.newline]
  exact ⟨rfl, rfl⟩

/-- In front of the first token of each line, as many blocks are open as it stands deep. -/
theorem LaidOut.level (h : LaidOut indents lines pieces) (henc : Encloses indents ws) (i : Nat)
    (p : Piece) (hp : pieces[i]? = some p) :
    indents.length + opened ((pieces.take i).flatMap Piece.tokens ++ p.marks) =
      closed ((pieces.take i).flatMap Piece.tokens ++ p.marks) +
        Lexer.level (ws ++ (lines.take (i + 1)).map LogicalLine.width) := by
  induction h generalizing ws i with
  | nil => cases hp
  | @cons indents inner l q lines pieces hq hm hrest ih =>
    have hinner := henc.step hm
    obtain ⟨-, hmarks⟩ := balance_indentation hm
    cases i with
    | zero =>
      obtain rfl : q = p := Option.some.inj hp
      rw [hinner.length_eq] at hmarks
      show indents.length + opened q.marks = closed q.marks + Lexer.level (ws ++ [l.width])
      omega
    | succ i =>
      have hi := ih hinner i hp
      rw [List.append_assoc] at hi
      simp only [List.take_succ_cons, List.flatMap_cons, List.map_cons, List.append_assoc,
        opened_append, closed_append, hq.balance] at hi ⊢
      simp only [List.singleton_append] at hi
      omega

/-- The tokens go on in a line and end it. -/
def ClosesLine (ts : List Token) : Prop :=
  ∃ content newline, ts = content ++ [newline] ∧
    (∀ t ∈ content, t.kind.endsStatement = false) ∧ newline.kind = .newline

theorem ClosesLine.append (hcontent : ∀ t ∈ content, t.kind.endsStatement = false)
    (h : ClosesLine ts) : ClosesLine (content ++ ts) := by
  obtain ⟨more, newline, rfl, hmore, hnewline⟩ := h
  refine ⟨content ++ more, newline, (List.append_assoc ..).symm, fun t ht => ?_, hnewline⟩
  rcases List.mem_append.1 ht with ht | ht
  · exact hcontent t ht
  · exact hmore t ht

/-- What the tokens behind a line begin with: inside brackets, the rest of the line. -/
def GoesOn (depth : Nat) (ts : List Token) : Prop :=
  (depth = 0 ∧ ts = []) ∨ (depth ≠ 0 ∧ ClosesLine ts)

theorem GoesOn.closesLine (h : GoesOn depth ts) : ClosesLine (lineEnd depth line column ++ ts) := by
  rcases h with ⟨rfl, rfl⟩ | ⟨hdepth, h⟩
  · exact ⟨[], _, rfl, List.forall_mem_nil _, rfl⟩
  · unfold lineEnd
    rw [if_neg hdepth]
    exact h

/-- A line outside of brackets, with whatever ends it, is a piece. -/
theorem exists_piece (hs : isSilent chars = false)
    (hm : indentation indents (indentWidth chars) number (contentColumn chars) =
      some (marks, inner))
    (hscan : scanLine file number chars = .ok content) (hts : ClosesLine ts) :
    ∃ p : Piece, p.Of ⟨number, chars⟩ ∧ p.marks = marks ∧ p.tokens = marks ++ content ++ ts := by
  obtain ⟨first, rest, rfl, hline, hcolumn⟩ := exists_first hs hscan
  obtain ⟨going, newline, rfl, hgoing, hnewline⟩ := hts
  refine ⟨⟨marks, first, rest ++ going, newline⟩,
    ⟨(balance_indentation hm).1, ⟨hline, hcolumn⟩, fun t ht => ?_, hnewline⟩, rfl, ?_⟩
  · have ht : t ∈ first :: rest ++ going := ht
    rcases List.mem_append.1 ht with ht | ht
    · exact plain_of_scan hscan t ht
    · exact hgoing t ht
  · simp only [Piece.tokens, List.append_assoc, List.cons_append]

/-- The tokens of lines are the rest of the line that is open at their start, and a piece for every
logical line. -/
theorem exists_laidOut (h : readLines file number ⟨indents, depth⟩ ls = .ok (ts, ⟨outer, 0⟩)) :
    ∃ lead pieces, ts = lead ++ pieces.flatMap Piece.tokens ∧ GoesOn depth lead ∧
      LaidOut indents (logicalLinesFrom file number depth ls) pieces := by
  induction ls generalizing number indents depth ts with
  | nil =>
    cases h
    exact ⟨[], [], rfl, .inl ⟨rfl, rfl⟩, .nil⟩
  | cons l ls ih =>
    obtain ⟨tokens, next, more, hl, hls, rfl⟩ := readLines_cons_eq_ok_iff.1 h
    cases hs : isSilent (Text.trimReturns l) with
    | true =>
      rw [readLine_of_silent hs] at hl
      cases hl
      rw [logicalLinesFrom_cons_of_silent hs]
      exact ih hls
    | false =>
      obtain ⟨marks, inner, hm, hl⟩ := exists_of_readLine hs hl
      obtain ⟨content, hscan, rfl, rfl⟩ := readContent_eq_ok_iff.1 hl
      obtain ⟨lead, pieces, rfl, hlead, hpieces⟩ := ih hls
      have hscan : scanLine file number (Text.trimReturns l) = .ok content := hscan
      have hclose : ClosesLine (lineEnd _ number ((Text.trimReturns l).length + 1) ++ lead) :=
        hlead.closesLine
      unfold lineMarks? at hm
      by_cases hd : depth = 0
      · subst hd
        rw [if_pos rfl] at hm
        rw [logicalLinesFrom_cons_of_loud hs, depthBehind_of_scanLine hscan]
        obtain ⟨p, hp, rfl, htokens⟩ := exists_piece hs hm hscan hclose
        refine ⟨[], p :: pieces, ?_, .inl ⟨rfl, rfl⟩, .cons hp hm hpieces⟩
        rw [List.nil_append, List.flatMap_cons, htokens]
        simp only [List.append_assoc]
      · rw [if_neg hd] at hm
        cases hm
        rw [logicalLinesFrom_cons_of_depth hd, depthBehind_of_scanLine hscan]
        refine ⟨content ++ (lineEnd _ number _ ++ lead), pieces, ?_,
          .inr ⟨hd, hclose.append (plain_of_scan hscan)⟩, hpieces⟩
        simp only [List.nil_append, List.append_assoc]

/-! ## Lines without a match -/

variable {a b : LogicalLine}

theorem unmatchedAt_cons_zero_iff :
    UnmatchedAt ws (a :: lines) 0 b ↔ a = b ∧ Unmatched ws b.width := by
  unfold UnmatchedAt
  simp

theorem unmatchedAt_cons_succ_iff :
    UnmatchedAt ws (a :: lines) (i + 1) b ↔ UnmatchedAt (ws ++ [a.width]) lines i b := by
  unfold UnmatchedAt
  simp

theorem Readable.of_cons (h : Readable file number (l :: ls)) :
    (∃ ts, scanLine file number (Text.trimReturns l) = .ok ts) ∧
      Readable file (number + 1) ls := by
  refine ⟨h 0 l rfl, fun i l' hl' => ?_⟩
  rw [Nat.add_assoc, Nat.add_comm 1 i]
  exact h (i + 1) l' hl'

namespace Outcome

variable {r : Except SyntaxError (List Token × Layout)}

/-- A first line that is matched changes nothing. -/
theorem cons (ha : ¬ Unmatched ws a.width) (h : Outcome file (ws ++ [a.width]) lines depth r) :
    Outcome file ws (a :: lines) depth r := by
  cases h with
  | ok hno =>
    refine .ok fun i l hi => ?_
    cases i with
    | zero =>
      obtain ⟨rfl, hl⟩ := unmatchedAt_cons_zero_iff.1 hi
      exact ha hl
    | succ i => exact hno i l (unmatchedAt_cons_succ_iff.1 hi)
  | @error i l hat hfirst =>
    refine .error (unmatchedAt_cons_succ_iff.2 hat) fun j hj l' hj' => ?_
    cases j with
    | zero =>
      obtain ⟨rfl, hl⟩ := unmatchedAt_cons_zero_iff.1 hj'
      exact ha hl
    | succ j => exact hfirst j (Nat.lt_of_succ_lt_succ hj) l' (unmatchedAt_cons_succ_iff.1 hj')

/-- Tokens in front are no matter. -/
theorem bind (h : Outcome file ws lines depth r) (ts : List Token) :
    Outcome file ws lines depth (r >>= fun r => .ok (ts ++ r.1, r.2)) := by
  cases h with
  | ok hno => exact .ok hno
  | error hat hfirst => exact .error hat hfirst

end Outcome

theorem readLine_of_unmatched {layout : Layout} (hs : isSilent (Text.trimReturns l) = false)
    (hm : lineMarks? layout line (Text.trimReturns l) = none) :
    readLine file line layout l = .error
      { location := ⟨file, line, contentColumn (Text.trimReturns l), none⟩
        fault := .unmatchedDedent } := by
  unfold lineMarks? contentColumn at hm
  unfold readLine
  dsimp only
  rw [if_neg (by rw [hs]; exact Bool.false_ne_true)]
  split at hm
  · next hd =>
    rw [if_pos hd, hm]
    rfl
  · cases hm

/-- Behind a line whose marks and tokens are found, the reading goes on. -/
theorem outcome_of_marks (hs : isSilent (Text.trimReturns l) = false)
    (hm : lineMarks? ⟨indents, depth⟩ number (Text.trimReturns l) = some (marks, inner))
    (hscan : scanLine file number (Text.trimReturns l) = .ok content) {brackets : Nat}
    (h : Outcome file ws lines brackets
      (readLines file (number + 1) ⟨inner, content.foldl bracketDepth depth⟩ ls)) :
    Outcome file ws lines brackets (readLines file number ⟨indents, depth⟩ (l :: ls)) := by
  rw [readLines, readLine_of_marks hs hm, readContent_eq_ok_iff.2 ⟨content, hscan, rfl, rfl⟩]
  exact h.bind _

/-- Readable lines are read up to the first that is unmatched. -/
theorem outcome_readLines (hread : Readable file number ls) (henc : Encloses indents ws) :
    Outcome file ws (logicalLinesFrom file number depth ls) (bracketsBehind file number depth ls)
      (readLines file number ⟨indents, depth⟩ ls) := by
  induction ls generalizing number indents depth ws with
  | nil => exact .ok fun i l hi => by cases hi.1
  | cons l ls ih =>
    obtain ⟨⟨content, hscan⟩, hreads⟩ := hread.of_cons
    rw [bracketsBehind, depthBehind_of_scanLine hscan]
    cases hs : isSilent (Text.trimReturns l) with
    | true =>
      have hnil : scanLine file number (Text.trimReturns l) = .ok [] := scanLine_of_silent hs
      rw [hscan] at hnil
      cases hnil
      rw [logicalLinesFrom_cons_of_silent hs, readLines, readLine_of_silent hs]
      exact (ih hreads henc).bind []
    | false =>
      by_cases hd : depth = 0
      · subst hd
        rw [logicalLinesFrom_cons_of_loud hs, depthBehind_of_scanLine hscan]
        have hmarks : lineMarks? ⟨indents, 0⟩ number (Text.trimReturns l) = indentation indents
            (indentWidth (Text.trimReturns l)) number (contentColumn (Text.trimReturns l)) :=
          if_pos rfl
        cases hm : lineMarks? ⟨indents, 0⟩ number (Text.trimReturns l) with
        | none =>
          have hun := henc.indentation_eq_none_iff.1 (hmarks.symm.trans hm)
          rw [readLines, readLine_of_unmatched hs hm]
          exact .error (unmatchedAt_cons_zero_iff.2 ⟨rfl, hun⟩) fun j hj => absurd hj j.not_lt_zero
        | some r =>
          obtain ⟨marks, inner⟩ := r
          have hm' := hmarks.symm.trans hm
          have hmatched : ¬ Unmatched ws (indentWidth (Text.trimReturns l)) := by
            intro hun
            rw [henc.indentation_eq_none_iff.2 hun] at hm'
            cases hm'
          exact (outcome_of_marks hs hm hscan (ih hreads (henc.step hm'))).cons hmatched
      · -- inside brackets, the indentation does not count
        rw [logicalLinesFrom_cons_of_depth hd, depthBehind_of_scanLine hscan]
        exact outcome_of_marks hs (if_neg hd) hscan (ih hreads henc)

end

end Lexer

/-! ## Texts -/

/-- The logical lines of a text. -/
def logicalLines (file text : String) : List Lexer.LogicalLine :=
  Lexer.logicalLinesFrom file 1 0 (Text.splitLines text.toList)

open Lexer

variable {file text : String} {ts : List Token}

/-- The tokens of a text show how deep its logical lines stand. -/
theorem exists_indented (h : tokenize file text = .ok ts) :
    ∃ pieces, Indented (logicalLines file text) pieces ts := by
  obtain ⟨tokens, eof, rfl, heof, hclosed⟩ := tokenize_closed h
  obtain ⟨read, indents, hlines, e⟩ := tokenize_eq_ok_iff.1 h
  obtain ⟨rfl, -⟩ := List.append_inj' e rfl
  obtain ⟨lead, pieces, rfl, hlead, hpieces⟩ := exists_laidOut hlines
  obtain ⟨-, rfl⟩ := hlead.resolve_right fun hn => hn.1 rfl
  rw [List.nil_append] at hclosed ⊢
  have hlast : opened [eof] = 0 ∧ closed [eof] = 0 := by
    simp [opened, closed, heof]
  have hbalanced := hclosed.closed_eq
  refine ⟨pieces, hpieces.forall₂, ⟨_, eof, rfl, ?_, heof, hclosed.forall_kind_ne_endOfFile⟩, ?_,
    ?_, ?_⟩
  · intro t ht
    rw [closingTokens] at ht
    rw [List.eq_of_mem_replicate ht]
  · intro i p hp
    have hlevel := hpieces.level .nil i p hp
    rw [List.length_nil, Nat.zero_add] at hlevel
    exact hlevel
  · intro us hus
    rcases List.prefix_concat_iff.1 hus with rfl | hus
    · rw [opened_append, closed_append, hlast.1, hlast.2, hbalanced]
      exact Nat.le_refl _
    · exact hclosed.closed_le hus
  · rw [opened_append, closed_append, hlast.1, hlast.2, hbalanced]
    rfl

/-- How the indentation of the logical lines of a text decides on its tokens. -/
theorem tokenize_indentation (file text : String) :
    (∀ ts, tokenize file text = .ok ts →
      ∃ pieces, Indented (logicalLines file text) pieces ts) ∧
    (Readable file 1 (Text.splitLines text.toList) →
      bracketsBehind file 1 0 (Text.splitLines text.toList) = 0 →
      ((∃ e, tokenize file text = .error e) ↔
        ∃ i line, UnmatchedAt [] (logicalLines file text) i line) ∧
      ∀ i line, UnmatchedAt [] (logicalLines file text) i line →
        (∀ j < i, ∀ l, ¬ UnmatchedAt [] (logicalLines file text) j l) →
        tokenize file text = .error
          { location := ⟨file, line.number, line.column, none⟩, fault := .unmatchedDedent }) := by
  refine ⟨fun ts h => exists_indented h, fun hread hclosed => ?_⟩
  have houtcome : Lexer.Outcome file [] (logicalLines file text) _ (readLines file 1 ⟨[], 0⟩ _) :=
    outcome_readLines hread Encloses.nil
  rw [hclosed] at houtcome
  generalize hr : readLines file 1 ⟨[], 0⟩ (Text.splitLines text.toList) = r at houtcome
  cases houtcome with
  | @ok ts indents hno =>
    have htokens := tokenize_eq_ok_iff.2 ⟨ts, indents, hr, rfl⟩
    refine ⟨⟨fun ⟨e, he⟩ => ?_, fun ⟨i, l, hat⟩ => absurd hat (hno i l)⟩,
      fun i l hat => absurd hat (hno i l)⟩
    rw [htokens] at he
    cases he
  | @error i l hat hfirst =>
    have herror : tokenize file text = .error
        { location := ⟨file, l.number, l.column, none⟩, fault := .unmatchedDedent } := by
      unfold tokenize
      dsimp only
      rw [hr]
      rfl
    refine ⟨⟨fun _ => ⟨i, l, hat⟩, fun _ => ⟨_, herror⟩⟩, fun i' l' hat' hfirst' => ?_⟩
    -- there is only one first line
    obtain rfl : i' = i := by
      rcases Nat.lt_trichotomy i' i with hlt | heq | hlt
      · exact absurd hat' (hfirst i' hlt l')
      · exact heq
      · exact absurd hat (hfirst' i hlt l)
    obtain rfl : l = l' := Option.some.inj (hat.1.symm.trans hat'.1)
    exact herror

/-- A text that can be read line by line is refused at its third line, which returns to no block. -/
theorem tokenize_indentation_note :
    let text := "entity Note:\n    text: string\n  done: bool\n"
    Readable "note.dsl" 1 (Text.splitLines text.toList) ∧
      bracketsBehind "note.dsl" 1 0 (Text.splitLines text.toList) = 0 ∧
      UnmatchedAt [] (logicalLines "note.dsl" text) 2 ⟨3, "  done: bool".toList⟩ ∧
      tokenize "note.dsl" text = .error
        { location := ⟨"note.dsl", 3, 3, none⟩, fault := .unmatchedDedent } := by
  intro text
  have hlines : logicalLines "note.dsl" text = [⟨1, "entity Note:".toList⟩,
      ⟨2, "    text: string".toList⟩, ⟨3, "  done: bool".toList⟩] := by decide +kernel
  have hread : Readable "note.dsl" 1 (Text.splitLines text.toList) := by
    have hlength : (Text.splitLines text.toList).length = 4 := by decide +kernel
    have hscan : ∀ i < 4, ((Text.splitLines text.toList)[i]?.all fun l =>
        (scanLine "note.dsl" (1 + i) (Text.trimReturns l)).toOption.any fun _ => true) = true := by
      decide +kernel
    intro i l hl
    obtain ⟨hi, -⟩ := List.getElem?_eq_some_iff.1 hl
    have hline := hscan i (hlength ▸ hi)
    rw [hl, Option.all_some] at hline
    exact (Except.exists_eq_ok_of_any hline).imp fun _ => And.left
  have hclosed : bracketsBehind "note.dsl" 1 0 (Text.splitLines text.toList) = 0 := by
    decide +kernel
  have hat : UnmatchedAt [] (logicalLines "note.dsl" text) 2 ⟨3, "  done: bool".toList⟩ := by
    rw [hlines]
    exact ⟨rfl, 4, by decide +kernel, by decide +kernel, by decide +kernel, by decide +kernel⟩
  have hfirst : ∀ j < 2, ∀ l, ¬ UnmatchedAt [] (logicalLines "note.dsl" text) j l := by
    rw [hlines]
    rintro j hj l ⟨hl, v, hv, hlt, -⟩
    obtain rfl | rfl : j = 0 ∨ j = 1 := by omega
    · cases hv
    · cases hl
      cases hv
      exact absurd hlt (by decide +kernel)
  exact ⟨hread, hclosed, hat,
    ((tokenize_indentation "note.dsl" text).2 hread hclosed).2 2 _ hat hfirst⟩

end Blueprint
