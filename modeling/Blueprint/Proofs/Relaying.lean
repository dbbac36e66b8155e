import Blueprint.Proofs.Indentation
import Mathlib.Data.List.TakeWhile
import Mathlib.Order.Monotone.Basic

/-!
# Texts laid out anew

How a text is laid out leaves its tokens alone, up to their places (`ReadAlike`): blank lines and
lines with only a comment can be put between the others (`Interspersed`), and lines can be indented
otherwise, as long as deeper ones stay deeper (`Reindented`), for instance by spaces in place of
tabs (`widenTabs`). The carriage returns of line ends change nothing at all (`withReturns`). All
four are in `tokenize_relaid`.

The first three are one: `Relaid` says of the lines of two texts what the lexer needs to read them
in step. The widths of the enclosing blocks then correspond to each other.
-/

namespace Blueprint

/-! ## Changes of layout -/

/-- What is left of a token when its place is forgotten. -/
def Token.content (t : Token) : TokenKind × String := (t.kind, t.text)

/-- The same reason, wherever it was found. -/
def SameFault (e e' : SyntaxError) : Prop := e'.fault = e.fault

/-- Both texts are refused, for the same reason, or both have tokens, of the same classes and
texts. -/
def ReadAlike : Except SyntaxError (List Token) → Except SyntaxError (List Token) → Prop :=
  Except.Alike SameFault fun ts ts' => ts'.map Token.content = ts.map Token.content

/-- Blanks, and behind them nothing or a comment. -/
def IsSilentLine (l : List Char) : Prop :=
  ∃ blanks rest, Text.trimReturns l = blanks ++ rest ∧ (∀ c ∈ blanks, isBlank c = true) ∧
    (rest = [] ∨ rest.head? = some '#')

/-- Silent lines are put between lines, in front of them or behind them. -/
inductive Interspersed : List (List Char) → List (List Char) → Prop where
  | nil : Interspersed [] []
  | keep {ls ls' : List (List Char)} (l : List Char) :
    Interspersed ls ls' → Interspersed (l :: ls) (l :: ls')
  | insert {ls ls' : List (List Char)} {l : List Char} (hl : IsSilentLine l) :
    Interspersed ls ls' → Interspersed ls (l :: ls')

/-- The characters of a text with a carriage return in front of every line feed. -/
def withReturns (cs : List Char) : List Char :=
  cs.flatMap fun c => if c = '\n' then ['\r', '\n'] else [c]

/-- The line with four spaces in place of each tab that it is indented by. -/
def widenTabs (l : List Char) : List Char :=
  (l.takeWhile isBlank).flatMap (fun c => if c = '\t' then [' ', ' ', ' ', ' '] else [c]) ++
    l.dropWhile isBlank

/-- The same line, indented by another width. -/
def Reindented (f : Nat → Nat) (l l' : List Char) : Prop :=
  l'.dropWhile isBlank = l.dropWhile isBlank ∧
    Lexer.indentWidth l' = f (Lexer.indentWidth l)

/-! ## Carriage returns -/

namespace Text

variable {l : List Char} {c : Char}

theorem trimReturns_cons (c : Char) (l : List Char) :
    trimReturns (c :: l) =
      if (trimReturns l).isEmpty then trimReturns [c] else c :: trimReturns l := by
  unfold trimReturns
  rw [List.reverse_cons, List.dropWhile_append, List.isEmpty_reverse]
  split
  · rfl
  · rw [List.reverse_append]
    rfl

theorem trimReturns_singleton (hc : c ≠ '\r') : trimReturns [c] = [c] := by
  simp [trimReturns, hc]

theorem trimReturns_cons_of_ne (hc : c ≠ '\r') (l : List Char) :
    trimReturns (c :: l) = c :: trimReturns l := by
  rw [trimReturns_cons]
  split
  · next h => rw [trimReturns_singleton hc, List.isEmpty_iff.1 h]
  · rfl

end Text

namespace Lexer

section

variable {l bs : List Char} {c : Char}

theorem ne_return_of_isBlank (hc : isBlank c = true) : c ≠ '\r' := by
  rintro rfl
  cases hc

/-- The returns at the end of a line do not touch the blanks at its front. -/
theorem trimReturns_append (hb : ∀ c ∈ bs, isBlank c = true) (l : List Char) :
    Text.trimReturns (bs ++ l) = bs ++ Text.trimReturns l := by
  induction bs with
  | nil => rfl
  | cons c bs ih =>
    have hne := ne_return_of_isBlank (hb c List.mem_cons_self)
    rw [List.cons_append, Text.trimReturns_cons_of_ne hne,
      ih fun d hd => hb d (List.mem_cons_of_mem c hd)]
    rfl

/-- Without its returns, a line starts with no other character, if any. -/
theorem isBlank_head_trimReturns (h : ∀ c, l.head? = some c → isBlank c = false) :
    ∀ c, (Text.trimReturns l).head? = some c → isBlank c = false := by
  cases l with
  | nil => exact fun c hc => by cases hc
  | cons d l =>
    intro c hc
    rw [Text.trimReturns_cons] at hc
    split at hc
    · by_cases hd : d = '\r'
      · rw [hd] at hc
        cases hc
      · rw [Text.trimReturns_singleton hd] at hc
        exact h c hc
    · exact h c hc

/-- Blanks in front of something else are all that a line is indented by. -/
theorem span_blanks (hb : ∀ c ∈ bs, isBlank c = true)
    (hl : ∀ c, l.head? = some c → isBlank c = false) :
    (bs ++ l).takeWhile isBlank = bs ∧ (bs ++ l).dropWhile isBlank = l := by
  rw [List.takeWhile_append_of_pos hb, List.dropWhile_append_of_pos hb]
  cases l with
  | nil => exact ⟨List.append_nil bs, rfl⟩
  | cons c l =>
    rw [List.takeWhile_cons, List.dropWhile_cons, hl c rfl]
    exact ⟨List.append_nil bs, rfl⟩

theorem isBlank_head_dropWhile (l : List Char) :
    ∀ c, (l.dropWhile isBlank).head? = some c → isBlank c = false := by
  intro c hc
  have hnot := List.head?_dropWhile_not isBlank l
  rw [hc] at hnot
  exact hnot

/-- The returns at the end of a line count neither for its indentation nor for what comes first
behind it. -/
theorem span_trimReturns (l : List Char) :
    (Text.trimReturns l).takeWhile isBlank = l.takeWhile isBlank ∧
      (Text.trimReturns l).dropWhile isBlank = Text.trimReturns (l.dropWhile isBlank) := by
  have hblanks : ∀ c ∈ l.takeWhile isBlank, isBlank c = true :=
    fun c hc => List.mem_takeWhile_imp hc
  have hspan := span_blanks hblanks (isBlank_head_trimReturns (isBlank_head_dropWhile l))
  rw [← trimReturns_append hblanks, List.takeWhile_append_dropWhile] at hspan
  exact hspan

end

/-! ## Changes of lines -/

/-- What a line must keep for its tokens to stay the same. -/
structure Moved (f : Nat → Nat) (l l' : List Char) : Prop where
  content : (Text.trimReturns l').dropWhile isBlank = (Text.trimReturns l).dropWhile isBlank
  width : indentWidth (Text.trimReturns l') = f (indentWidth (Text.trimReturns l))

/-- The lines of a text that is laid out anew: what they keep, and silent lines between them. -/
inductive Relaid (f : Nat → Nat) : List (List Char) → List (List Char) → Prop where
  | nil : Relaid f [] []
  | line {l l' : List Char} {ls ls' : List (List Char)} (hl : Moved f l l') :
    Relaid f ls ls' → Relaid f (l :: ls) (l' :: ls')
  | silent {l : List Char} {ls ls' : List (List Char)} (hl : isSilent (Text.trimReturns l) = true) :
    Relaid f ls ls' → Relaid f ls (l :: ls')

variable {f : Nat → Nat} {l l' : List Char} {ls ls' : List (List Char)}

theorem isSilent_of_isSilentLine (h : IsSilentLine l) : isSilent (Text.trimReturns l) = true := by
  obtain ⟨blanks, rest, e, hblanks, hrest⟩ := h
  have hhead : ∀ c, rest.head? = some c → isBlank c = false := by
    rintro c hc
    rcases hrest with rfl | hsign
    · cases hc
    · cases hsign.symm.trans hc
      rfl
  unfold isSilent
  rw [e, (span_blanks hblanks hhead).2]
  rcases hrest with rfl | hsign
  · rfl
  · obtain ⟨cs, rfl⟩ := List.head?_eq_some_iff.1 hsign
    rfl

theorem indentWidth_trimReturns (l : List Char) :
    indentWidth (Text.trimReturns l) = indentWidth l := by
  unfold indentWidth
  rw [(span_trimReturns l).1]

theorem Moved.of_reindented (h : Reindented f l l') : Moved f l l' where
  content := by rw [(span_trimReturns l).2, (span_trimReturns l').2, h.1]
  width := by rw [indentWidth_trimReturns, indentWidth_trimReturns, h.2]

theorem Relaid.of_interspersed (h : Interspersed ls ls') : Relaid id ls ls' := by
  induction h with
  | nil => exact .nil
  | keep l _ ih => exact .line ⟨rfl, rfl⟩ ih
  | insert hl _ ih => exact .silent (isSilent_of_isSilentLine hl) ih

theorem Relaid.of_forall₂ (h : List.Forall₂ (Reindented f) ls ls') : Relaid f ls ls' := by
  induction h with
  | nil => exact .nil
  | cons hl _ ih => exact .line (.of_reindented hl) ih

theorem indentWidth_cons (hc : isBlank c = true) (l : List Char) :
    indentWidth (c :: l) = cellWidth c + indentWidth l := by
  unfold indentWidth
  rw [List.takeWhile_cons_of_pos hc, List.map_cons, List.sum_cons]

theorem widenTabs_tab (l : List Char) :
    widenTabs ('\t' :: l) = ' ' :: ' ' :: ' ' :: ' ' :: widenTabs l := rfl

theorem widenTabs_blank (hc : isBlank c = true) (ht : c ≠ '\t') (l : List Char) :
    widenTabs (c :: l) = c :: widenTabs l := by
  unfold widenTabs
  rw [List.takeWhile_cons_of_pos hc, List.dropWhile_cons_of_pos hc, List.flatMap_cons, if_neg ht]
  rfl

theorem widenTabs_of_not (hc : ¬ isBlank c = true) (l : List Char) :
    widenTabs (c :: l) = c :: l := by
  unfold widenTabs
  rw [List.takeWhile_cons_of_neg hc, List.dropWhile_cons_of_neg hc]
  rfl

theorem reindented_widenTabs (l : List Char) : Reindented id l (widenTabs l) := by
  induction l with
  | nil => exact ⟨rfl, rfl⟩
  | cons c l ih =>
    obtain ⟨hdrop, hwidth⟩ := ih
    by_cases hc : isBlank c = true
    · by_cases ht : c = '\t'
      · subst ht
        rw [widenTabs_tab]
        refine ⟨hdrop, ?_⟩
        have hspaces : 4 * cellWidth ' ' = cellWidth '\t' := rfl
        rw [indentWidth_cons rfl, indentWidth_cons rfl, indentWidth_cons rfl, indentWidth_cons rfl,
          indentWidth_cons rfl, hwidth, ← hspaces]
        dsimp only [id]
        omega
      · rw [widenTabs_blank hc ht]
        refine ⟨?_, ?_⟩
        · rw [List.dropWhile_cons_of_pos hc, List.dropWhile_cons_of_pos hc, hdrop]
        · rw [indentWidth_cons hc, indentWidth_cons hc, hwidth]
          rfl
    · rw [widenTabs_of_not hc]
      exact ⟨rfl, rfl⟩

/-! ## Reading in step -/

variable {file : String} {line line' : Nat}

/-- A line has the same tokens wherever it stands. -/
theorem alike_scan (line line' column column' : Nat) (cs : List Char) :
    ReadAlike (scan file line column cs) (scan file line' column' cs) := by
  fun_induction scan file line column cs generalizing column' with
  | case1 column =>
    unfold scan
    exact .ok rfl
  | case2 column c cs hblank ih =>
    rw [scan, if_pos hblank]
    exact ih (column' + 1)
  | case3 column cs hblank =>
    rw [scan, if_neg hblank, if_pos rfl]
    exact .ok rfl
  | case4 column c cs hblank hsign fault hread =>
    rw [scan, if_neg hblank, if_neg hsign, hread]
    exact .error rfl
  | case5 column c cs hblank hsign l hread ih =>
    rw [scan, if_neg hblank, if_neg hsign, hread]
    exact (ih (column' + l.width)).bind fun rest rest' h => .ok (congrArg (_ :: ·) h)

/-- Brackets are counted by kind. -/
theorem foldl_bracketDepth_of_content {ts ts' : List Token}
    (h : ts'.map Token.content = ts.map Token.content) (depth : Nat) :
    ts'.foldl bracketDepth depth = ts.foldl bracketDepth depth := by
  have hcount : ∀ us : List Token, us.foldl bracketDepth depth =
      (us.map Token.content).foldl (fun n p => bracketDepth n ⟨p.1, p.2, 0, 0⟩) depth := by
    intro us
    rw [List.foldl_map]
    rfl
  rw [hcount, hcount, h]

theorem leave_map (hf : StrictMono f) (width : Nat) (indents : List Nat) :
    leave (f width) (indents.map f) =
      ((leave width indents).1.map f, (leave width indents).2) := by
  induction indents with
  | nil => rfl
  | cons w ws ih =>
    rw [List.map_cons, leave, leave]
    by_cases hw : width < w
    · rw [if_pos (hf hw), if_pos hw, ih]
    · rw [if_neg (mt hf.lt_iff_lt.1 hw), if_neg hw]
      rfl

theorem top_map (h0 : f 0 = 0) (indents : List Nat) :
    (indents.map f).head?.getD 0 = f (indents.head?.getD 0) := by
  cases indents with
  | nil => exact h0.symm
  | cons w ws => rfl

/-- The marks of a line, with the blocks that enclose it at other widths. -/
def SameMarks (f : Nat → Nat) (r r' : List Token × List Nat) : Prop :=
  r'.1.map Token.content = r.1.map Token.content ∧ r'.2 = r.2.map f

/-- Blocks that correspond to each other are opened, left and missed together. -/
theorem indentation_map (hf : StrictMono f) (h0 : f 0 = 0) (indents : List Nat)
    (width line column line' column' : Nat) :
    Option.Rel (SameMarks f) (indentation indents width line column)
      (indentation (indents.map f) (f width) line' column') := by
  unfold indentation
  dsimp only
  rw [top_map h0, leave_map hf, top_map h0]
  simp only [hf.lt_iff_lt, hf.injective.eq_iff]
  split
  · exact .some ⟨rfl, rfl⟩
  · split
    · refine .some ⟨?_, rfl⟩
      rw [List.map_replicate, List.map_replicate]
      rfl
    · exact .none

variable {chars chars' : List Char} {marks marks' : List Token} {indents indents' : List Nat}

theorem lineMarks?_map (hf : StrictMono f) (h0 : f 0 = 0)
    (hw : indentWidth chars' = f (indentWidth chars)) (layout : Layout) (line line' : Nat) :
    Option.Rel (SameMarks f) (lineMarks? layout line chars)
      (lineMarks? ⟨layout.indents.map f, layout.depth⟩ line' chars') := by
  unfold lineMarks?
  dsimp only
  split
  · rw [hw]
    exact indentation_map hf h0 ..
  · exact .some ⟨rfl, rfl⟩

/-- What lines leave for the next, with the enclosing blocks at other widths. -/
def SameLines (f : Nat → Nat) (r r' : List Token × Layout) : Prop :=
  r'.1.map Token.content = r.1.map Token.content ∧
    r'.2 = ⟨r.2.indents.map f, r.2.depth⟩

theorem lineEnd_content (depth line column line' column' : Nat) :
    (lineEnd depth line' column').map Token.content =
      (lineEnd depth line column).map Token.content := by
  unfold lineEnd
  split <;> rfl

theorem alike_readContent (hcontent : chars'.dropWhile isBlank = chars.dropWhile isBlank)
    (hmarks : marks'.map Token.content = marks.map Token.content)
    (hindents : indents' = indents.map f) (line line' depth : Nat) :
    Except.Alike SameFault (SameLines f) (readContent file line depth chars marks indents)
      (readContent file line' depth chars' marks' indents') := by
  unfold readContent
  rw [hcontent]
  refine (alike_scan line line' _ _ _).bind fun ts ts' hts => .ok ⟨?_, ?_⟩
  · rw [foldl_bracketDepth_of_content hts]
    simp only [List.map_append, hmarks, hts]
    rw [lineEnd_content]
  · rw [foldl_bracketDepth_of_content hts, hindents]

/-- One line of each text. -/
theorem alike_readLine (hf : StrictMono f) (h0 : f 0 = 0) (h : Moved f l l') (layout : Layout)
    (line line' : Nat) :
    Except.Alike SameFault (SameLines f) (readLine file line layout l)
      (readLine file line' ⟨layout.indents.map f, layout.depth⟩ l') := by
  have hsilent : isSilent (Text.trimReturns l') = isSilent (Text.trimReturns l) := by
    unfold isSilent
    rw [h.content]
  cases hs : isSilent (Text.trimReturns l) with
  | true =>
    rw [readLine_of_silent hs, readLine_of_silent (hsilent.trans hs)]
    exact .ok ⟨rfl, rfl⟩
  | false =>
    have hmarks := lineMarks?_map hf h0 h.width layout line line'
    generalize hm : lineMarks? layout line (Text.trimReturns l) = r,
      hm' : lineMarks? ⟨layout.indents.map f, layout.depth⟩ line' (Text.trimReturns l') = r'
      at hmarks
    cases hmarks with
    | none =>
      rw [readLine_of_unmatched hs hm, readLine_of_unmatched (hsilent.trans hs) hm']
      exact .error rfl
    | some hr =>
      rw [readLine_of_marks hs hm, readLine_of_marks (hsilent.trans hs) hm']
      exact alike_readContent h.content hr.1 hr.2 ..

/-- All lines of both texts: the induction is on the change of layout. -/
theorem alike_readLines (hf : StrictMono f) (h0 : f 0 = 0) (h : Relaid f ls ls') (layout : Layout)
    (line line' : Nat) :
    Except.Alike SameFault (SameLines f) (readLines file line layout ls)
      (readLines file line' ⟨layout.indents.map f, layout.depth⟩ ls') := by
  induction h generalizing layout line line' with
  | nil => exact .ok ⟨rfl, rfl⟩
  | line hl _ ih =>
    rw [readLines, readLines]
    refine (alike_readLine hf h0 hl layout line line').bind ?_
    rintro ⟨ts, next⟩ ⟨ts', -⟩ ⟨hts, rfl⟩
    refine (ih next (line + 1) (line' + 1)).bind ?_
    rintro ⟨more, last⟩ ⟨more', last'⟩ ⟨hmore, hlast⟩
    refine .ok ⟨?_, hlast⟩
    rw [List.map_append, List.map_append, hts, hmore]
  | silent hl _ ih =>
    rw [readLines_cons_of_silent hl]
    exact ih layout line (line' + 1)

/-- A line is read without the returns at its end. -/
theorem readLine_congr (h : Text.trimReturns l' = Text.trimReturns l) (line : Nat)
    (layout : Layout) : readLine file line layout l' = readLine file line layout l := by
  unfold readLine
  rw [h]

theorem readLines_congr (h : ls'.map Text.trimReturns = ls.map Text.trimReturns) (line : Nat)
    (layout : Layout) : readLines file line layout ls' = readLines file line layout ls := by
  induction ls generalizing ls' line layout with
  | nil => rw [List.map_eq_nil_iff.1 h]
  | cons l ls ih =>
    obtain ⟨l', ls', rfl, hl, hls⟩ := List.map_eq_cons_iff.1 h
    rw [readLines, readLines, readLine_congr hl]
    simp only [ih hls]

end Lexer

/-- With returns at their ends, the lines are the same up to these. -/
theorem Text.splitLines_withReturns (cs : List Char) :
    (splitLines (withReturns cs)).map trimReturns = (splitLines cs).map trimReturns := by
  induction cs with
  | nil => rfl
  | cons c cs ih =>
    rw [withReturns, List.flatMap_cons, ← withReturns]
    by_cases hc : c = '\n'
    · rw [hc, if_pos rfl, splitLines, if_pos rfl, List.map_cons, ← ih]
      rfl
    · rw [if_neg hc, List.singleton_append, splitLines, splitLines, if_neg hc, if_neg hc]
      cases hs : splitLines cs with
      | nil => exact absurd hs (splitLines_ne_nil cs)
      | cons l ls =>
        rw [hs] at ih
        obtain ⟨l', ls', hs', hl, hls⟩ := List.map_eq_cons_iff.1 ih
        rw [hs']
        dsimp only
        rw [List.map_cons, List.map_cons, trimReturns_cons, trimReturns_cons c l, hl, hls]

/-! ## Texts -/

open Lexer

variable {file text text' : String} {f : Nat → Nat}

/-- The blocks that are open at the end are as many, and so are the brackets. -/
theorem alike_tokenize (hf : StrictMono f) (h0 : f 0 = 0)
    (h : Relaid f (Text.splitLines text.toList) (Text.splitLines text'.toList)) :
    ReadAlike (tokenize file text) (tokenize file text') := by
  refine (alike_readLines hf h0 h {} 1 1).bind ?_
  rintro ⟨ts, layout⟩ ⟨ts', -⟩ ⟨hts, rfl⟩
  dsimp only at hts ⊢
  split
  · exact .error rfl
  · refine .ok ?_
    simp only [List.map_append, List.map_replicate, List.length_map, hts]
    rfl

/-- A text that is laid out otherwise has the same tokens or is refused for the same reason. With
other line ends, the tokens also stand where they did. -/
theorem tokenize_relaid (file text text' : String) :
    (Interspersed (Text.splitLines text.toList) (Text.splitLines text'.toList) →
      ReadAlike (tokenize file text) (tokenize file text')) ∧
    (text'.toList = withReturns text.toList → tokenize file text' = tokenize file text) ∧
    (List.Forall₂ (fun l l' => l' = l ∨ l' = widenTabs l) (Text.splitLines text.toList)
      (Text.splitLines text'.toList) → ReadAlike (tokenize file text) (tokenize file text')) ∧
    ∀ f : Nat → Nat, StrictMono f → f 0 = 0 →
      List.Forall₂ (Reindented f) (Text.splitLines text.toList) (Text.splitLines text'.toList) →
      ReadAlike (tokenize file text) (tokenize file text') := by
  refine ⟨fun h => ?silent, fun h => ?returns, fun h => ?tabs, fun f hf h0 h => ?widths⟩
  case silent => exact alike_tokenize strictMono_id rfl (.of_interspersed h)
  case returns =>
    have hlines := Text.splitLines_withReturns text.toList
    have hlength := congrArg List.length hlines
    rw [List.length_map, List.length_map] at hlength
    unfold tokenize
    dsimp only
    rw [h, readLines_congr hlines, hlength]
  case tabs =>
    refine alike_tokenize strictMono_id rfl (.of_forall₂ (h.imp fun l l' hl => ?_))
    rcases hl with rfl | rfl
    · exact ⟨rfl, rfl⟩
    · exact reindented_widenTabs l
  case widths => exact alike_tokenize hf h0 (.of_forall₂ h)

/-- Four other layouts of one text. -/
theorem tokenize_relaid_note :
    let text := "entity Note:\n\ttitle: (\n  string)\n"
    let spaced := "entity Note:\n\n\ttitle: (\n # kind\n  string)\n"
    let ended := "entity Note:\r\n\ttitle: (\r\n  string)\r\n"
    let widened := "entity Note:\n    title: (\n  string)\n"
    let deepened := "entity Note:\n\t\ttitle: (\n    string)\n"
    (Interspersed (Text.splitLines text.toList) (Text.splitLines spaced.toList) ∧
      ReadAlike (tokenize "note.dsl" text) (tokenize "note.dsl" spaced)) ∧
    (ended.toList = withReturns text.toList ∧
      tokenize "note.dsl" ended = tokenize "note.dsl" text) ∧
    (List.Forall₂ (fun l l' => l' = l ∨ l' = widenTabs l) (Text.splitLines text.toList)
        (Text.splitLines widened.toList) ∧
      ReadAlike (tokenize "note.dsl" text) (tokenize "note.dsl" widened)) ∧
    StrictMono (fun n : Nat => 2 * n) ∧
      List.Forall₂ (Reindented fun n => 2 * n) (Text.splitLines text.toList)
        (Text.splitLines deepened.toList) ∧
      ReadAlike (tokenize "note.dsl" text) (tokenize "note.dsl" deepened) := by
  intro text spaced ended widened deepened
  have hlines : Text.splitLines text.toList =
      ["entity Note:".toList, "\ttitle: (".toList, "  string)".toList, []] := by decide +kernel
  have hspaced : Interspersed (Text.splitLines text.toList) (Text.splitLines spaced.toList) := by
    have hspaces : Text.splitLines spaced.toList = ["entity Note:".toList, [],
        "\ttitle: (".toList, " # kind".toList, "  string)".toList, []] := by decide +kernel
    have hempty : IsSilentLine [] := ⟨[], [], rfl, List.forall_mem_nil _, .inl rfl⟩
    have hcomment : IsSilentLine " # kind".toList :=
      ⟨[' '], "# kind".toList, by decide +kernel, List.forall_mem_singleton.2 rfl, .inr rfl⟩
    rw [hlines, hspaces]
    exact .keep _ (.insert hempty (.keep _ (.insert hcomment (.keep _ (.keep _ .nil)))))
  have hended : ended.toList = withReturns text.toList := by decide +kernel
  have hwidened : List.Forall₂ (fun l l' => l' = l ∨ l' = widenTabs l)
      (Text.splitLines text.toList) (Text.splitLines widened.toList) := by
    have hwide : Text.splitLines widened.toList =
        ["entity Note:".toList, "    title: (".toList, "  string)".toList, []] := by decide +kernel
    rw [hlines, hwide]
    exact .cons (.inl rfl) (.cons (.inr (by decide +kernel)) (.cons (.inl rfl)
      (.cons (.inl rfl) .nil)))
  have hdouble : StrictMono (fun n : Nat => 2 * n) := by
    intro n m h
    dsimp only
    omega
  have hdeepened : List.Forall₂ (Reindented fun n => 2 * n) (Text.splitLines text.toList)
      (Text.splitLines deepened.toList) := by
    have hdeep : Text.splitLines deepened.toList = ["entity Note:".toList, "\t\ttitle: (".toList,
        "    string)".toList, []] := by decide +kernel
    rw [hlines, hdeep]
    refine .cons ⟨?_, ?_⟩ (.cons ⟨?_, ?_⟩ (.cons ⟨?_, ?_⟩ (.cons ⟨?_, ?_⟩ .nil)))
    all_goals decide +kernel
  exact ⟨⟨hspaced, (tokenize_relaid _ _ _).1 hspaced⟩, ⟨hended, (tokenize_relaid _ _ _).2.1 hended⟩,
    ⟨hwidened, (tokenize_relaid _ _ _).2.2.1 hwidened⟩, hdouble, hdeepened,
    (tokenize_relaid _ _ _).2.2.2 _ hdouble rfl hdeepened⟩

end Blueprint
