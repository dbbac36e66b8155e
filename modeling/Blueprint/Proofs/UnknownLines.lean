import Blueprint.Proofs.Excerpts
import Blueprint.Proofs.OpenBlocks
import Blueprint.Proofs.UnknownStatements

/-!
# Lines that are not known

Lines that begin with an identifier can be put into the body of a declaration, at the width of the
body and with deeper lines under them (`UnknownLines`, `BodyPlace`). The text then declares the same
module, in which the places behind the lines have moved down (`parseModule_insert`). The lexer
closes in front of them and behind them the blocks that stand in the body, so that the statement
that they make up is passed over as a whole (`exists_skip`).
-/

namespace Blueprint

/-! ## Moving lines -/

/-- The place on the line that its own has become. -/
def Location.onLine (f : Nat → Nat) (l : Location) : Location := { l with line := f l.line }

/-- The module with every place on the line that its own has become. -/
def Module.relocate (place : Location → Location) (m : Module) : Module :=
  { m with
    app := m.app.map (Placed.relocate place)
    declarations := m.declarations.relocate place }

/-- The same token on the line that its own has become. Marks of layout may stand elsewhere. -/
structure Token.Moved (f : Nat → Nat) (t t' : Token) : Prop where
  kind : t'.kind = t.kind
  text : t'.text = t.text
  place : t.kind.endsStatement = false → t'.line = f t.line ∧ t'.column = t.column

/-- A file, and the same with its lines moved. -/
def Rereading.moved (f : Nat → Nat) (file : String) (inModule : Option String)
    (final final' : Token) (h : final.kind = .endOfFile) (h' : final'.kind = .endOfFile) :
    Rereading :=
  ⟨⟨file, inModule, final⟩, ⟨file, inModule, final'⟩, [], [], Location.onLine f, h, h'⟩

section

variable {f : Nat → Nat} {file : String} {inModule : Option String} {final final' t t' : Token}
  {h : final.kind = .endOfFile} {h' : final'.kind = .endOfFile}

theorem Rereading.same_moved_iff :
    (moved f file inModule final final' h h').Same t t' ↔ t.Moved f t' := by
  have hiff : Location.onLine f (Scope.locate ⟨file, inModule, final⟩ t) =
      Scope.locate ⟨file, inModule, final'⟩ t' ↔ t'.line = f t.line ∧ t'.column = t.column := by
    unfold Scope.locate Location.onLine
    simp only [Location.mk.injEq, true_and, and_true, eq_comm]
  exact ⟨fun h => ⟨h.kind, h.text, fun hk => hiff.1 (h.place hk)⟩,
    fun h => ⟨h.kind, h.text, fun hk => hiff.2 (h.place hk)⟩⟩

end

namespace Parser

theorem FileDraft.toModule_after (d : FileDraft) (place : Location → Location)
    (declared : Option String) (file : String) :
    (FileDraft.after {} place d).toModule declared file =
      (d.toModule declared file).relocate place := by
  unfold toModule Module.relocate
  rw [declarations_after]
  rfl

/-- Where the lines of a file are moved, its declarations are moved with them. -/
theorem module_moved {f : Nat → Nat} {file : String} {final final' : Token}
    (h : final.kind = .endOfFile) (h' : final'.kind = .endOfFile) {a a' rest : List Token}
    {m : Module} (hc : Position.outside.ClosedBy a) (ha : List.Forall₂ (Token.Moved f) a a')
    (hm : module ⟨file, none, final⟩ a = .ok (m, rest)) :
    module ⟨file, none, final'⟩ a' = .ok (m.relocate (Location.onLine f), []) := by
  obtain ⟨declared, mid, d, hname, hd, rfl⟩ := module_eq_ok_iff.1 hm
  -- the header is read the same
  obtain ⟨mid', hname', hcmid, hmid⟩ : ∃ mid', moduleName? ⟨file, none, final'⟩ a' =
      .ok (declared, mid') ∧ Position.outside.ClosedBy mid ∧
      List.Forall₂ (Token.Moved f) mid mid' := by
    by_cases hempty : behindNewlines a = []
    · rw [moduleName?_of_nil h hempty] at hname
      cases hname
      have hsame := forall₂_behindNewlines (fun _ _ h => h.kind) ha
      rw [hempty, List.forall₂_nil_left_iff] at hsame
      exact ⟨[], moduleName?_of_nil h' hsame, .nil, .nil⟩
    · rw [← List.append_nil a] at hname
      obtain ⟨b, b', e, -, hcb, hb, hname'⟩ := moduleName?_agree
        (r := .moved f file none final final' h h') hc
        (ha.imp fun _ _ => Rereading.same_moved_iff.2) hempty hname
      obtain rfl : mid = b := e.trans (List.append_nil b)
      have hnext (us : List Token) :
          us ++ (Rereading.moved f file none final final' h h').next = us := List.append_nil us
      rw [hnext, hnext] at hname'
      exact ⟨b', hname', hcb, hb.imp fun _ _ => Rereading.same_moved_iff.1⟩
  refine module_eq_ok_iff.2 ⟨declared, mid', FileDraft.after {} (Location.onLine f) d, hname', ?_,
    (FileDraft.toModule_after ..).symm⟩
  -- and so are the statements
  let r := Rereading.moved f file declared final final' h h'
  rw [← List.append_nil mid] at hd
  obtain ⟨w, nl, nl', hnl, hnl', hend, hstatements⟩ := fileStatements_agree (r := r) {} .nil .nil
    hcmid (hmid.imp fun _ _ => Rereading.same_moved_iff.2) (List.forall_mem_nil _) (.nothing d) hd
  obtain rfl : w = d := draft_of_newlines h hnl hend
  have hfinal : fileStatement? (FileDraft.after {} r.place w) r.second (nl' ++ r.next) =
      .ok (none, []) := fileStatement?_of_final h' (behindNewlines_of_all hnl' [])
  rw [iterateOn_of_none hfinal, FileDraft.after_nothing] at hstatements
  have hnext : mid' ++ r.next = mid' := List.append_nil mid'
  rwa [List.nil_append, hnext] at hstatements

end Parser

/-- The number of a line when the first `n` lines stay where they are and the others move down by
`d`. -/
def moveDown (n d line : Nat) : Nat := if n < line then line + d else line

namespace Token

variable {n d : Nat} {ts ts' : List Token}

/-- The tokens of lines that stay. -/
theorem moved_of_le (h : ∀ t ∈ ts, t.line ≤ n) : List.Forall₂ (Moved (moveDown n d)) ts ts :=
  List.forall₂_same.2 fun t ht =>
    ⟨rfl, rfl, fun _ => ⟨(if_neg (Nat.not_lt.2 (h t ht))).symm, rfl⟩⟩

/-- The tokens of lines that move down. -/
theorem moved_of_below (h : List.Forall₂ (Below d) ts ts')
    (hline : ∀ t ∈ ts, t.kind.endsStatement = false → n < t.line) :
    List.Forall₂ (Moved (moveDown n d)) ts ts' := by
  induction h with
  | nil => exact .nil
  | cons ht _ ih =>
    obtain ⟨hfirst, hline⟩ := List.forall_mem_cons.1 hline
    refine .cons ⟨ht.kind, ht.text, fun hk => ?_⟩ (ih hline)
    rw [moveDown, if_pos (hfirst hk)]
    exact ht.place hk

end Token

namespace Lexer

variable {file : String} {line depth width n : Nat} {ls : List (List Char)} {ts x : List Token}
  {t : Token} {column : Nat} {indents outer : List Nat} {last : Layout} {first : LogicalLine}
  {more : List LogicalLine}

/-! ## Passing over lines -/

/-- Deeper lines are passed over as the block under a line, up to the marks behind. -/
theorem exists_skipUnder (hread : readLines file line ⟨[width], 0⟩ ls = .ok (ts, ⟨outer, 0⟩))
    (hlines : ∀ l ∈ logicalLinesFrom file line 0 ls, width < l.width) :
    ∃ ws, outer = ws ++ [width] ∧ (∀ w ∈ ws, width < w) ∧ ∀ line' column' us, NoIndent us →
      skipUnder (ts ++ (List.replicate ws.length ⟨.dedent, "", line', column'⟩ ++ us)) = us := by
  cases hcons : logicalLinesFrom file line 0 ls with
  | nil =>
    rw [readLines_of_no_lines hcons] at hread
    cases hread
    exact ⟨[], rfl, List.forall_mem_nil _, fun _ _ us hus => skipUnder_of_noIndent hus⟩
  | cons first more =>
    rw [hcons] at hlines
    have hopen : LeadsTo [.indent] [width] [first.width, width] first.width :=
      leadsTo_open (hlines first List.mem_cons_self)
    obtain ⟨line₁, column₁, hiff⟩ := readLines_iff_of_leadsTo hcons hopen
    obtain ⟨us, hus, rfl⟩ := (hiff _ _).1 hread
    -- the block stays open up to its end
    have hwithin : ∀ l ∈ logicalLinesFrom file line 0 ls, Within [first.width, width] l.width := by
      intro l hl w hw
      rw [hcons] at hl
      have hlt := hlines l hl
      simp only [List.tail_cons, List.mem_cons, List.not_mem_nil, or_false] at hw
      omega
    have hus : readLines file line ⟨[] ++ [first.width, width], 0⟩ ls = .ok (us, ⟨outer, 0⟩) := hus
    obtain ⟨ws, e, habove⟩ := readLines_within hwithin hus
    have e : outer = ws ++ [first.width, width] := e
    have hdeeper := habove.deeper (List.forall_mem_nil _)
    have hfirst := hlines first List.mem_cons_self
    refine ⟨ws ++ [first.width], by rw [e, List.append_assoc]; rfl, fun w hw => ?_,
      fun line' column' vs _ => ?_⟩
    · rcases List.mem_append.1 hw with hw | hw
      · exact hfirst.trans (hdeeper w hw)
      · rwa [List.eq_of_mem_singleton hw]
    · have hclosed := habove.closedBy _ (closedBy_replicate ws.length line' column')
      have hskip := skipBlock_of_closed hclosed Nat.one_pos (⟨.dedent, "", line', column'⟩ :: vs)
      rw [skipBlock_of_dedent rfl, if_pos (Nat.le_refl 1)] at hskip
      rw [List.length_append, List.length_singleton, List.replicate_succ']
      unfold marksAt
      simp only [List.map_cons, List.map_nil, List.append_assoc, List.cons_append,
        List.nil_append] at hskip ⊢
      rw [skipUnder_cons, if_pos rfl]
      exact hskip

/-- A line with deeper ones under it is passed over with them, up to the marks behind. -/
theorem exists_skip (hread : readLines file line ⟨[width], 0⟩ ls = .ok (t :: x, ⟨outer, 0⟩))
    (ht : t.kind.endsStatement = false) (hlines : logicalLinesFrom file line 0 ls = first :: more)
    (hfirst : first.width = width) (hmore : ∀ l ∈ more, width < l.width) :
    ∃ ws, outer = ws ++ [width] ∧ (∀ w ∈ ws, width < w) ∧ x ≠ [] ∧ ∀ line' column' us, NoIndent us →
      skipStatement (t :: x ++ (List.replicate ws.length ⟨.dedent, "", line', column'⟩ ++ us)) =
        us := by
  obtain ⟨ls₁, ls₂, marks, inner, tokens, content, newline, rest, rfl, hm, -, hplain, hnewline, hx,
    -, hrest, hmore'⟩ := exists_logicalLine hlines hread rfl
  rw [hfirst, indentation_self] at hm
  cases hm
  rw [← hmore'] at hmore
  obtain ⟨ws, hws, hdeeper, hskip⟩ := exists_skipUnder hrest hmore
  refine ⟨ws, hws, hdeeper, ?_, fun line' column' us hus => ?_⟩
  · rintro rfl
    have hmem : newline ∈ [t] := by
      rw [hx]
      simp
    rw [← List.eq_of_mem_singleton hmem, hnewline] at ht
    cases ht
  · rw [hx, List.nil_append, List.append_assoc, List.append_assoc, skipStatement_eq,
      lineBehind_append hplain]
    rw [List.singleton_append, lineBehind_of_newline hnewline]
    exact hskip line' column' us hus

/-! ## The body of a declaration -/

/-- The tokens of lines stand on them. -/
theorem line_of_readLines {layout : Layout} (h : readLines file line layout ls = .ok (ts, last)) :
    ∀ t ∈ ts, line ≤ t.line ∧ t.line < line + ls.length := by
  obtain ⟨lines, rfl, hlength, hcovers⟩ := exists_coversLines h
  intro t ht
  obtain ⟨e, he, rfl⟩ := List.mem_map.1 ht
  obtain ⟨es, hes, he⟩ := List.mem_flatten.1 he
  obtain ⟨i, hi, rfl⟩ := List.getElem_of_mem hes
  have hi' : i < ls.length := hlength ▸ hi
  have hcover := hcovers i _ _ (List.getElem?_eq_getElem hi') (List.getElem?_eq_getElem hi)
  have hline := (hcover.stands e he).1
  omega

/-- The width at which lines begin. -/
def firstWidth? (lines : List LogicalLine) : Option Nat := lines.head?.map LogicalLine.width

theorem firstWidth?_eq_some_iff {lines : List LogicalLine} : firstWidth? lines = some width ↔
    ∃ first more, lines = first :: more ∧ first.width = width := by
  unfold firstWidth?
  cases lines <;> simp

/-- It does not depend on their numbers. -/
theorem firstWidth?_logicalLinesFrom (line line' : Nat) :
    firstWidth? (logicalLinesFrom file line' 0 ls) =
      firstWidth? (logicalLinesFrom file line 0 ls) := by
  induction ls generalizing line line' with
  | nil => rfl
  | cons l ls ih =>
    cases hs : isSilent (Text.trimReturns l) with
    | true =>
      rw [logicalLinesFrom_cons_of_silent hs, logicalLinesFrom_cons_of_silent hs]
      exact ih ..
    | false =>
      rw [logicalLinesFrom_cons_of_loud hs, logicalLinesFrom_cons_of_loud hs]
      rfl

/-- The line opens a declaration of the keyword. -/
def Opens (file : String) (k : Keyword) (l : LogicalLine) : Prop :=
  l.width = 0 ∧ ∃ word tokens, scanLine file l.number l.chars = .ok (word :: tokens) ∧
    word.kind = .keyword k

section

variable {k : Keyword} {pre mid : List (List Char)} {before : List LogicalLine} {top : LogicalLine}
  {inner : List LogicalLine}

/-- The line that opens a declaration stands outside of every block. -/
theorem exists_opening (hlines : logicalLinesFrom file 1 0 pre = before ++ top :: inner)
    (htop : Opens file k top) (hread : readLines file 1 {} pre = .ok (ts, ⟨indents, 0⟩)) :
    ∃ ls₁ ls₂ front word line newline, pre = ls₁ ++ ls₂ ∧
      logicalLinesFrom file (1 + ls₁.length) 0 ls₂ = inner ∧
      readLines file 1 {} ls₁ = .ok (front ++ (word :: line ++ [newline]), {}) ∧
      Position.outside.ClosedBy front ∧ word.kind = .keyword k ∧
      (∀ t ∈ line, t.kind.endsStatement = false) ∧
      Position.outside.ClosedBy (word :: line ++ [newline]) := by
  obtain ⟨hwidth, word, line, hscan, hword⟩ := htop
  obtain ⟨ls₁, ls₂, rfl, -, hbrackets, htop⟩ := exists_lines_append hlines
  obtain ⟨front, ⟨outer, d⟩, ts, hfront, hts, rfl⟩ := readLines_append_iff.1 hread
  obtain rfl : d = 0 := (depth_of_readLines hfront).trans hbrackets
  obtain ⟨ls₂, ls₃, marks, inner, tokens, content, newline, rest, rfl, hm, hscan', hplain, hnewline,
    rfl, hopening, hrest, hinner⟩ := exists_logicalLine htop hts rfl
  obtain rfl : word :: line = tokens := Except.ok.inj (hscan.symm.trans hscan')
  -- the blocks in front of the line are closed
  have hpos : ∀ w ∈ outer, 0 < w :=
    pos_of_readLines (List.forall_mem_nil _) hfront
  rw [hwidth, indentation_zero hpos] at hm
  cases hm
  have hread := readLines_append hfront hopening
  rw [← List.append_assoc] at hread
  have hclosed := closedBy_readLines hread Position.ClosedBy.nil
  rw [List.append_nil] at hclosed
  have htext : newline.text = "" :=
    hclosed.text_of_mem (List.mem_append_right _ (by simp)) (by rw [hnewline]; rfl)
  rw [Nat.add_assoc, ← List.length_append] at hinner
  refine ⟨ls₁ ++ ls₂, ls₃, _, word, line ++ content, newline, (List.append_assoc ..).symm, hinner,
    hread, ?_, hword, fun t ht => hplain t (List.mem_cons_of_mem word ht), ?_⟩
  · have hdedents := closedBy_replicate outer.length top.number top.column
    have hclosed := closedBy_readLines hfront hdedents
    exact hclosed
  · exact .plain (hplain word List.mem_cons_self) (closedBy_plain
      (fun t ht => hplain t (List.mem_cons_of_mem word ht)) (.newline hnewline htext .nil))

end

/-- Between the lines `pre` and `post` there is a place in the body of a declaration of the keyword:
in front of a line of the width at which the body begins, or at the end of the body. -/
structure BodyPlace (file : String) (k : Keyword) (width : Nat) (pre post : List (List Char)) :
    Prop where
  /-- It is outside of brackets. -/
  brackets : bracketsBehind file 1 0 pre = 0
  /-- The declaration is the last that is opened, and everything behind the line that opens it is
  in its body. -/
  opened : ∃ before top inner, logicalLinesFrom file 1 0 pre = before ++ top :: inner ∧
    Opens file k top ∧ (∀ l ∈ inner, 0 < l.width) ∧
    firstWidth? (inner ++ logicalLinesFrom file (1 + pre.length) 0 post) = some width
  pos : 0 < width
  next : ∀ w ∈ firstWidth? (logicalLinesFrom file (1 + pre.length) 0 post), w = width ∨ w = 0

/-- The tokens of lines that lead into the body of a declaration, and the widths `ws` of the blocks
that they leave open in it: the lines behind are read inside of these. -/
structure OpenBody (file : String) (k : Keyword) (width : Nat) (pre : List (List Char))
    (inner : List LogicalLine) (front header body : List Token) (ws : List Nat) : Prop where
  closedFront : Position.outside.ClosedBy front
  closedHeader : Position.outside.ClosedBy header
  leads : ∀ {indent inside}, indent.kind = .indent → Position.outside.ClosedBy inside →
    Parser.LeadsInto k (header ++ indent :: inside)
  closedBody : ∀ {more}, (⟨ws.length, false⟩ : Position).ClosedBy more →
    Position.outside.ClosedBy (body ++ more)
  deeper : ∀ w ∈ ws, width < w
  lines : ∀ t ∈ front ++ (header ++ body), t.line < 1 + pre.length
  reads : ∀ (mid : List (List Char)) (bottom : Nat),
    firstWidth? (inner ++ logicalLinesFrom file (1 + pre.length) 0 mid) = some width →
      ∃ line column, ∀ ts, ReadsTo file 1 [] (pre ++ mid) bottom ts ↔
        ∃ rest, ReadsTo file (1 + pre.length) (ws ++ [width]) mid bottom rest ∧
          ts = front ++ (header ++ (⟨.indent, "", line, column⟩ :: (body ++ rest)))

section

variable {k : Keyword} {pre post : List (List Char)} {bottom : Nat}

/-- Lines that are read in a body leave it open as long as they stand in it. -/
theorem ReadsTo.exists_body (h : ReadsTo file line [width] (ls ++ post) bottom ts)
    (hbrackets : bracketsBehind file line 0 ls = 0)
    (hinner : ∀ l ∈ logicalLinesFrom file line 0 ls, 0 < l.width) :
    ∃ body ws, readLines file line ⟨[width], 0⟩ ls = .ok (body, ⟨ws ++ [width], 0⟩) ∧
      Above [width] [] ws false false body := by
  obtain ⟨_, _, hread, -⟩ := h
  obtain ⟨body, ⟨indents, d⟩, _, hbody, -, -⟩ := readLines_append_iff.1 hread
  obtain rfl : d = 0 := (depth_of_readLines hbody).trans hbrackets
  have hwithin : ∀ l ∈ logicalLinesFrom file line 0 ls, Within [width] l.width := by
    intro l hl w hw
    rw [List.eq_of_mem_singleton hw]
    exact hinner l hl
  have hbody' : readLines file line ⟨[] ++ [width], 0⟩ ls = .ok (body, ⟨indents, 0⟩) := hbody
  obtain ⟨ws, rfl, habove⟩ := readLines_within hwithin hbody'
  exact ⟨body, ws, hbody, habove⟩

theorem BodyPlace.exists_openBody (h : BodyPlace file k width pre post)
    (hread : ReadsTo file 1 [] (pre ++ post) bottom ts) : ∃ inner front header body ws,
      firstWidth? (inner ++ logicalLinesFrom file (1 + pre.length) 0 post) = some width ∧
      OpenBody file k width pre inner front header body ws := by
  obtain ⟨before, top, inner, hlines, htop, hinner, hbegin⟩ := h.opened
  obtain ⟨_, outer, hall, -⟩ := id hread
  obtain ⟨_, ⟨indents, d⟩, _, hpre, -, -⟩ := readLines_append_iff.1 hall
  obtain rfl : d = 0 := (depth_of_readLines hpre).trans h.brackets
  obtain ⟨ls₁, ls₂, front, word, line, newline, rfl, hlines₂, hread₁, hfront, hword, hline,
    hheader⟩ := exists_opening hlines htop hpre
  -- the lines behind the one that opens the declaration
  have hlength : 1 + (ls₁ ++ ls₂).length = 1 + ls₁.length + ls₂.length := by
    rw [List.length_append, Nat.add_assoc]
  have hbrackets : bracketsBehind file (1 + ls₁.length) 0 ls₂ = 0 := by
    obtain ⟨_, _, _, hfirst, hsecond, -⟩ := readLines_append_iff.1 hpre
    cases hread₁.symm.trans hfirst
    exact (depth_of_readLines hsecond).symm
  have hopen {mid : List (List Char)}
      (hmid : firstWidth? (inner ++ logicalLinesFrom file (1 + (ls₁ ++ ls₂).length) 0 mid) =
        some width) : ∃ first more, logicalLinesFrom file (1 + ls₁.length) 0 (ls₂ ++ mid) =
          first :: more ∧ LeadsTo [.indent] [] [width] first.width := by
    rw [hlength, ← hbrackets, ← hlines₂, ← logicalLinesFrom_append] at hmid
    obtain ⟨first, more, hcons, hfirst⟩ := firstWidth?_eq_some_iff.1 hmid
    refine ⟨first, more, hcons, ?_⟩
    rw [hfirst]
    exact leadsTo_open h.pos
  -- are read inside of its body
  obtain ⟨body, ws, hbody, hwithin⟩ : ∃ body ws, readLines file (1 + ls₁.length) ⟨[width], 0⟩ ls₂ =
      .ok (body, ⟨ws ++ [width], 0⟩) ∧ Above [width] [] ws false false body := by
    obtain ⟨first, more, hcons, hleads⟩ := hopen hbegin
    obtain ⟨_, _, hiff⟩ := readsTo_iff_of_leadsTo bottom hcons hleads
    rw [List.append_assoc] at hread
    obtain ⟨_, hbehind, -⟩ := (readsTo_append_iff hread₁).1 hread
    obtain ⟨_, hinside, -⟩ := (hiff _).1 hbehind
    exact hinside.exists_body hbrackets (hlines₂ ▸ hinner)
  refine ⟨inner, front, word :: line ++ [newline], body, ws, hbegin, hfront, hheader, ?_,
    hwithin.closedBy _, hwithin.deeper (List.forall_mem_nil _), ?_, ?_⟩
  · exact fun hindent hinside =>
      ⟨word, line, newline, _, _, rfl, hword, hline, hheader, hindent, hinside⟩
  · intro t ht
    rw [← List.append_assoc] at ht
    rw [hlength]
    rcases List.mem_append.1 ht with ht | ht
    · have hline := (line_of_readLines hread₁ t ht).2
      omega
    · exact (line_of_readLines hbody t ht).2
  · intro mid bottom hmid
    obtain ⟨first, more, hcons, hleads⟩ := hopen hmid
    obtain ⟨line', column', hiff⟩ := readsTo_iff_of_leadsTo bottom hcons hleads
    refine ⟨line', column', fun ts => ?_⟩
    rw [List.append_assoc, readsTo_append_iff hread₁, hlength]
    simp only [hiff, readsTo_append_iff hbody]
    constructor
    · rintro ⟨_, ⟨_, ⟨rest, hrest, rfl⟩, rfl⟩, rfl⟩
      exact ⟨rest, hrest, List.append_assoc ..⟩
    · rintro ⟨rest, hrest, rfl⟩
      exact ⟨_, ⟨_, ⟨rest, hrest, rfl⟩, rfl⟩, (List.append_assoc ..).symm⟩

end

/-! ## Lines put into a body -/

/-- The lines are one statement that a body of the keyword and the width does not know. -/
structure UnknownLines (file : String) (number : Nat) (k : Keyword) (width : Nat)
    (ls : List (List Char)) : Prop where
  /-- It begins with an identifier and, in an entity, with no colon behind it; its brackets are
  closed. -/
  tokens : ∃ t x blocks, readLines file number ⟨[width], 0⟩ ls = .ok (t :: x, ⟨blocks, 0⟩) ∧
    Parser.Unknown k t x
  /-- Its first line has the width of the body, and any others are deeper. -/
  lines : ∃ first block, logicalLinesFrom file number 0 ls = first :: block ∧
    first.width = width ∧ ∀ l ∈ block, width < l.width

/-- The tokens behind lines stand behind them, up to the marks at the end of the text. -/
theorem ReadsTo.lt_line {bottom : Nat} (h : ReadsTo file (1 + n) indents ls bottom ts) :
    ∀ t ∈ ts, t.kind.endsStatement = false → n < t.line := by
  obtain ⟨read, outer, hread, rfl⟩ := h
  intro t ht hplain
  rcases List.mem_append.1 ht with ht | ht
  · have hline := (line_of_readLines hread t ht).1
    omega
  · rw [List.eq_of_mem_replicate ht] at hplain
    cases hplain

section

variable {k : Keyword} {pre post : List (List Char)} {bottom : Nat}

/-- The lines behind the place stand under none of the blocks that are open in the body. -/
theorem BodyPlace.leaves (h : BodyPlace file k width pre post) {ws : List Nat}
    (hws : ∀ w ∈ ws, width < w) (line : Nat) :
    ∀ l ∈ (logicalLinesFrom file line 0 post).head?, (∀ w ∈ ws, l.width < w) ∧
      l.width ≤ [width].head?.getD 0 := by
  intro l hl
  have hwidth : l.width ∈ firstWidth? (logicalLinesFrom file line 0 post) :=
    Option.mem_map_of_mem _ hl
  rw [firstWidth?_logicalLinesFrom (1 + pre.length) line] at hwidth
  have hle : l.width ≤ width := by
    rcases h.next _ hwidth with h | h <;> omega
  exact ⟨fun w hw => hle.trans_lt (hws w hw), hle⟩

/-- The tokens up to the place stay where they are. -/
theorem OpenBody.moved {inner : List LogicalLine} {front header body : List Token} {ws : List Nat}
    (h : OpenBody file k width pre inner front header body ws) {d line' column' : Nat}
    {behind behind' : List Token}
    (hbehind : List.Forall₂ (Token.Moved (moveDown pre.length d)) behind behind') :
    List.Forall₂ (Token.Moved (moveDown pre.length d))
      (front ++ (header ++ (⟨.indent, "", line, column⟩ :: (body ++ behind))))
      (front ++ (header ++ (⟨.indent, "", line', column'⟩ :: (body ++ behind')))) := by
  have hstays : ∀ t ∈ front ++ (header ++ body), t.line ≤ pre.length := by
    intro t ht
    have hline := h.lines t ht
    omega
  simp only [List.forall_mem_append] at hstays
  obtain ⟨hfront, hheader, hbody⟩ := hstays
  exact List.rel_append (Token.moved_of_le hfront) (List.rel_append (Token.moved_of_le hheader)
    (.cons ⟨rfl, rfl, nofun⟩ (List.rel_append (Token.moved_of_le hbody) hbehind)))

/-- Behind the marks that close the blocks in a body, the lines are read as one statement that is
not known and is passed over. -/
theorem BodyPlace.exists_statement (hplace : BodyPlace file k width pre post)
    (hls : UnknownLines file (1 + pre.length) k width ls) (bottom : Nat) :
    ∃ t x, (∀ us, Parser.Unknown k t (x ++ us)) ∧
      (∀ us, NoIndent us → skipStatement (t :: x ++ us) = us) ∧
      ∀ ws : List Nat, (∀ w ∈ ws, width < w) → ∃ line column, ∀ us,
        ReadsTo file (1 + pre.length + ls.length) [width] post bottom us →
        ReadsTo file (1 + pre.length) (ws ++ [width]) (ls ++ post) bottom
          (List.replicate ws.length ⟨.dedent, "", line, column⟩ ++ (t :: x ++ us)) := by
  obtain ⟨t, x, blocks, hx, hunknown⟩ := hls.tokens
  obtain ⟨first, block, hlines, hfirst, hblock⟩ := hls.lines
  have ht : t.kind.endsStatement = false := by rw [hunknown.1]; rfl
  obtain ⟨vs, rfl, hvs, hne, hskip⟩ := exists_skip hx ht hlines hfirst hblock
  -- the blocks under the first line are closed behind the last one
  obtain ⟨line', column', hclose⟩ := readsTo_iff_inner bottom
    (hplace.leaves hvs (1 + pre.length + ls.length))
  refine ⟨t, x ++ List.replicate vs.length ⟨.dedent, "", line', column'⟩, fun us => ?_,
    fun us hus => ?_, fun ws hws => ?_⟩
  · obtain ⟨c, x, rfl⟩ := List.exists_cons_of_ne_nil hne
    exact hunknown
  · rw [← List.cons_append, List.append_assoc]
    exact hskip line' column' us hus
  -- and those in front of the first line are closed there
  have hinsert : ∀ l ∈ (logicalLinesFrom file (1 + pre.length) 0 (ls ++ post)).head?,
      (∀ w ∈ ws, l.width < w) ∧ l.width ≤ [width].head?.getD 0 := by
    intro l hl
    rw [logicalLinesFrom_append, hlines] at hl
    obtain rfl : first = l := Option.some.inj hl
    rw [hfirst]
    exact ⟨hws, Nat.le_refl width⟩
  obtain ⟨line, column, hiff⟩ := readsTo_iff_inner bottom hinsert
  refine ⟨line, column, fun us hus => (hiff _).2 ⟨_, ?_, rfl⟩⟩
  rw [← List.cons_append, List.append_assoc]
  exact (readsTo_append_iff hx).2 ⟨_, (hclose _).2 ⟨us, hus, rfl⟩, rfl⟩

/-- With lines that are not known in a body, the tokens of a text move, and those of the statement
stand between them. -/
theorem BodyPlace.exists_insert (hplace : BodyPlace file k width pre post)
    (hls : UnknownLines file (1 + pre.length) k width ls)
    (hread : ReadsTo file 1 [] (pre ++ post) bottom ts) (bottom' : Nat) :
    ∃ front a t x behind,
      ReadsTo file 1 [] (pre ++ (ls ++ post)) bottom' (front ++ (a ++ (t :: x ++ behind))) ∧
      List.Forall₂ (Token.Moved (moveDown pre.length ls.length)) ts (front ++ (a ++ behind)) ∧
      Position.outside.ClosedBy front ∧ Position.outside.ClosedBy (a ++ behind) ∧
      (k ∈ Parser.lenientKeywords → Parser.InBody k a t x behind) := by
  obtain ⟨inner, front, header, body, ws, hbegin, hopen⟩ := hplace.exists_openBody hread
  obtain ⟨t, x, hunknown, hskip, hstatement⟩ := hplace.exists_statement hls bottom'
  obtain ⟨line₁, column₁, hinsert⟩ := hstatement ws hopen.deeper
  -- the tokens of the text, and those of its lines behind the place where they have moved
  obtain ⟨line₂, column₂, hiff₂⟩ := hopen.reads post bottom hbegin
  obtain ⟨_, hrest, rfl⟩ := (hiff₂ _).1 hread
  obtain ⟨line₃, column₃, hiff₃⟩ := readsTo_iff_inner bottom (hplace.leaves hopen.deeper _)
  obtain ⟨behind, hbehind, rfl⟩ := (hiff₃ _).1 hrest
  obtain ⟨behind', hbehind', hbelow⟩ := hbehind.down ls.length bottom'
  -- the body begins as before
  obtain ⟨line₄, column₄, hiff₄⟩ := hopen.reads (ls ++ post) bottom' (by
    obtain ⟨first, block, hlines, hfirst, -⟩ := hls.lines
    cases inner with
    | nil =>
      rw [List.nil_append, logicalLinesFrom_append, hlines]
      exact congrArg some hfirst
    | cons l inner => exact hbegin)
  have hinside : Position.outside.ClosedBy
      (body ++ List.replicate ws.length ⟨.dedent, "", line₁, column₁⟩) :=
    hopen.closedBody (closedBy_replicate ..)
  have hlevel : NoIndent behind' :=
    hbehind'.noIndent_iff.2 fun l hl => (hplace.leaves hopen.deeper _ l hl).2
  refine ⟨front, header ++ ⟨.indent, "", line₄, column₄⟩ ::
    (body ++ List.replicate ws.length ⟨.dedent, "", line₁, column₁⟩), t, x, behind', ?_, ?_,
    hopen.closedFront, ?_, fun hk => ⟨hk, hopen.leads rfl hinside, hbehind'.closedBy, hlevel,
      hunknown behind', hskip behind' hlevel⟩⟩
  · refine (hiff₄ _).2 ⟨_, hinsert behind' hbehind', ?_⟩
    simp only [List.append_assoc, List.cons_append]
  · rw [List.append_assoc, List.cons_append, List.append_assoc]
    exact hopen.moved (Token.moved_of_below
      (List.rel_append (Token.below_dedents ..) hbelow) hrest.lt_line)
  · rw [List.append_assoc]
    exact hopen.closedHeader.append (.indent rfl rfl (hinside.append hbehind'.closedBy))

end

end Lexer

/-! ## Texts -/

open Blueprint.Parser Blueprint.Lexer

section

variable {file text text' : String} {k : Keyword} {width : Nat} {pre ls post : List (List Char)}
  {a : List Token} {f : Token} {m : Module}

/-- Lines that are not known can be put anywhere into a body of a declaration that passes over them.
The module is the same, with what stands below them moved down. -/
theorem parseModule_insert (hk : k ∈ lenientKeywords)
    (htext : Text.splitLines text.toList = pre ++ post)
    (htext' : Text.splitLines text'.toList = pre ++ (ls ++ post))
    (hplace : BodyPlace file k width pre post)
    (hls : UnknownLines file (1 + pre.length) k width ls) (h : parseModule file text = .ok m) :
    parseModule file text' =
      .ok (m.relocate (Location.onLine (moveDown pre.length ls.length))) := by
  obtain ⟨ts, final, rest, hts, hf, hc, hm⟩ := exists_of_parseModule h
  have hread := readsTo_of_tokenize hts
  rw [htext] at hread
  obtain ⟨front, a, t, x, behind, hread', hmoved, hfront, hclosed, hbody⟩ :=
    hplace.exists_insert hls hread ((Text.splitLines text'.toList).length + 1)
  rw [← htext'] at hread'
  obtain ⟨final', hf', hts'⟩ := tokenize_of_readsTo hread'
  have hm' := module_moved hf hf' hc hmoved hm
  exact parseModule_of_tokens hts' hf' ((hbody hk).module_eq hf' hfront hclosed hm')

/-- A remark between two fields of an entity, with brackets over two lines and lines under it. -/
theorem parseModule_insert_remark : ∃ m,
    parseModule "notes.dsl" ("module notes\nentity Note:\n  title: str\n" ++
      "  body: str\nenum Tone:\n  calm\n") = .ok m ∧
    parseModule "notes.dsl" ("module notes\nentity Note:\n  title: str\n" ++
      "  remark (so\nto say)\n    why: because\n      so\n" ++
      "  body: str\nenum Tone:\n  calm\n") =
        .ok (m.relocate (Location.onLine (moveDown 3 4))) := by
  obtain ⟨m, hm, -⟩ := Except.exists_eq_ok_of_any (x := parseModule "notes.dsl"
    ("module notes\nentity Note:\n  title: str\n" ++ "  body: str\nenum Tone:\n  calm\n"))
    (p := fun _ => true) (by decide +kernel)
  let pre := ["module notes".toList, "entity Note:".toList, "  title: str".toList]
  let ls := ["  remark (so".toList, "to say)".toList, "    why: because".toList,
    "      so".toList]
  let post := ["  body: str".toList, "enum Tone:".toList, "  calm".toList, []]
  have hpre : logicalLinesFrom "notes.dsl" 1 0 pre = [⟨1, "module notes".toList⟩] ++
      ⟨2, "entity Note:".toList⟩ :: [⟨3, "  title: str".toList⟩] := by decide +kernel
  have hpost : logicalLinesFrom "notes.dsl" 4 0 post = [⟨4, "  body: str".toList⟩,
      ⟨5, "enum Tone:".toList⟩, ⟨6, "  calm".toList⟩] := by decide +kernel
  have hlines : logicalLinesFrom "notes.dsl" 4 0 ls = ⟨4, "  remark (so".toList⟩ ::
      [⟨6, "    why: because".toList⟩, ⟨7, "      so".toList⟩] := by decide +kernel
  -- the entity
  have hopens : Opens "notes.dsl" .entity ⟨2, "entity Note:".toList⟩ := by
    obtain ⟨tokens, hscan, htokens⟩ := Except.exists_eq_ok_of_any
      (x := scanLine "notes.dsl" 2 "entity Note:".toList)
      (p := fun ts => ts.head?.any (·.kind == .keyword .entity)) (by decide +kernel)
    cases tokens with
    | nil => cases htokens
    | cons word tokens => exact ⟨by decide, word, tokens, hscan, beq_iff_eq.1 htokens⟩
  have hplace : BodyPlace "notes.dsl" .entity 2 pre post :=
    ⟨by decide +kernel, ⟨_, _, _, hpre, hopens, by decide +kernel, by
      show firstWidth? (_ ++ logicalLinesFrom "notes.dsl" 4 0 post) = _
      rw [hpost]
      decide +kernel⟩, by decide, by
      show ∀ w ∈ firstWidth? (logicalLinesFrom "notes.dsl" 4 0 post), _
      rw [hpost]
      decide +kernel⟩
  -- the remark
  have hls : UnknownLines "notes.dsl" 4 .entity 2 ls := by
    obtain ⟨⟨ts, blocks, depth⟩, hts, hkinds⟩ := Except.exists_eq_ok_of_any
      (x := readLines "notes.dsl" 4 ⟨[2], 0⟩ ls)
      (p := fun r => (r.1.take 2).map (·.kind) == [.identifier, .openParen] && r.2.depth == 0)
      (by decide +kernel)
    rcases ts with _ | ⟨t, _ | ⟨c, x⟩⟩ <;> simp at hkinds
    obtain ⟨⟨ht, hc⟩, rfl⟩ := hkinds
    refine ⟨⟨t, c :: x, blocks, hts, ht, fun _ c' hc' => ?_⟩,
      ⟨_, _, hlines, by decide +kernel, by decide +kernel⟩⟩
    cases hc'
    rw [hc]
    decide
  exact ⟨m, hm,
    parseModule_insert (by decide) (by decide +kernel) (by decide +kernel) hplace hls hm⟩

end

end Blueprint
