import Blueprint.Proofs.Printed.ReadBack
import Blueprint.Proofs.Relaying

/-!
# Strings between quotes

Every string can be written as a literal: with four characters escaped, and between quotes, it is a
line of one token, whatever else it contains (`tokenize_quote`). Between quotes as it stands, it is
read back exactly if it has no quote and no end of line, and no backslash that makes an escape with
what follows (`isLineOf_of_isVerbatim`, `isVerbatim_of_tokenize`): an escape has more characters
than what it stands for, so that nothing is lost only where there is none.
-/

namespace Blueprint

namespace Text

/-- How a character is written between quotes. -/
def escape : Char → List Char
  | '"' => ['\\', '"']
  | '\\' => ['\\', '\\']
  | '\n' => ['\\', 'n']
  | '\t' => ['\\', 't']
  | c => [c]

/-- The string as a literal. -/
def quote (s : String) : String := "\"" ++ String.ofList (s.toList.flatMap escape) ++ "\""

/-- Between quotes, the characters stand for themselves. -/
inductive IsVerbatim : List Char → Prop where
  | nil : IsVerbatim []
  | plain {c : Char} {cs : List Char} (hc : c ∉ ['"', '\\', '\n']) (h : IsVerbatim cs) :
    IsVerbatim (c :: cs)
  /-- A backslash is one unless an escape can begin with it. -/
  | backslash {c : Char} {cs : List Char} (hc : c ∉ ['"', '\\', '\n', 'n', 't'])
    (h : IsVerbatim cs) : IsVerbatim ('\\' :: c :: cs)

theorem toList_quote (s : String) :
    (quote s).toList = '"' :: (s.toList.flatMap escape ++ ['"']) := by
  unfold quote
  rw [String.toList_append, String.toList_append, List.append_assoc,
    String.toList_ofList (l := s.toList.flatMap escape)]
  rfl

theorem newline_not_mem_escape (c : Char) : '\n' ∉ escape c := by
  unfold escape
  split
  case h_5 hn _ => exact fun h => hn (List.mem_singleton.1 h).symm
  all_goals decide

theorem newline_not_mem_flatMap_escape (cs : List Char) : '\n' ∉ cs.flatMap escape := by
  intro h
  obtain ⟨c, -, hc⟩ := List.mem_flatMap.1 h
  exact newline_not_mem_escape c hc

/-- A line that ends with a quote has no carriage returns to drop. -/
theorem trimReturns_concat_quote (cs : List Char) : trimReturns (cs ++ ['"']) = cs ++ ['"'] := by
  unfold trimReturns
  rw [List.reverse_append]
  show (List.dropWhile _ ('"' :: cs.reverse)).reverse = _
  rw [List.dropWhile_cons_of_neg (by decide), List.reverse_cons, List.reverse_reverse]

theorem trimReturns_prefix (l : List Char) : trimReturns l <+: l := by
  have h := List.dropWhile_suffix (l := l.reverse) (· == '\r')
  rwa [← List.reverse_prefix, List.reverse_reverse] at h

/-- A text goes on behind its first line with a line feed, if at all. -/
theorem exists_splitLines (cs : List Char) :
    ∃ l ls, splitLines cs = l :: ls ∧ l <+: cs ∧ '\n' ∉ l := by
  induction cs with
  | nil => exact ⟨[], [], rfl, List.prefix_refl _, List.not_mem_nil⟩
  | cons c cs ih =>
    obtain ⟨l, ls, hl, hprefix, hn⟩ := ih
    unfold splitLines
    rw [hl]
    split
    · exact ⟨[], _, rfl, List.nil_prefix, List.not_mem_nil⟩
    · next hc =>
      refine ⟨c :: l, ls, rfl, (List.cons_prefix_cons).2 ⟨rfl, hprefix⟩, ?_⟩
      rw [List.mem_cons, not_or]
      exact ⟨Ne.symm hc, hn⟩

end Text

open Text

/-! ## Characters between quotes -/

namespace Lexeme

variable {c : Char} {cs content rest : List Char} {w : Nat}

/-- What a backslash stands for, with the character behind it. -/
def resolve : Char → List Char
  | '"' => ['"']
  | '\\' => ['\\']
  | 'n' => ['\n']
  | 't' => ['\t']
  | c => ['\\', c]

theorem resolve_of_not_mem (hc : c ∉ ['"', '\\', 'n', 't']) : resolve c = ['\\', c] := by
  unfold resolve
  split
  case h_5 => rfl
  all_goals exact absurd hc (by decide)

/-- Only where it makes no escape is a backslash kept. -/
theorem length_resolve (c : Char) : (resolve c).length = 1 ∨
    (resolve c = ['\\', c] ∧ c ∉ ['"', '\\', 'n', 't']) := by
  by_cases hc : c ∈ ['"', '\\', 'n', 't']
  · refine .inl ?_
    simp only [List.mem_cons, List.not_mem_nil, or_false] at hc
    rcases hc with rfl | rfl | rfl | rfl <;> rfl
  · exact .inr ⟨resolve_of_not_mem hc, hc⟩

theorem quoted_backslash (h : quoted cs = .ok (content, w)) :
    quoted ('\\' :: c :: cs) = .ok (resolve c ++ content, w + 2) := by
  change (quoted cs >>= fun r => Except.ok (resolve c ++ r.1, r.2 + 2)) = _
  rw [h]
  rfl

/-- A character that is neither a quote nor a backslash is read as it is. -/
theorem quoted_of_plain (hq : c ≠ '"') (hb : c ≠ '\\') (h : quoted cs = .ok (content, w)) :
    quoted (c :: cs) = .ok (c :: content, w + 1) := by
  rw [quoted, h]
  · rfl
  · exact hq
  · exact fun e => absurd e hb
  · exact fun _ _ e => absurd e hb

/-- An escaped character is read as the character. -/
theorem quoted_escape (c : Char) (h : quoted cs = .ok (content, w)) :
    quoted (escape c ++ cs) = .ok (c :: content, w + (escape c).length) := by
  unfold escape
  split
  case h_5 hq hb _ _ => exact quoted_of_plain hq hb h
  all_goals exact quoted_backslash h

theorem quoted_flatMap_escape (cs rest : List Char) :
    quoted (cs.flatMap escape ++ '"' :: rest) = .ok (cs, (cs.flatMap escape).length + 1) := by
  induction cs with
  | nil => rfl
  | cons c cs ih =>
    rw [List.flatMap_cons, List.append_assoc, quoted_escape c ih, List.length_append,
      Nat.add_right_comm, Nat.add_comm (List.length _)]

/-- What is read between quotes has at most as many characters as are read. -/
theorem length_of_quoted (h : quoted cs = .ok (content, w)) :
    content.length + 1 ≤ w ∧ w ≤ cs.length := by
  fun_induction quoted cs generalizing content w with
  | case1 => cases h
  | case2 rest =>
    cases h
    exact ⟨Nat.le_refl _, Nat.succ_le_succ (Nat.zero_le _)⟩
  | case3 => cases h
  | case4 c cs ih =>
    obtain ⟨⟨content', w'⟩, hread, h⟩ := Except.bind_eq_ok_iff.1 h
    obtain ⟨hle, hle'⟩ := ih hread
    obtain ⟨rfl, rfl⟩ : content = resolve c ++ content' ∧ w = w' + 2 := by
      cases h
      exact ⟨rfl, rfl⟩
    have hshort : (resolve c).length ≤ 2 := by
      rcases length_resolve c with h | ⟨h, -⟩ <;> rw [h]
      · decide
      · exact Nat.le_refl 2
    simp only [List.length_append, List.length_cons]
    omega
  | case5 c cs _ _ _ ih =>
    obtain ⟨⟨content', w'⟩, hread, h⟩ := Except.bind_eq_ok_iff.1 h
    obtain ⟨hle, hle'⟩ := ih hread
    cases h
    rw [List.length_cons, List.length_cons]
    omega

/-- What stands for itself is read as it is. -/
theorem quoted_of_isVerbatim (h : IsVerbatim cs) (rest : List Char) :
    quoted (cs ++ '"' :: rest) = .ok (cs, cs.length + 1) := by
  induction h with
  | nil => rfl
  | plain hc _ ih =>
    simp only [List.mem_cons, not_or] at hc
    exact quoted_of_plain hc.1 hc.2.1 ih
  | @backslash c cs hc _ ih =>
    have hkept : resolve c = ['\\', c] := by
      refine resolve_of_not_mem fun hmem => hc ?_
      simp only [List.mem_cons] at hmem ⊢
      tauto
    have hread := quoted_backslash (c := c) ih
    rwa [hkept] at hread

/-- If what is read has as many characters as are read, they stand for themselves. -/
theorem isVerbatim_of_quoted (h : quoted cs = .ok (content, w)) (hw : w = content.length + 1)
    (hline : '\n' ∉ cs) : IsVerbatim content := by
  fun_induction quoted cs generalizing content w with
  | case1 => cases h
  | case2 =>
    cases h
    exact .nil
  | case3 => cases h
  | case4 c cs ih =>
    obtain ⟨⟨content', w'⟩, hread, h⟩ := Except.bind_eq_ok_iff.1 h
    have hle := (length_of_quoted hread).1
    obtain ⟨rfl, rfl⟩ : content = resolve c ++ content' ∧ w = w' + 2 := by
      cases h
      exact ⟨rfl, rfl⟩
    rw [List.length_append] at hw
    rw [List.mem_cons, List.mem_cons, not_or, not_or] at hline
    rcases length_resolve c with hshort | ⟨hkept, hc⟩
    · omega
    · rw [hkept] at hw ⊢
      show IsVerbatim ('\\' :: c :: content')
      refine .backslash (fun hmem => ?_) (ih hread ?_ hline.2.2)
      · have hnewline := hline.2.1
        simp only [List.mem_cons] at hmem hc
        tauto
      · rw [List.length_cons, List.length_singleton] at hw
        omega
  | case5 c cs hq hb hb' ih =>
    obtain ⟨⟨content', w'⟩, hread, h⟩ := Except.bind_eq_ok_iff.1 h
    cases h
    rw [List.mem_cons, not_or] at hline
    refine .plain ?_ (ih hread (Nat.succ.inj hw) hline.2)
    have hnot : c ≠ '\\' := by
      intro hc
      cases cs with
      | nil => exact hb hc rfl
      | cons d cs => exact hb' d cs hc rfl
    simp only [List.mem_cons, List.not_mem_nil, or_false, not_or]
    exact ⟨hq, hnot, Ne.symm hline.1⟩

end Lexeme

/-! ## Lines of one string -/

section

variable {file text : String} {body content cs : List Char} {ts : List Token} {w : Nat}

/-- What stands between the quotes of a line is scanned as one token if it is read as a whole. -/
theorem Lexer.scan_of_quoted (h : Lexeme.quoted cs = .ok (content, cs.length)) (file : String)
    (line column : Nat) :
    scan file line column ('"' :: cs) = .ok [⟨.string, String.ofList content, line, column⟩] := by
  have hread : Lexeme.read '"' cs = .ok ⟨.string, String.ofList content, cs.length + 1⟩ := by
    unfold Lexeme.read
    rw [if_pos rfl, h]
    rfl
  rw [scan, if_neg (by decide), if_neg (by decide), hread]
  dsimp only
  rw [Nat.add_sub_cancel, List.drop_length, scan]
  rfl

/-- A text of one line, with one string on it, whether its end is written or not. -/
theorem tokenize_of_quoted (htext : text.toList = '"' :: (body ++ ['"'])) (hline : '\n' ∉ body)
    (h : Lexeme.quoted (body ++ ['"']) = .ok (content, body.length + 1)) (file : String) :
    tokenize file text = .ok [⟨.string, String.ofList content, 1, 1⟩,
      ⟨.newline, "", 1, text.length + 1⟩, ⟨.endOfFile, "", 2, 1⟩] ∧
    tokenize file (text ++ "\n") = .ok [⟨.string, String.ofList content, 1, 1⟩,
      ⟨.newline, "", 1, text.length + 1⟩, ⟨.endOfFile, "", 3, 1⟩] := by
  have hlength : (body ++ ['"']).length = body.length + 1 := List.length_append
  have hread :
      Lexer.readLine file 1 {} text.toList = .ok ([⟨.string, String.ofList content, 1, 1⟩] ++
      [⟨.newline, "", 1, text.toList.length + 1⟩], {}) := by
    rw [htext]
    exact Lexer.readLine_of_scan (trimReturns_concat_quote ('"' :: body)) (by decide)
      (Lexer.scan_of_quoted (hlength.symm ▸ h) file 1 1) (.cons rfl .nil)
  have hsplit : splitLines text.toList = [text.toList] := by
    refine splitLines_of_not_mem ?_
    rw [htext]
    simpa using hline
  have hsplit' : splitLines (text ++ "\n").toList = [text.toList, []] := by
    rw [String.toList_append]
    show splitLines (text.toList ++ '\n' :: []) = _
    rw [splitLines_append_newline, hsplit]
    rfl
  -- nothing is read behind the line, whether there is an empty line or none
  have hlines {ls : List (List Char)} (hls : Lexer.readLines file 2 {} ls = .ok ([], {})) :
      Lexer.readLines file 1 {} (text.toList :: ls) =
        .ok ([⟨.string, String.ofList content, 1, 1⟩, ⟨.newline, "", 1, text.toList.length + 1⟩],
          {}) :=
    Lexer.readLines_cons_eq_ok_iff.2 ⟨_, _, [], hread, hls, rfl⟩
  rw [← String.length_toList]
  constructor
  · rw [tokenize_of_readLines (hsplit.symm ▸ hlines rfl), hsplit]
    rfl
  · rw [tokenize_of_readLines (hsplit'.symm ▸ hlines rfl), hsplit']
    rfl

/-- The first token of a text that starts with a quote is the string that is read on the first
line. -/
theorem exists_string_of_tokenize (htext : text.toList = '"' :: cs)
    (h : tokenize file text = .ok ts) : ∃ l content w rest, l <+: cs ∧ '\n' ∉ l ∧
      Lexeme.quoted l = .ok (content, w) ∧
      ts = ⟨.string, String.ofList content, 1, 1⟩ :: rest := by
  obtain ⟨tokens, indents, hlines, rfl⟩ := tokenize_eq_ok_iff.1 h
  obtain ⟨l, ls, hl, hprefix, hn⟩ := exists_splitLines cs
  have hsplit : splitLines text.toList = ('"' :: l) :: ls := by
    rw [htext, splitLines, if_neg (by decide), hl]
  have htrim : trimReturns ('"' :: l) = '"' :: trimReturns l :=
    trimReturns_cons_of_ne (by decide) l
  rw [hsplit] at hlines
  obtain ⟨us, next, more, hline, -, rfl⟩ := Lexer.readLines_cons_eq_ok_iff.1 hlines
  obtain ⟨marks, inner, hmarks, hcontent⟩ := Lexer.exists_of_readLine (by rw [htrim]; rfl) hline
  rw [htrim] at hmarks hcontent
  obtain rfl : marks = [] := by
    cases hmarks
    rfl
  obtain ⟨vs, hscan, rfl, -⟩ := Lexer.readContent_eq_ok_iff.1 hcontent
  change Lexer.scan file 1 1 ('"' :: trimReturns l) = .ok vs at hscan
  rw [Lexer.scan, if_neg (by decide), if_neg (by decide)] at hscan
  unfold Lexeme.read at hscan
  rw [if_pos rfl] at hscan
  cases hq : Lexeme.quoted (trimReturns l) with
  | error e =>
    rw [hq] at hscan
    cases hscan
  | ok r =>
    rw [hq] at hscan
    obtain ⟨rest, -, hscan⟩ := Except.bind_eq_ok_iff.1 hscan
    cases hscan
    have htrimmed := trimReturns_prefix l
    exact ⟨_, r.1, r.2, _, htrimmed.trans hprefix, fun hm => hn (htrimmed.mem hm), hq, rfl⟩

end

/-- What stands for itself has no quote and no end of line. -/
theorem Text.IsVerbatim.not_mem {cs : List Char} (h : IsVerbatim cs) : '"' ∉ cs ∧ '\n' ∉ cs := by
  induction h with
  | nil => exact ⟨List.not_mem_nil, List.not_mem_nil⟩
  | plain hc _ ih =>
    simp only [List.mem_cons, not_or] at hc ⊢
    exact ⟨⟨Ne.symm hc.1, ih.1⟩, Ne.symm hc.2.2.1, ih.2⟩
  | backslash hc _ ih =>
    simp only [List.mem_cons, not_or] at hc ⊢
    exact ⟨⟨by decide, Ne.symm hc.1, ih.1⟩, by decide, Ne.symm hc.2.2.1, ih.2⟩

theorem toList_between_quotes (s : String) :
    ("\"" ++ s ++ "\"").toList = '"' :: (s.toList ++ ['"']) := by
  rw [String.toList_append, String.toList_append, List.append_assoc]
  rfl

/-- Between quotes as it stands, a string whose characters stand for themselves is a line of one
token with that text. -/
theorem isLineOf_of_isVerbatim {s : String} (h : IsVerbatim s.toList) :
    IsLineOf (IsToken .string s) ("\"" ++ s ++ "\"") := by
  intro file
  have hread := (tokenize_of_quoted (toList_between_quotes s) h.not_mem.2
    (Lexeme.quoted_of_isVerbatim h []) file).1
  rw [String.ofList_toList] at hread
  exact ⟨_, _, _, ⟨_, rfl, rfl, rfl⟩, rfl, rfl, hread⟩

/-- No other string is. What is read on the first line is shorter wherever there is an escape, and
the line is shorter than the text wherever there is an end of line. -/
theorem isVerbatim_of_tokenize {file s : String} {t : Token} {ts : List Token}
    (h : tokenize file ("\"" ++ s ++ "\"") = .ok (t :: ts)) (ht : t.text = s) :
    IsVerbatim s.toList := by
  obtain ⟨l, content, w, _, hprefix, hline, hread, e⟩ :=
    exists_string_of_tokenize (toList_between_quotes s) h
  cases e
  obtain rfl : content = s.toList := by
    rw [← ht, String.toList_ofList]
  obtain ⟨hle, hle'⟩ := Lexeme.length_of_quoted hread
  have hlength := hprefix.length_le
  rw [List.length_append, List.length_singleton] at hlength
  exact Lexeme.isVerbatim_of_quoted hread (by omega) hline

/-- Every string is the text of the one token of a line, which is the string as a literal. -/
theorem tokenize_quote (file s : String) :
    tokenize file (quote s) = .ok [⟨.string, s, 1, 1⟩,
      ⟨.newline, "", 1, (quote s).length + 1⟩, ⟨.endOfFile, "", 2, 1⟩] ∧
    tokenize file (quote s ++ "\n") = .ok [⟨.string, s, 1, 1⟩,
      ⟨.newline, "", 1, (quote s).length + 1⟩, ⟨.endOfFile, "", 3, 1⟩] := by
  have hread := tokenize_of_quoted (toList_quote s) (newline_not_mem_flatMap_escape s.toList)
    (Lexeme.quoted_flatMap_escape s.toList []) file
  rwa [String.ofList_toList] at hread

example : quote "\\\"#\n" = "\"\\\\\\\"#\\n\"" := by decide

end Blueprint
