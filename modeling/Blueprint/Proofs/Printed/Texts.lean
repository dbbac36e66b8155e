import Blueprint.Proofs.Lexing
import Blueprint.Proofs.Written.Values
import Mathlib.Data.List.TakeWhile

/-!
# Printed texts

Every word and every number among the tokens of a text has a text of its own class
(`genuine_of_tokenize`). Conversely, such texts are read as one token when they are printed, unless
what stands behind them goes on with them. `Scans` says of printed characters which tokens they are
read as, and is put together piece by piece; a line of them is a text of these tokens
(`Scans.exists_tokenize`).
-/

namespace Blueprint

/-! ## Words and numbers of a text -/

/-- The characters of a word: the first one can start it, and the others can continue it. -/
def IsWord : List Char → Prop
  | [] => False
  | c :: cs => Text.startsWord c = true ∧ ∀ d ∈ cs, Text.continuesWord d = true

instance : DecidablePred IsWord
  | [] => .isFalse id
  | c :: cs => decidable_of_iff (Text.startsWord c = true ∧ cs.all Text.continuesWord = true)
      (and_congr_right fun _ => List.all_eq_true)

/-- If the token is a word or a number, it is the one that its text is read as. -/
structure Token.IsGenuine (t : Token) : Prop where
  word : t.isWord = true → t.kind = .ofWord t.text ∧ IsWord t.text.toList
  number : t.kind = .number → IsNumeral t.text.toList ∨ IsDecimal t.text.toList

namespace Text

variable {c : Char}

theorem isDigit_iff : c.isDigit = true ↔ 48 ≤ c.toNat ∧ c.toNat ≤ 57 := by
  simp only [Char.isDigit, Bool.and_eq_true, decide_eq_true_eq, UInt32.le_iff_toNat_le, ge_iff_le]
  exact Iff.rfl

theorem isAlpha_iff : c.isAlpha = true ↔
    (65 ≤ c.toNat ∧ c.toNat ≤ 90) ∨ (97 ≤ c.toNat ∧ c.toNat ≤ 122) := by
  show (decide (65 ≤ c.val ∧ c.val ≤ 90) ||
    (decide (97 ≤ c.val) && decide (c.val ≤ 122))) = true ↔ _
  simp only [Bool.or_eq_true, Bool.and_eq_true, decide_eq_true_eq, UInt32.le_iff_toNat_le]
  exact Iff.rfl

theorem continuesWord_of_isAlpha (h : c.isAlpha = true) : continuesWord c = true := by
  have hlt : c.toNat < 128 := by
    rw [isAlpha_iff] at h
    omega
  unfold continuesWord isLetter
  rw [if_pos hlt, h]
  rfl

theorem continuesWord_of_isDigit (h : c.isDigit = true) : continuesWord c = true := by
  have hlt : c.toNat < 128 := by
    rw [isDigit_iff] at h
    omega
  unfold continuesWord isNumeral
  rw [if_pos hlt, h, Bool.or_true]
  rfl

theorem continuesWord_of_startsWord (h : startsWord c = true) : continuesWord c = true := by
  unfold startsWord at h
  unfold continuesWord
  grind

theorem isDigit_of_startsWord (h : startsWord c = true) : c.isDigit = false := by
  by_contra hd
  rw [Bool.not_eq_false, isDigit_iff] at hd
  unfold startsWord isLetter at h
  rw [if_pos (by omega), Bool.or_eq_true, isAlpha_iff, beq_iff_eq] at h
  rcases h with h | rfl
  · omega
  · exact absurd hd (by decide)

end Text

/-- A character with a property that no blank and no number sign has is read as part of a token. -/
theorem visible_of {c : Char} {p : Char → Bool} (h : p c = true)
    (hno : p ' ' = false ∧ p '\t' = false ∧ p '#' = false) : isBlank c = false ∧ c ≠ '#' := by
  have hne : ∀ d, p d = false → c ≠ d := by
    rintro d hd rfl
    rw [h] at hd
    cases hd
  obtain ⟨hspace, htab, hsign⟩ := hno
  unfold isBlank
  rw [beq_false_of_ne (hne _ hspace), beq_false_of_ne (hne _ htab)]
  exact ⟨rfl, hne _ hsign⟩

/-- A mark of layout is neither a word nor a number. -/
theorem Token.genuine_of_mark {t : Token} (h : t.kind.endsStatement = true) : t.IsGenuine where
  word hw := by
    unfold Token.isWord at hw
    split at hw
    · next hk => rw [hk] at h; cases h
    · next hk => rw [hk] at h; cases h
    · cases hw
  number hk := by
    rw [hk] at h
    cases h

theorem IsWord.continues {cs : List Char} (h : IsWord cs) :
    ∀ c ∈ cs, Text.continuesWord c = true := by
  cases cs with
  | nil => exact h.elim
  | cons c cs => exact List.forall_mem_cons.2 ⟨Text.continuesWord_of_startsWord h.1, h.2⟩

/-- What starts with a word starts with neither a blank nor a comment. -/
theorem IsWord.exists_first {cs : List Char} (h : IsWord cs) (rest : List Char) :
    ∃ c cs', cs ++ rest = c :: cs' ∧ isBlank c = false ∧ c ≠ '#' := by
  cases cs with
  | nil => exact h.elim
  | cons c cs => exact ⟨c, cs ++ rest, rfl, visible_of h.1 (by decide)⟩

/-- A number starts with a digit. -/
theorem exists_digit_of_number {cs : List Char} (h : IsNumeral cs ∨ IsDecimal cs) :
    ∃ c cs', cs = c :: cs' ∧ c.isDigit = true := by
  rcases h with h | ⟨whole, part, rfl, hwhole, -⟩
  · obtain ⟨c, cs, rfl⟩ := List.exists_cons_of_ne_nil h.1
    exact ⟨c, cs, rfl, h.2 c List.mem_cons_self⟩
  · obtain ⟨c, cs, rfl⟩ := List.exists_cons_of_ne_nil hwhole.1
    exact ⟨c, cs ++ '.' :: part, rfl, hwhole.2 c List.mem_cons_self⟩

/-- A number has only digits and points. -/
theorem ne_of_mem_number {cs : List Char} (h : IsNumeral cs ∨ IsDecimal cs) {d : Char}
    (hd : d ∈ cs) (e : Char) (he : e.isDigit = false) (hpoint : e ≠ '.') : d ≠ e := by
  rintro rfl
  have hdigit : d.isDigit = true := by
    rcases h with h | ⟨whole, part, rfl, hwhole, hpart⟩
    · exact h.2 d hd
    · rw [List.mem_append, List.mem_cons] at hd
      exact hd.elim (hwhole.2 d) fun hd => hpart.2 d (hd.resolve_left hpoint)
  rw [hdigit] at he
  cases he

theorem isNumeral_takeWhile {c : Char} (hc : c.isDigit = true) (cs : List Char) :
    IsNumeral ((c :: cs).takeWhile Char.isDigit) :=
  ⟨by simp [hc], fun _ hd => List.mem_takeWhile_imp hd⟩

namespace Lexeme

variable {c : Char} {cs : List Char} {l : Lexeme} {line column : Nat}

theorem genuine_of_number {text : List Char} (h : IsNumeral text ∨ IsDecimal text) :
    Token.IsGenuine ⟨.number, String.ofList text, line, column⟩ where
  word hw := by cases hw
  number _ := by rwa [String.toList_ofList]

theorem genuine_of_numeral (hc : c.isDigit = true) (h : numeral (c :: cs) = .ok l) :
    Token.IsGenuine ⟨l.kind, l.text, line, column⟩ := by
  have hwhole := isNumeral_takeWhile hc cs
  unfold numeral at h
  dsimp only at h
  split at h
  · next d rest _ =>
    split at h
    · next hd =>
      cases h
      exact genuine_of_number (.inr ⟨_, _, rfl, hwhole, isNumeral_takeWhile hd rest⟩)
    · cases h
      exact genuine_of_number (.inl hwhole)
  · split at h
    · split at h
      · cases h
        exact ⟨nofun, nofun⟩
      · cases h
    · cases h
      exact genuine_of_number (.inl hwhole)
  · cases h
    exact genuine_of_number (.inl hwhole)

theorem kind_word (cs : List Char) : (word cs).kind = .ofWord (word cs).text := rfl

theorem genuine_word (hc : Text.startsWord c = true) :
    Token.IsGenuine ⟨(word (c :: cs)).kind, (word (c :: cs)).text, line, column⟩ where
  word _ := by
    refine ⟨kind_word _, ?_⟩
    show IsWord (String.ofList ((c :: cs).takeWhile Text.continuesWord)).toList
    rw [String.toList_ofList, List.takeWhile_cons_of_pos (Text.continuesWord_of_startsWord hc)]
    exact ⟨hc, fun _ hd => List.mem_takeWhile_imp hd⟩
  number hk := by
    have hword : (word (c :: cs)).kind = .number := hk
    rw [kind_word] at hword
    unfold TokenKind.ofWord at hword
    split at hword <;> cases hword

theorem genuine_of_sign? (h : sign? cs = some l) :
    Token.IsGenuine ⟨l.kind, l.text, line, column⟩ := by
  unfold sign? at h
  split at h <;> cases h <;> exact ⟨nofun, nofun⟩

theorem genuine_of_read (h : read c cs = .ok l) :
    Token.IsGenuine ⟨l.kind, l.text, line, column⟩ := by
  unfold read at h
  split at h
  · obtain ⟨_, -, h⟩ := Except.bind_eq_ok_iff.1 h
    cases h
    exact ⟨nofun, nofun⟩
  split at h
  · next hd => exact genuine_of_numeral hd h
  split at h
  · next hw =>
    cases h
    exact genuine_word hw
  split at h
  · next hs =>
    cases h
    exact genuine_of_sign? hs
  · cases h

end Lexeme

namespace Lexer

variable {P : Token → Prop} {file : String} {line column : Nat} {cs : List Char} {ts : List Token}
  {layout next : Layout}

theorem forall_of_scan
    (hread : ∀ {c cs l line column}, Lexeme.read c cs = .ok l → P ⟨l.kind, l.text, line, column⟩)
    (h : scan file line column cs = .ok ts) : ∀ t ∈ ts, P t := by
  fun_induction scan file line column cs generalizing ts with
  | case1 column =>
    cases h
    exact List.forall_mem_nil _
  | case2 column c cs hblank ih => exact ih h
  | case3 column cs hblank =>
    cases h
    exact List.forall_mem_nil _
  | case4 => cases h
  | case5 column c cs hblank hcomment l hl ih =>
    obtain ⟨rest, hrest, h⟩ := Except.bind_eq_ok_iff.1 h
    cases h
    exact List.forall_mem_cons.2 ⟨hread hl, ih hrest⟩

variable (hmark : ∀ {t : Token}, t.kind.endsStatement = true → t.text = "" → P t)

include hmark

theorem forall_of_indentation {indents inner : List Nat} {width : Nat} {marks : List Token}
    (h : indentation indents width line column = some (marks, inner)) : ∀ t ∈ marks, P t := by
  unfold indentation at h
  dsimp only at h
  split at h
  · cases h
    exact List.forall_mem_singleton.2 (hmark rfl rfl)
  · split at h
    · cases h
      exact fun t ht => List.eq_of_mem_replicate ht ▸ hmark rfl rfl
    · cases h

variable
    (hread : ∀ {c cs l line column}, Lexeme.read c cs = .ok l → P ⟨l.kind, l.text, line, column⟩)

include hread

theorem forall_of_readLine {text : List Char}
    (h : readLine file line layout text = .ok (ts, next)) :
    ∀ t ∈ ts, P t := by
  cases hs : isSilent (Text.trimReturns text) with
  | true =>
    rw [readLine_of_silent hs] at h
    cases h
    exact List.forall_mem_nil _
  | false =>
    obtain ⟨marks, inner, hm, h⟩ := exists_of_readLine hs h
    obtain ⟨tokens, hscan, rfl, -⟩ := readContent_eq_ok_iff.1 h
    have hmarks : ∀ t ∈ marks, P t := by
      unfold lineMarks? at hm
      split at hm
      · exact forall_of_indentation hmark hm
      · cases hm
        exact List.forall_mem_nil _
    have hend : ∀ t ∈ lineEnd (tokens.foldl bracketDepth layout.depth) line
        ((Text.trimReturns text).length + 1), P t := by
      unfold lineEnd
      split
      · exact List.forall_mem_singleton.2 (hmark rfl rfl)
      · exact List.forall_mem_nil _
    simp only [List.forall_mem_append]
    exact ⟨⟨hmarks, forall_of_scan hread hscan⟩, hend⟩

theorem forall_of_readLines {ls : List (List Char)}
    (h : readLines file line layout ls = .ok (ts, next)) : ∀ t ∈ ts, P t := by
  induction ls generalizing line layout ts with
  | nil =>
    cases h
    exact List.forall_mem_nil _
  | cons l ls ih =>
    obtain ⟨tokens, mid, more, hl, hls, rfl⟩ := readLines_cons_eq_ok_iff.1 h
    exact List.forall_mem_append.2 ⟨forall_of_readLine hmark hread hl, ih hls⟩

end Lexer

/-- All tokens of a text have a property that marks of layout and whatever is read off a line
have. -/
theorem forall_of_tokenize {P : Token → Prop}
    (hmark : ∀ {t : Token}, t.kind.endsStatement = true → t.text = "" → P t)
    (hread : ∀ {c cs l line column}, Lexeme.read c cs = .ok l → P ⟨l.kind, l.text, line, column⟩)
    {file text : String} {ts : List Token} (h : tokenize file text = .ok ts) : ∀ t ∈ ts, P t := by
  obtain ⟨tokens, indents, hlines, rfl⟩ := tokenize_eq_ok_iff.1 h
  simp only [List.forall_mem_append, List.forall_mem_singleton]
  refine ⟨⟨Lexer.forall_of_readLines hmark hread hlines, fun t ht => ?_⟩, hmark rfl rfl⟩
  exact List.eq_of_mem_replicate ht ▸ hmark rfl rfl

theorem genuine_of_tokenize {file text : String} {ts : List Token}
    (h : tokenize file text = .ok ts) : ∀ t ∈ ts, t.IsGenuine :=
  forall_of_tokenize (fun h _ => Token.genuine_of_mark h) Lexeme.genuine_of_read h

/-! ## Printed characters -/

/-- The characters do not go on with a word. -/
def EndsWord (rest : List Char) : Prop := ∀ c ∈ rest.head?, Text.continuesWord c = false

/-- Nor with a number or a path. -/
def EndsOperand (rest : List Char) : Prop := EndsWord rest ∧ rest.head? ≠ some '.'

theorem EndsOperand.nil : EndsOperand [] := ⟨nofun, nofun⟩

theorem EndsWord.cons {c : Char} (h : Text.continuesWord c = false) (rest : List Char) :
    EndsWord (c :: rest) := by
  intro d hd
  cases hd
  exact h

theorem EndsOperand.cons {c : Char} (hw : Text.continuesWord c = false) (hp : c ≠ '.')
    (rest : List Char) : EndsOperand (c :: rest) :=
  ⟨.cons hw rest, fun e => hp (Option.some.inj e)⟩

theorem EndsWord.takeWhile_eq {rest : List Char} (h : EndsWord rest) {p : Char → Bool}
    (hp : ∀ c, p c = true → Text.continuesWord c = true) : rest.takeWhile p = [] := by
  cases rest with
  | nil => rfl
  | cons c cs =>
    refine List.takeWhile_cons_of_neg fun hc => ?_
    have hno := h c rfl
    rw [hp c hc] at hno
    cases hno

theorem EndsWord.dropWhile_eq {rest : List Char} (h : EndsWord rest) {p : Char → Bool}
    (hp : ∀ c, p c = true → Text.continuesWord c = true) : rest.dropWhile p = rest := by
  have hcut := List.takeWhile_append_dropWhile (p := p) (l := rest)
  rwa [h.takeWhile_eq hp] at hcut

namespace Lexeme

variable {cs rest : List Char}

theorem word_append (h : IsWord cs) (hrest : EndsWord rest) :
    word (cs ++ rest) = ⟨.ofWord (String.ofList cs), String.ofList cs, cs.length⟩ := by
  have htake : (cs ++ rest).takeWhile Text.continuesWord = cs := by
    rw [List.takeWhile_append_of_pos h.continues, hrest.takeWhile_eq fun _ => id, List.append_nil]
  unfold word
  rw [htake]
  rfl

theorem numeral_of_whole (h : IsNumeral cs) (hrest : EndsOperand rest) :
    numeral (cs ++ rest) = .ok ⟨.number, String.ofList cs, cs.length⟩ := by
  unfold numeral
  rw [List.takeWhile_append_of_pos h.2, List.dropWhile_append_of_pos h.2,
    hrest.1.takeWhile_eq fun _ => Text.continuesWord_of_isDigit,
    hrest.1.dropWhile_eq fun _ => Text.continuesWord_of_isDigit, List.append_nil]
  dsimp only
  split
  · exact absurd rfl hrest.2
  · next c rest _ =>
    rw [if_neg fun hc => ?_]
    have hno := hrest.1 c rfl
    rw [Text.continuesWord_of_isAlpha hc] at hno
    cases hno
  · rfl

theorem numeral_of_decimal (h : IsDecimal cs) (hrest : EndsOperand rest) :
    numeral (cs ++ rest) = .ok ⟨.number, String.ofList cs, cs.length⟩ := by
  obtain ⟨whole, part, rfl, hwhole, hpart⟩ := h
  obtain ⟨d, ds, rfl⟩ := List.exists_cons_of_ne_nil hpart.1
  have htake : (whole ++ '.' :: (d :: ds) ++ rest).takeWhile Char.isDigit = whole := by
    rw [List.append_assoc, List.takeWhile_append_of_pos hwhole.2]
    exact List.append_nil whole
  have hdrop : (whole ++ '.' :: (d :: ds) ++ rest).dropWhile Char.isDigit =
      '.' :: d :: (ds ++ rest) := by
    rw [List.append_assoc, List.dropWhile_append_of_pos hwhole.2]
    rfl
  have hdigits : (d :: (ds ++ rest)).takeWhile Char.isDigit = d :: ds := by
    rw [← List.cons_append, List.takeWhile_append_of_pos hpart.2,
      hrest.1.takeWhile_eq fun _ => Text.continuesWord_of_isDigit, List.append_nil]
  unfold numeral
  rw [htake, hdrop]
  refine (if_pos (hpart.2 d List.mem_cons_self)).trans ?_
  rw [hdigits]

end Lexeme

/-! ## Pieces of a line -/

/-- One token of the class. -/
def IsSign (kind : TokenKind) (ts : List Token) : Prop := ∃ t : Token, ts = [t] ∧ t.kind = kind

/-- One token of the class, with the text. -/
def IsToken (kind : TokenKind) (text : String) (ts : List Token) : Prop :=
  ∃ t : Token, ts = [t] ∧ t.kind = kind ∧ t.text = text

/-- A minus sign, and the number with the text. -/
def IsNegated (text : String) (ts : List Token) : Prop :=
  ∃ m t : Token, ts = [m, t] ∧ m.kind = .minus ∧ t.kind = .number ∧ t.text = text

/-- Tokens with the property `W` between two tokens of the classes. -/
def Between (k k' : TokenKind) (W : List Token → Prop) (ts : List Token) : Prop :=
  ∃ o us c, ts = o :: (us ++ [c]) ∧ o.kind = k ∧ W us ∧ c.kind = k'

namespace Lexer

/-- The characters belong to one line. In front of what ends them, they are read as tokens with the
property `W`. -/
structure Scans (ends : List Char → Prop) (cs : List Char) (W : List Token → Prop) : Prop where
  within : ∀ c ∈ cs, c ≠ '\n' ∧ c ≠ '\r'
  scan_append : ∀ ⦃file line column rest ts⦄, ends rest →
    scan file line (column + cs.length) rest = .ok ts →
      ∃ us, W us ∧ scan file line column (cs ++ rest) = .ok (us ++ ts)

namespace Scans

variable {ends ends' : List Char → Prop} {cs cs' : List Char} {W W' : List Token → Prop}

theorem mono (h : Scans ends cs W) (hW : ∀ us, W us → W' us) : Scans ends cs W' where
  within := h.within
  scan_append _ _ _ _ _ hends hrest := by
    obtain ⟨us, hus, hscan⟩ := h.scan_append hends hrest
    exact ⟨us, hW us hus, hscan⟩

theorem weaken (h : Scans ends cs W) (hends : ∀ rest, ends' rest → ends rest) :
    Scans ends' cs W where
  within := h.within
  scan_append _ _ _ rest _ hrest hscan := h.scan_append (hends rest hrest) hscan

/-- Two pieces, of which the second one ends the first. -/
theorem append (h : Scans ends cs W) (h' : Scans ends' cs' W')
    (hends : ∀ rest, ends' rest → ends (cs' ++ rest)) :
    Scans ends' (cs ++ cs') fun us => ∃ vs vs', us = vs ++ vs' ∧ W vs ∧ W' vs' where
  within := List.forall_mem_append.2 ⟨h.within, h'.within⟩
  scan_append file line column rest ts hrest hscan := by
    rw [List.length_append, ← Nat.add_assoc] at hscan
    obtain ⟨vs', hvs', hscan'⟩ := h'.scan_append hrest hscan
    obtain ⟨vs, hvs, hscan''⟩ := h.scan_append (hends rest hrest) hscan'
    refine ⟨vs ++ vs', ⟨vs, vs', rfl, hvs, hvs'⟩, ?_⟩
    rw [List.append_assoc, List.append_assoc, hscan'']

theorem nil (h : W []) : Scans ends [] W where
  within := List.forall_mem_nil _
  scan_append _ _ _ _ _ _ hscan := ⟨[], h, hscan⟩

theorem blank (h : Scans ends cs W) : Scans ends (' ' :: cs) W where
  within := List.forall_mem_cons.2 ⟨by decide, h.within⟩
  scan_append file line column rest ts hrest hscan := by
    rw [List.length_cons, Nat.add_comm cs.length, ← Nat.add_assoc] at hscan
    obtain ⟨us, hus, hscan'⟩ := h.scan_append hrest hscan
    refine ⟨us, hus, ?_⟩
    rw [List.cons_append, scan, if_pos (show isBlank ' ' = true from rfl), hscan']

/-- Characters that are read as one token. -/
theorem of_read {c : Char} {kind : TokenKind} {text : String} (hc : isBlank c = false ∧ c ≠ '#')
    (hwithin : ∀ d ∈ c :: cs, d ≠ '\n' ∧ d ≠ '\r')
    (hread : ∀ rest, ends rest → Lexeme.read c (cs ++ rest) = .ok ⟨kind, text, cs.length + 1⟩) :
    Scans ends (c :: cs) (IsToken kind text) where
  within := hwithin
  scan_append file line column rest ts hrest hscan := by
    refine ⟨[⟨kind, text, line, column⟩], ⟨_, rfl, rfl, rfl⟩, ?_⟩
    rw [List.cons_append, scan, if_neg (by rw [hc.1]; exact Bool.false_ne_true), if_neg hc.2,
      hread rest hrest]
    dsimp only
    rw [Nat.add_sub_cancel, List.drop_left]
    exact Except.bind_eq_ok_iff.2 ⟨ts, hscan, rfl⟩

theorem word {s : String} (h : IsWord s.toList) : Scans EndsWord s.toList (WordWritten s) := by
  have hne : ∀ d ∈ s.toList, ∀ e, Text.continuesWord e = false → d ≠ e := by
    rintro d hd e he rfl
    rw [h.continues d hd] at he
    cases he
  have hwithin : ∀ d ∈ s.toList, d ≠ '\n' ∧ d ≠ '\r' := fun d hd =>
    ⟨hne d hd _ (by decide), hne d hd _ (by decide)⟩
  cases hs : s.toList with
  | nil =>
    rw [hs] at h
    exact h.elim
  | cons c cs =>
    rw [hs] at h hne hwithin
    have hc := hne c List.mem_cons_self
    have hread : ∀ rest, EndsWord rest →
        Lexeme.read c (cs ++ rest) = .ok ⟨.ofWord s, s, cs.length + 1⟩ := by
      intro rest hrest
      unfold Lexeme.read
      rw [if_neg (hc _ (by decide)), Text.isDigit_of_startsWord h.1, if_neg Bool.false_ne_true,
        if_pos h.1, ← List.cons_append, Lexeme.word_append h hrest, ← hs, String.ofList_toList, hs]
      rfl
    refine (of_read (visible_of h.1 (by decide)) hwithin hread).mono ?_
    rintro us ⟨t, rfl, hkind, htext⟩
    exact ⟨t, ⟨hkind, htext⟩, rfl⟩

/-- What a number without a sign is printed as. -/
theorem number {s : String} (h : IsNumeral s.toList ∨ IsDecimal s.toList) :
    Scans EndsOperand s.toList (IsToken .number s) := by
  have hnumeral : ∀ rest, EndsOperand rest →
      Lexeme.numeral (s.toList ++ rest) = .ok ⟨.number, s, s.toList.length⟩ := by
    intro rest hrest
    have hread : Lexeme.numeral (s.toList ++ rest) =
        .ok ⟨.number, String.ofList s.toList, s.toList.length⟩ := by
      rcases h with h | h
      · exact Lexeme.numeral_of_whole h hrest
      · exact Lexeme.numeral_of_decimal h hrest
    rwa [String.ofList_toList] at hread
  obtain ⟨c, cs, hs, hdigit⟩ := exists_digit_of_number h
  have hne := fun d hd => ne_of_mem_number h (d := d) hd
  rw [hs] at hnumeral hne ⊢
  have hc := hne c List.mem_cons_self
  have hread : ∀ rest, EndsOperand rest →
      Lexeme.read c (cs ++ rest) = .ok ⟨.number, s, cs.length + 1⟩ := by
    intro rest hrest
    unfold Lexeme.read
    rw [if_neg (hc _ rfl (by decide)), if_pos hdigit]
    exact hnumeral rest hrest
  exact of_read (visible_of hdigit (by decide))
    (fun d hd => ⟨hne d hd _ rfl (by decide), hne d hd _ rfl (by decide)⟩) hread

/-- A sign of one character. -/
theorem sign {c : Char} {kind : TokenKind} (text : String)
    (hc : (isBlank c = false ∧ c ≠ '#') ∧ (c ≠ '\n' ∧ c ≠ '\r') ∧ c ≠ '"' ∧ c.isDigit = false ∧
      Text.startsWord c = false)
    (hsign : ∀ rest, ends rest → Lexeme.sign? (c :: rest) = some ⟨kind, text, 1⟩) :
    Scans ends [c] (IsSign kind) := by
  obtain ⟨hvisible, hwithin, hquote, hdigit, hword⟩ := hc
  have hread : ∀ rest, ends rest → Lexeme.read c ([] ++ rest) = .ok ⟨kind, text, 1⟩ := by
    intro rest hrest
    unfold Lexeme.read
    rw [if_neg hquote, hdigit, if_neg Bool.false_ne_true, hword, if_neg Bool.false_ne_true,
      List.nil_append, hsign rest hrest]
  exact (of_read hvisible (List.forall_mem_singleton.2 hwithin) hread).mono
    fun us ⟨t, hus, hkind, _⟩ => ⟨t, hus, hkind⟩

theorem openParen : Scans (fun _ => True) ['('] (IsSign .openParen) :=
  .sign "(" (by decide) fun _ _ => rfl

theorem closeParen : Scans (fun _ => True) [')'] (IsSign .closeParen) :=
  .sign ")" (by decide) fun _ _ => rfl

/-- What stands between two signs. -/
theorem between {left right : Char} {k k' : TokenKind} (h : Scans ends cs W)
    (hleft : Scans (fun _ => True) [left] (IsSign k))
    (hright : Scans (fun _ => True) [right] (IsSign k'))
    (hends : ∀ rest, ends (right :: rest)) :
    Scans (fun _ => True) (left :: (cs ++ [right])) (Between k k' W) := by
  have hscan := (hleft.append h fun _ _ => trivial).append hright fun rest _ => hends rest
  refine hscan.mono ?_
  rintro us ⟨_, _, rfl, ⟨_, ts, rfl, ⟨o, rfl, ho⟩, hts⟩, c, rfl, hc⟩
  exact ⟨o, ts, c, rfl, ho, hts, hc⟩

/-- A minus sign, unless it makes an arrow. -/
theorem minus : Scans (fun rest => rest.head? ≠ some '>') ['-'] (IsSign .minus) := by
  refine .sign "-" (by decide) fun rest hrest => ?_
  cases rest with
  | nil => rfl
  | cons c cs =>
    unfold Lexeme.sign?
    split <;> first
      | rfl
      | (next h => exact absurd (congrArg List.head? (List.cons.inj h).2) hrest)
      | (next h => exact absurd (List.cons.inj h).1 (by decide))
      | (next hminus _ _ => exact (hminus _ rfl).elim)

/-- What a number with a minus sign is printed as. -/
theorem negated {s : String} (h : IsNumeral s.toList ∨ IsDecimal s.toList) :
    Scans EndsOperand ("-" ++ s).toList (IsNegated s) := by
  obtain ⟨c, cs, hc, hdigit⟩ := exists_digit_of_number h
  have harrow (rest : List Char) : (s.toList ++ rest).head? ≠ some '>' := by
    intro e
    rw [hc] at e
    cases e
    cases hdigit
  have hscan := minus.append (number h) fun rest _ => harrow rest
  rw [String.toList_append]
  refine hscan.mono ?_
  rintro us ⟨_, _, rfl, ⟨m, rfl, hm⟩, t, rfl, ht, rfl⟩
  exact ⟨m, t, rfl, hm, ht, rfl⟩

end Scans

end Lexer

/-! ## Brackets -/

/-- Whether a token of the class opens or closes brackets. -/
def TokenKind.isBracket : TokenKind → Bool
  | .openParen | .closeParen | .openBracket | .closeBracket => true
  | _ => false

/-- As many brackets are open behind the tokens as in front of them. -/
def ClosesBrackets (ts : List Token) : Prop := ∀ d, ts.foldl Lexer.bracketDepth d = d

namespace ClosesBrackets

variable {t : Token} {ts us : List Token}

theorem nil : ClosesBrackets [] := fun _ => rfl

theorem cons (ht : t.kind.isBracket = false) (h : ClosesBrackets ts) :
    ClosesBrackets (t :: ts) := by
  intro d
  have hstep : Lexer.bracketDepth d t = d := by
    unfold Lexer.bracketDepth
    split <;> first | rfl | (next hk => rw [hk] at ht; cases ht)
  rw [List.foldl_cons, hstep]
  exact h d

theorem append (h : ClosesBrackets ts) (h' : ClosesBrackets us) : ClosesBrackets (ts ++ us) := by
  intro d
  rw [List.foldl_append, h, h']

theorem enclosed {o c : Token} (ho : o.kind = .openParen ∨ o.kind = .openBracket)
    (h : ClosesBrackets ts) (hc : c.kind = .closeParen ∨ c.kind = .closeBracket) :
    ClosesBrackets (o :: (ts ++ [c])) := by
  intro d
  have hopen : Lexer.bracketDepth d o = d + 1 := by
    unfold Lexer.bracketDepth
    rcases ho with ho | ho <;> rw [ho]
  have hclose : Lexer.bracketDepth (d + 1) c = d := by
    unfold Lexer.bracketDepth
    rcases hc with hc | hc <;> (rw [hc]; rfl)
  rw [List.foldl_cons, hopen, List.foldl_append, h, List.foldl_cons, hclose]
  rfl

end ClosesBrackets

theorem Between.closesBrackets {k k' : TokenKind} {W : List Token → Prop} {ts : List Token}
    (h : Between k k' W ts) (hk : k = .openParen ∨ k = .openBracket)
    (hk' : k' = .closeParen ∨ k' = .closeBracket) (hW : ∀ us, W us → ClosesBrackets us) :
    ClosesBrackets ts := by
  obtain ⟨o, us, c, rfl, rfl, hus, rfl⟩ := h
  exact .enclosed hk (hW us hus) hk'

theorem IsToken.closesBrackets {kind : TokenKind} {text : String} {ts : List Token}
    (h : IsToken kind text ts) (hk : kind.isBracket = false) : ClosesBrackets ts := by
  obtain ⟨t, rfl, rfl, -⟩ := h
  exact .cons hk .nil

/-- A word is no bracket. -/
theorem WordWritten.closesBrackets {s : String} {ts : List Token} (h : WordWritten s ts) :
    ClosesBrackets ts := by
  obtain ⟨t, ht, rfl⟩ := h
  refine .cons ?_ .nil
  rw [ht.kind]
  unfold TokenKind.ofWord
  split <;> rfl

theorem Separated.closesBrackets {α : Type} {separator : TokenKind} {W : α → List Token → Prop}
    {as : List α} {ts : List Token} (h : Separated separator W as ts)
    (hseparator : separator.isBracket = false) (hW : ∀ a us, W a us → ClosesBrackets us) :
    ClosesBrackets ts := by
  induction h with
  | one h => exact hW _ _ h
  | more _ ht ha ih => exact ih.append (.cons (ht ▸ hseparator) (hW _ _ ha))

/-! ## A line of printed characters -/

theorem Text.splitLines_of_not_mem {cs : List Char} (h : '\n' ∉ cs) : splitLines cs = [cs] := by
  induction cs with
  | nil => rfl
  | cons c cs ih =>
    rw [List.mem_cons, not_or] at h
    rw [splitLines, if_neg (Ne.symm h.1), ih h.2]

theorem Text.trimReturns_of_not_mem {cs : List Char} (h : '\r' ∉ cs) : trimReturns cs = cs := by
  have hhead : ∀ c ∈ cs.reverse.head?, ¬ (c == '\r') = true := by
    rintro c hc hr
    rw [beq_iff_eq] at hr
    subst hr
    exact h (List.mem_reverse.1 (List.mem_of_mem_head? hc))
  have hdrop : cs.reverse.dropWhile (· == '\r') = cs.reverse := by
    cases hcs : cs.reverse with
    | nil => rfl
    | cons c l =>
      rw [hcs] at hhead
      exact List.dropWhile_cons_of_neg (hhead c rfl)
  unfold trimReturns
  rw [hdrop, List.reverse_reverse]

/-- A text is read if its lines are read and leave nothing open. -/
theorem tokenize_of_readLines {file text : String} {ts : List Token}
    (h : Lexer.readLines file 1 {} (Text.splitLines text.toList) = .ok (ts, {})) :
    tokenize file text =
      .ok (ts ++ [⟨.endOfFile, "", (Text.splitLines text.toList).length + 1, 1⟩]) := by
  refine tokenize_eq_ok_iff.2 ⟨ts, [], h, ?_⟩
  show _ = ts ++ [] ++ _
  rw [List.append_nil]

/-- A line with neither blanks nor a comment at its front has the tokens that it is scanned as, and
its end, if these close what they open. -/
theorem Lexer.readLine_of_scan {file : String} {c : Char} {cs : List Char} {us : List Token}
    (htrim : Text.trimReturns (c :: cs) = c :: cs) (hc : isBlank c = false ∧ c ≠ '#')
    (hscan : scan file 1 1 (c :: cs) = .ok us) (hclosed : ClosesBrackets us) :
    readLine file 1 {} (c :: cs) =
      .ok (us ++ [⟨.newline, "", 1, (c :: cs).length + 1⟩], {}) := by
  have htake : (c :: cs).takeWhile isBlank = [] :=
    List.takeWhile_cons_of_neg (Bool.eq_false_iff.1 hc.1)
  have hdrop : (c :: cs).dropWhile isBlank = c :: cs :=
    List.dropWhile_cons_of_neg (Bool.eq_false_iff.1 hc.1)
  have hloud : isSilent (c :: cs) = false := by
    unfold isSilent
    rw [hdrop]
    exact beq_false_of_ne hc.2
  have hmarks : lineMarks? {} 1 (c :: cs) = some ([], []) := by
    unfold lineMarks? indentWidth
    rw [htake]
    rfl
  rw [readLine_of_marks (htrim.symm ▸ hloud) (htrim.symm ▸ hmarks), htrim, readContent_eq_ok_iff]
  refine ⟨us, ?_, ?_, ?_⟩
  · unfold contentColumn
    rw [htake, hdrop]
    exact hscan
  · show _ = [] ++ us ++ lineEnd (us.foldl bracketDepth 0) 1 _
    rw [hclosed 0]
    rfl
  · show _ = (⟨[], us.foldl bracketDepth 0⟩ : Layout)
    rw [hclosed 0]

/-- A text of one such line. -/
theorem tokenize_of_scan {file : String} {c : Char} {cs : List Char} {us : List Token}
    (hline : '\n' ∉ c :: cs) (htrim : Text.trimReturns (c :: cs) = c :: cs)
    (hc : isBlank c = false ∧ c ≠ '#') (hscan : Lexer.scan file 1 1 (c :: cs) = .ok us)
    (hclosed : ClosesBrackets us) :
    tokenize file (String.ofList (c :: cs)) =
      .ok (us ++ [⟨.newline, "", 1, (c :: cs).length + 1⟩, ⟨.endOfFile, "", 2, 1⟩]) := by
  have hlines : Text.splitLines (String.ofList (c :: cs)).toList = [c :: cs] := by
    rw [String.toList_ofList, Text.splitLines_of_not_mem hline]
  have hread : Lexer.readLines file 1 {} (Text.splitLines (String.ofList (c :: cs)).toList) =
      .ok (us ++ [⟨.newline, "", 1, (c :: cs).length + 1⟩], {}) := by
    rw [hlines]
    exact Lexer.readLines_cons_eq_ok_iff.2
      ⟨_, _, [], Lexer.readLine_of_scan htrim hc hscan hclosed, rfl, (List.append_nil _).symm⟩
  rw [tokenize_of_readLines hread, hlines, List.append_assoc]
  rfl

/-- Characters that are no blanks and no comment at their front, and close what they open, are a
text of the tokens that they are read as. -/
theorem Lexer.Scans.exists_tokenize {ends : List Char → Prop} {c : Char} {cs : List Char}
    {W : List Token → Prop} (h : Scans ends (c :: cs) W) (hends : ends [])
    (hc : isBlank c = false ∧ c ≠ '#') (hclosed : ∀ us, W us → ClosesBrackets us)
    (file : String) : ∃ us nl f, W us ∧ nl.kind = .newline ∧ f.kind = .endOfFile ∧
      tokenize file (String.ofList (c :: cs)) = .ok (us ++ [nl, f]) := by
  have hnil : scan file 1 (1 + (c :: cs).length) [] = .ok [] := by rw [scan]
  obtain ⟨us, hus, hscan⟩ := h.scan_append hends hnil
  rw [List.append_nil, List.append_nil] at hscan
  have htrim := Text.trimReturns_of_not_mem fun hr => (h.within _ hr).2 rfl
  exact ⟨us, _, _, hus, rfl, rfl, tokenize_of_scan (fun hn => (h.within _ hn).1 rfl) htrim hc hscan
    (hclosed us hus)⟩

/-! ## Words with separators -/

theorem Separated.cons {α : Type} {separator : TokenKind} {W : α → List Token → Prop} {a : α}
    {as : List α} {t : Token} {ts us : List Token} (ha : W a ts) (ht : t.kind = separator)
    (h : Separated separator W as us) : Separated separator W (a :: as) (ts ++ t :: us) := by
  induction h with
  | one hb => exact .more (.one ha) ht hb
  | more _ hs hb ih =>
    have h := Separated.more ih hs hb
    rwa [List.append_assoc] at h

/-- Words, one at least, with a sign between two of them. -/
theorem Lexer.Scans.separated {sign : Char} {separator : TokenKind} {ss : List String}
    (hsign : Scans (fun _ => True) [sign] (IsSign separator))
    (hends : Text.continuesWord sign = false) (hne : ss ≠ []) (hss : ∀ s ∈ ss, IsWord s.toList) :
    Scans EndsWord ([sign].intercalate (ss.map String.toList))
      (Separated separator WordWritten ss) := by
  induction ss with
  | nil => exact absurd rfl hne
  | cons s ss ih =>
    rw [List.forall_mem_cons] at hss
    have hword := word hss.1
    cases ss with
    | nil =>
      rw [List.map_singleton, List.intercalate_singleton]
      exact hword.mono fun _ h => .one h
    | cons s' ss =>
      have hmore := (hword.append hsign fun rest _ => .cons hends rest).append
        (ih (List.cons_ne_nil _ _) hss.2) fun _ _ => trivial
      rw [List.map_cons, List.map_cons, List.intercalate_cons_cons]
      refine hmore.mono ?_
      rintro us ⟨_, vs, rfl, ⟨ws, _, rfl, hws, t, rfl, ht⟩, hvs⟩
      rw [List.append_assoc]
      exact .cons hws ht hvs

namespace FieldPath

/-- Names that are words, one at least. -/
structure Printable (p : FieldPath) : Prop extends p.Writable where
  words : ∀ s ∈ p.segments, IsWord s.toList

theorem Printable.scans {p : FieldPath} (h : p.Printable) :
    Lexer.Scans EndsOperand p.render.toList p.Written := by
  unfold render
  rw [String.toList_intercalate]
  exact (Lexer.Scans.separated (.sign "." (by decide) fun _ _ => rfl) (by decide) h.nonempty
    h.words).weaken fun _ hrest => hrest.1

/-- A printed path starts with its first name. -/
theorem Printable.exists_first {p : FieldPath} (h : p.Printable) :
    ∃ c cs, p.render.toList = c :: cs ∧ isBlank c = false ∧ c ≠ '#' := by
  obtain ⟨s, ss, hs⟩ := List.exists_cons_of_ne_nil h.nonempty
  have hword := h.words s (hs ▸ List.mem_cons_self)
  unfold render
  rw [hs, String.toList_intercalate, List.map_cons]
  cases ss with
  | nil =>
    rw [List.map_nil, List.intercalate_singleton, ← List.append_nil s.toList]
    exact hword.exists_first []
  | cons s' ss =>
    rw [List.map_cons, List.intercalate_cons_cons, List.append_assoc]
    exact hword.exists_first _

theorem Written.closesBrackets {p : FieldPath} {ts : List Token} (h : p.Written ts) :
    ClosesBrackets ts :=
  Separated.closesBrackets h rfl fun _ _ => WordWritten.closesBrackets

end FieldPath

end Blueprint
