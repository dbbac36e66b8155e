import Blueprint.Proofs.Printed.Drawn
import Blueprint.Proofs.Results

/-!
# Prints that are read back

A parser reads a value back from its print if the tokens of the print, as a line of its own, are
read as the value up to the end of the line (`ReadsBack`). It is enough that the characters of the
print are scanned as tokens that write the value (`isLineOf_of_scans`). What a parser can return
somewhere in a text (`CanReturn`) is drawn from the tokens of the text.
-/

namespace Blueprint

/-- The text is a line, and its tokens up to the end of the line have the property `W`. -/
def IsLineOf (W : List Token → Prop) (text : String) : Prop :=
  ∀ file, ∃ us newline final, W us ∧ newline.kind = .newline ∧ final.kind = .endOfFile ∧
    tokenize file text = .ok (us ++ [newline, final])

theorem IsLineOf.mono {W W' : List Token → Prop} {text : String} (h : IsLineOf W text)
    (hW : ∀ us, W us → W' us) : IsLineOf W' text := by
  intro file
  obtain ⟨us, newline, final, hus, hends⟩ := h file
  exact ⟨us, newline, final, hW us hus, hends⟩

/-- Characters that are scanned as tokens with the property `W` are a line of such tokens. -/
theorem isLineOf_of_scans {text : String} {ends : List Char → Prop} {W : List Token → Prop}
    (hfirst : ∃ c cs, text.toList = c :: cs ∧ isBlank c = false ∧ c ≠ '#')
    (hscan : Lexer.Scans ends text.toList W) (hends : ends [])
    (hclosed : ∀ us, W us → ClosesBrackets us) : IsLineOf W text := by
  intro file
  obtain ⟨c, cs, hcs, hvisible⟩ := hfirst
  rw [hcs] at hscan
  obtain ⟨us, newline, final, hus, hn, hf, htokens⟩ :=
    hscan.exists_tokenize hends hvisible hclosed file
  rw [← hcs, String.ofList_toList] at htokens
  exact ⟨us, newline, final, hus, hn, hf, htokens⟩

/-- A text is a line in one way at most. -/
theorem eq_of_tokenize_line {file text : String} {us us' : List Token}
    {newline newline' final final' : Token}
    (h : tokenize file text = .ok (us ++ [newline, final]))
    (h' : tokenize file text = .ok (us' ++ [newline', final'])) :
    us = us' ∧ newline = newline' ∧ final = final' := by
  have hlist : us ++ [newline, final] = us' ++ [newline', final'] :=
    Except.ok.inj (h.symm.trans h')
  obtain ⟨hus, hends⟩ := List.append_inj' hlist rfl
  cases hends
  exact ⟨hus, rfl, rfl⟩

namespace Parser

variable {α : Type} {p : Parser α} {v w : α} {text : String}

/-- The parser returns the value somewhere in the tokens of some text. -/
def CanReturn (p : Parser α) (v : α) : Prop :=
  ∃ file text a f inModule ts rest, tokenize file text = .ok (a ++ [f]) ∧ ts <:+ a ∧
    p ⟨file, inModule, f⟩ ts = .ok (v, rest)

/-- The text is a line whose tokens the parser reads, up to the end of the line, as the value. -/
def ReadsBack (p : Parser α) (text : String) (v : α) : Prop :=
  ∀ file inModule, ∃ us newline final, newline.kind = .newline ∧ final.kind = .endOfFile ∧
    tokenize file text = .ok (us ++ [newline, final]) ∧
    p ⟨file, inModule, final⟩ (us ++ [newline]) = .ok (v, [newline])

/-- A text is read back as one value at most. -/
theorem ReadsBack.unique (h : p.ReadsBack text v) (h' : p.ReadsBack text w) : v = w := by
  obtain ⟨us, newline, final, -, -, htokens, hread⟩ := h "" none
  obtain ⟨us', newline', final', -, -, htokens', hread'⟩ := h' "" none
  obtain ⟨rfl, rfl, rfl⟩ := eq_of_tokenize_line htokens htokens'
  rw [hread] at hread'
  cases hread'
  rfl

/-- What is read off all tokens of a text can be returned. -/
theorem canReturn_of_tokenize [BEq α] [LawfulBEq α] (file text : String)
    (h : ((tokenize file text).toOption.any fun ts => ts != [] &&
      (p ⟨file, none, ts.getLast?.getD ⟨.endOfFile, "", 0, 0⟩⟩ ts.dropLast).toOption.any
        (·.1 == v)) = true) : p.CanReturn v := by
  obtain ⟨ts, hts, h⟩ := Except.exists_eq_ok_of_any h
  rw [Bool.and_eq_true, bne_iff_ne] at h
  obtain ⟨⟨w, rest⟩, hread, hw⟩ := Except.exists_eq_ok_of_any h.2
  obtain rfl : w = v := eq_of_beq hw
  obtain ⟨a, f, rfl⟩ := (List.eq_nil_or_concat ts).resolve_left h.1
  rw [List.concat_eq_append] at hts hread
  rw [List.getLast?_concat, List.dropLast_concat] at hread
  exact ⟨_, _, a, f, none, a, rest, hts, List.suffix_refl a, hread⟩

theorem CanReturn.drawn {P : α → Prop} (h : p.CanReturn v) (hp : Draws Token.IsGenuine p P) :
    P v := by
  obtain ⟨file, text, a, f, inModule, ts, rest, htokens, hsuffix, hread⟩ := h
  have hgenuine := genuine_of_tokenize htokens
  rw [List.forall_mem_append, List.forall_mem_singleton] at hgenuine
  exact (hp hgenuine.2 (fun t ht => hgenuine.1 t (hsuffix.mem ht)) hread).1

theorem CanReturn.given {P : α → Prop} (h : p.CanReturn v) (hp : Gives p P) : P v := by
  obtain ⟨_, _, _, _, _, _, _, _, _, hread⟩ := h
  exact hp hread

/-- A line is read back if such tokens are read as the value in front of the end of a line. -/
theorem readsBack_of_line {W : List Token → Prop} (h : IsLineOf W text)
    (hread : ∀ scope us newline, W us → newline.kind = .newline →
      p scope (us ++ [newline]) = .ok (v, [newline])) : p.ReadsBack text v := by
  intro file inModule
  obtain ⟨us, newline, final, hus, hn, hf, htokens⟩ := h file
  exact ⟨us, newline, final, hn, hf, htokens, hread _ us newline hus hn⟩

end Parser

end Blueprint
