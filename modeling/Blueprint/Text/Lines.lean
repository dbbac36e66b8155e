/-!
# Lines of a text

A text is cut at line feeds. The lexer reads every piece (`splitLines`); a reader who quotes a line
counts only the lines a person sees (`visibleLines`), where a final line feed opens no new line.
-/

namespace Blueprint.Text

/-- The pieces between the line feeds of a text: one more than there are line feeds. -/
def splitLines : List Char → List (List Char)
  | [] => [[]]
  | c :: cs =>
    if c = '\n' then [] :: splitLines cs
    else match splitLines cs with
      | l :: ls => (c :: l) :: ls
      | [] => [[c]]

theorem splitLines_ne_nil (cs : List Char) : splitLines cs ≠ [] := by
  fun_cases splitLines cs <;> simp

/-- Joined by line feeds, the pieces are the text. -/
theorem intercalate_splitLines (cs : List Char) : ['\n'].intercalate (splitLines cs) = cs := by
  fun_induction splitLines cs with
  | case1 => simp
  | case2 cs ih =>
    cases h : splitLines cs with
    | nil => exact absurd h (splitLines_ne_nil cs)
    | cons l ls => rw [List.intercalate_cons_cons, ← h, ih]; rfl
  | case3 c cs _ l ls h ih =>
    rw [h] at ih
    cases ls <;> simp_all
  | case4 c cs _ h ih => exact absurd h (splitLines_ne_nil cs)

/-- The first piece ends at the first line feed. -/
theorem splitLines_append {l : List Char} (h : '\n' ∉ l) (cs : List Char) :
    splitLines (l ++ '\n' :: cs) = l :: splitLines cs := by
  induction l with
  | nil => simp [splitLines]
  | cons c l ih =>
    have hc : c ≠ '\n' := fun e => h (e ▸ List.mem_cons_self)
    simp [splitLines, hc, ih fun hm => h (List.mem_cons_of_mem c hm)]

/-- The line without the carriage returns at its end. -/
def trimReturns (l : List Char) : List Char :=
  (l.reverse.dropWhile (· == '\r')).reverse

/-- The line without one carriage return at its end. -/
def chomp (l : List Char) : List Char :=
  match l.reverse with
  | '\r' :: r => r.reverse
  | _ => l

/-- The pieces of a text as lines: each ended line loses one carriage return, and an empty piece
after the last line feed is no line. -/
def endLines : List (List Char) → List (List Char)
  | [] => []
  | [l] => if l.isEmpty then [] else [l]
  | l :: ls => chomp l :: endLines ls

/-- The lines of a text as a person counts them. -/
def visibleLines (text : String) : List (List Char) :=
  endLines (splitLines text.toList)

end Blueprint.Text
