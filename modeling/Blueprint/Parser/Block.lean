import Blueprint.Parser.Words

/-!
# Statements and blocks

A statement ends with its line. A block is a colon, the end of the line and statements one level
deeper. Statements that a block does not know are passed over, with the block under them.
-/

namespace Blueprint

/-- Whether a token of the class ends the search for the end of a statement. -/
def TokenKind.endsStatement : TokenKind → Bool
  | .newline | .dedent | .endOfFile | .indent => true
  | _ => false

/-- The tokens behind a block, `depth` levels of which are open. -/
def skipBlock : Nat → List Token → List Token
  | _, [] => []
  | depth, t :: ts =>
    match t.kind with
    | .indent => skipBlock (depth + 1) ts
    | .dedent => if depth ≤ 1 then ts else skipBlock (depth - 1) ts
    | .endOfFile => t :: ts
    | _ => skipBlock depth ts

/-- The tokens without an end of line in front. -/
def skipLineEnd : List Token → List Token
  | [] => []
  | t :: ts => if t.kind = .newline then ts else t :: ts

/-- The tokens behind the statement in front of them and the block under it. -/
def skipStatement (tokens : List Token) : List Token :=
  match skipLineEnd (tokens.dropWhile fun t => !t.kind.endsStatement) with
  | [] => []
  | t :: ts => if t.kind = .indent then skipBlock 1 ts else t :: ts

theorem skipBlock_suffix (depth : Nat) (tokens : List Token) :
    skipBlock depth tokens <:+ tokens := by
  fun_induction skipBlock depth tokens with
  | case1 => exact List.suffix_refl _
  | case2 _ t _ _ ih => exact ih.trans (List.suffix_cons t _)
  | case3 _ t => exact List.suffix_cons t _
  | case4 _ t _ _ _ ih => exact ih.trans (List.suffix_cons t _)
  | case5 => exact List.suffix_refl _
  | case6 _ t _ _ _ _ ih => exact ih.trans (List.suffix_cons t _)

theorem skipLineEnd_suffix (tokens : List Token) : skipLineEnd tokens <:+ tokens := by
  unfold skipLineEnd
  split
  · exact List.suffix_refl _
  · split
    · exact List.suffix_cons _ _
    · exact List.suffix_refl _

/-- Passing over a statement only drops tokens from the front. -/
theorem skipStatement_suffix (tokens : List Token) : skipStatement tokens <:+ tokens := by
  have h := (skipLineEnd_suffix (tokens.dropWhile fun t => !t.kind.endsStatement)).trans
    (List.dropWhile_suffix _)
  unfold skipStatement
  split
  · exact List.nil_suffix
  · next t ts e =>
    rw [e] at h
    split
    · exact ((skipBlock_suffix 1 ts).trans (List.suffix_cons t ts)).trans h
    · exact h

namespace Parser

/-- Passes over a statement and the block under it. -/
def skip : Parser Unit := modify skipStatement

/-- Passes over ends of lines. -/
def skipNewlines : Parser Unit :=
  iterate (fun _ => do if ← accept .newline then return some () else return none) ()

/-- The end of a statement: the end of its line, or the end of its block or file. -/
def endStatement : Parser Unit := do
  if ← isAt .endOfFile then return ()
  else if ← isAt .dedent then return ()
  else
    let _ ← expect .newline
    return ()

/-- `":" NEWLINE INDENT`. -/
def beginBlock : Parser Unit := do
  let _ ← expect .colon
  let _ ← expect .newline
  let _ ← expect .indent
  return ()

/-- Reads statements up to the end of the block and that end, each turning one state into the next.
A statement of which nothing was read is passed over. -/
def statements {σ : Type} (statement : σ → Parser σ) (s : σ) : Parser σ := do
  let last ← iterate (fun s => do
    skipNewlines
    if ← isAt .dedent then return none
    else if ← isAt .endOfFile then return none
    else
      let before ← remaining
      let next ← statement s
      if (← remaining) == before then skip
      return some next) s
  let _ ← accept .dedent
  return last

/-- A block of statements. -/
def block {σ : Type} (statement : σ → Parser σ) (s : σ) : Parser σ := do
  beginBlock
  statements statement s

/-- A block, if a colon comes next, and the end of the statement otherwise. -/
def blockOrEnd {σ : Type} (statement : σ → Parser σ) (s : σ) : Parser σ := do
  if ← isAt .colon then block statement s
  else
    endStatement
    return s

/-- The statements one level deeper than the line that was read last, if there are any. -/
def underneath {σ : Type} (statement : σ → Parser σ) (s : σ) : Parser σ := do
  if ← accept .indent then statements statement s else return s

/-- A value that ends its statement. -/
def closing {α : Type} (value : Parser α) : Parser α := do
  let v ← value
  endStatement
  return v

/-- `":" value NEWLINE`. -/
def directive {α : Type} (value : Parser α) : Parser α := do
  let _ ← expect .colon
  closing value

/-- Reads the keyword of a directive and then `":" value NEWLINE`. -/
def keyed {α : Type} (value : Parser α) : Parser α := do
  let _ ← advance
  directive value

/-- Passes over a statement that changes nothing. -/
def passOver {σ : Type} (s : σ) : Parser σ := do
  skip
  return s

/-- Strings: a single one, a bracketed list, or a block of lines that each hold one behind a
dash. -/
def strings : Parser (List String) := do
  if ← isAt .string then closing (do return [← string])
  else if ← accept .openBracket then
    if ← accept .closeBracket then closing (return [])
    else
      let items ← separated .comma string
      let _ ← expect .closeBracket
      closing (return items)
  else
    let _ ← expect .newline
    if ← accept .indent then
      statements (fun l => do
        let _ ← expect .minus
        return l ++ [← closing string]) []
    else return []

/-- The keyword of a directive, a colon and strings. -/
def keyedStrings : Parser (List String) := do
  let _ ← advance
  let _ ← expect .colon
  strings

/-- The value of a directive that a declaration must have. -/
def required {α : Type} (construct name directive : String) (location : Location) :
    Option α → Parser α
  | some v => return v
  | none => failIn location (.missing construct name directive)

end Parser

end Blueprint
