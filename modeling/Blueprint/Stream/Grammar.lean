import Blueprint.Field.Grammar
import Blueprint.Stream.Basic

/-!
# Grammar of streams
-/

namespace Blueprint.Parser

/-- One more schema, which no other schema may have the name of. -/
def anotherSchema (schemas : List StreamSchema) : Parser (List StreamSchema) := do
  let t ← current
  let n ← name
  if schemas.any (·.name == n) then failAt t (.duplicate "schema" n)
  else return schemas ++ [⟨n, ← fieldBlock⟩]

def streamStatement (s : Stream) : Parser Stream := do
  match ← keyword? with
  | some .kind =>
    return { s with kind := ← keyed (choiceOf "stream kind" StreamKind.all StreamKind.spelling) }
  | some .partitionKey => return { s with partitionKey := some (← keyed name) }
  | some .orderingScope =>
    let scope ← keyed (choiceOf "ordering scope" OrderingScope.all OrderingScope.spelling)
    return { s with orderingScope := scope }
  | some .retention => return { s with retention := some (← keyed duration) }
  | some .schema =>
    if ← peekIs 1 .colon then passOver s
    else
      let _ ← advance
      return { s with schemas := ← anotherSchema s.schemas }
  | some .derivesFrom => return { s with derivesFrom := ← keyed names }
  | some .invariant => return { s with invariants := s.invariants ++ [← keyed string] }
  | _ => passOver s

/-- A stream, with at least one schema, and with an origin if it is derived. -/
def stream : Parser Stream := do
  let location ← here
  let _ ← expectKeyword .stream
  let (n, title) ← header
  let s ← block streamStatement { location, name := n, title }
  if s.schemas.isEmpty then failIn location (.missing "stream" n "schema")
  else if s.kind == .derived && s.derivesFrom.isEmpty then
    failIn location (.missing "derived stream" n "derives_from")
  else return s

end Blueprint.Parser
