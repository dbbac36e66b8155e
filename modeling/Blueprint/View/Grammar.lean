import Blueprint.Expr.Grammar
import Blueprint.Policy.Grammar
import Blueprint.View.Basic

/-!
# Grammar of views and data products
-/

namespace Blueprint.Parser

/-! ## Views -/

/-- One more column, `name [":" expression]`, which no other column may have the name of. -/
def viewField (fields : List ViewField) : Parser (List ViewField) := do
  let t ← current
  let n ← name
  if fields.any (·.name == n) then failAt t (.duplicate "view field" n)
  else
    let expr ← if ← accept .colon then some <$> computed else pure none
    closing (return fields ++ [⟨n, expr⟩])

/-- The directives of a view as far as they have been read. -/
structure ViewDraft where
  source : Option String := none
  filter : Option Condition := none
  groupBy : List String := []
  fields : List ViewField := []

def viewStatement (d : ViewDraft) : Parser ViewDraft := do
  match ← keyword? with
  | some .source => return { d with source := some (← keyed name) }
  | some .filter => return { d with filter := some (← keyed condition) }
  | some .groupBy => return { d with groupBy := ← keyed names }
  | some .fields =>
    let _ ← advance
    return { d with fields := ← block viewField d.fields }
  | _ => passOver d

/-- A view, with at least one column. -/
def view : Parser View := do
  let location ← here
  let _ ← expectKeyword .view
  let (n, title) ← header
  let d ← block viewStatement {}
  let source ← required "view" n "source" location d.source
  if d.fields.isEmpty then failIn location (.missing "view" n "fields")
  else return {
    location, name := n, title, source, filter := d.filter, groupBy := d.groupBy,
    fields := d.fields }

/-! ## Data products -/

def dataProductStatement (p : DataProduct) : Parser DataProduct := do
  match ← keyword? with
  | some .source => return { p with sources := ← keyed names }
  | some .refresh =>
    let refresh ← keyed (choiceOf "refresh cadence" RefreshCadence.all RefreshCadence.spelling)
    return { p with refresh }
  | some .output => return { p with output := some (← keyed stringOrName) }
  | some .classificationFilter =>
    let classes ← keyed (listedFold (fun l => do return l ++ [← dataClass]) p.classificationFilter)
    return { p with classificationFilter := classes }
  | some .owner => return { p with owner := some (← keyed stringOrName) }
  | _ => passOver p

/-- A data product, with at least one source. -/
def dataProduct : Parser DataProduct := do
  let location ← here
  let _ ← expectKeyword .dataProduct
  let (n, title) ← header
  let p ← block dataProductStatement { location, name := n, title }
  if p.sources.isEmpty then failIn location (.missing "data_product" n "source") else return p

/-- A block of data products. -/
def dataProducts : Parser (List DataProduct) := do
  let _ ← expectKeyword .dataProducts
  block (fun l => do
    if ← isAtKeyword .dataProduct then return l ++ [← dataProduct] else passOver l) []

end Blueprint.Parser
