/-!
# JSON values

The form in which an application is handed on. Objects keep the order of their members, so that a
value has one text. `Encode` gives a type its JSON form; `field`, `optional` and `several` build the
members of a record, the last two leaving out what is absent or empty.
-/

namespace Blueprint

/-- A JSON value whose numbers are whole. -/
inductive Json where
  | null
  | bool (b : Bool)
  | int (n : Int)
  | str (s : String)
  | arr (items : List Json)
  | obj (members : List (String × Json))

/-- Types with a JSON form. -/
class Encode (α : Type) where
  encode : α → Json

export Encode (encode)

instance : Encode Json := ⟨id⟩
instance : Encode String := ⟨.str⟩
instance : Encode Nat := ⟨fun n => .int n⟩
instance : Encode Int := ⟨.int⟩
instance : Encode Bool := ⟨.bool⟩
instance {α : Type} [Encode α] : Encode (List α) := ⟨fun l => .arr (l.map encode)⟩

namespace Json

/-- A member that is always written. -/
def field {α : Type} [Encode α] (key : String) (value : α) : List (String × Json) :=
  [(key, encode value)]

/-- A member that is written when there is a value. -/
def optional {α : Type} [Encode α] (key : String) (value : Option α) : List (String × Json) :=
  match value with
  | some v => [(key, encode v)]
  | none => []

/-- A member that is written when the list is not empty. -/
def several {α : Type} [Encode α] (key : String) (values : List α) : List (String × Json) :=
  if values.isEmpty then [] else [(key, encode values)]

/-- A record marked with the case it belongs to. -/
def tagged (mark case_ : String) (members : List (String × Json)) : Json :=
  .obj ((mark, .str case_) :: members)

/-- A table of texts, in the order of its entries. -/
def table (key : String) (entries : List (String × String)) : List (String × Json) :=
  if entries.isEmpty then [] else [(key, .obj (entries.map fun e => (e.1, .str e.2)))]

end Json

end Blueprint
