import Blueprint.Entity.Expansion
import Blueprint.Fresh
import Blueprint.Surface.Basic
import Blueprint.Text.Case

/-!
# Generated surfaces

An entity with an archetype kind gets the surfaces that its kind calls for, under names made from
its own. A surface that is declared under such a name takes the place of the generated one.
-/

namespace Blueprint

/-- The surfaces that the kind calls for: how their names end, and their modes. -/
def ArchetypeKind.screens : ArchetypeKind → List (String × SurfaceMode)
  | settings | tenantSettings => [("edit", .edit)]
  | tenant => [("list", .list)]
  | user => [("list", .list), ("detail", .view), ("create", .create), ("edit", .edit)]
  | userMembership => [("list", .list), ("edit", .edit)]

/-- Whether only administrators may open the surfaces. -/
def ArchetypeKind.isRestricted : ArchetypeKind → Bool
  | settings | tenantSettings => true
  | _ => false

/-- The title of a surface for things of the given title. -/
def SurfaceMode.titleFor (title : String) : SurfaceMode → String
  | list => title ++ " List"
  | view => title ++ " Details"
  | create => "New " ++ title
  | edit | custom => "Edit " ++ title

/-- Whether the mode shows records as they are and changes nothing. -/
def SurfaceMode.isDisplay : SurfaceMode → Bool
  | list | view => true
  | _ => false

/-- Whether a generated surface of the mode shows the field. Keys and times that are set by
themselves are never shown, and sensitive values only where they can be entered. -/
def Field.isShownIn (mode : SurfaceMode) (f : Field) : Bool :=
  !(f.hasModifier .pk || f.hasModifier .autoAdd || f.hasModifier .autoUpdate) &&
    !(mode.isDisplay && f.hasModifier .sensitive)

/-- The name of a generated surface. -/
def generatedName (entity ending : String) : String :=
  String.ofList (Text.snakeCase entity.toList) ++ "_" ++ ending

/-- The field as a generated surface shows it. -/
def Field.element (f : Field) : SurfaceElement :=
  { fieldName := f.name, label := some (Text.titleWords f.name) }

/-- The surface of one mode. -/
def Entity.generatedSurface (e : Entity) (kind : ArchetypeKind) (ending : String)
    (mode : SurfaceMode) : Surface :=
  { location := e.location
    name := generatedName e.name ending
    title := some (mode.titleFor (e.title.getD e.name))
    entity := some e.name
    mode
    sections :=
      [{ name := "main", elements := (e.fields.filter (·.isShownIn mode)).map (·.element) }]
    access :=
      if kind.isRestricted then some { requireAuth := true, allowPersonas := [adminRole] }
      else none }

/-- All surfaces that the kind of the entity calls for. -/
def Entity.generatedSurfaces (e : Entity) : List Surface :=
  e.archetypeKind.toList.flatMap fun kind =>
    kind.screens.map fun (ending, mode) => e.generatedSurface kind ending mode

/-- The surfaces that the kinds of the entities call for, without those whose names are taken. -/
def generateSurfaces (entities : List Entity) (existing : List Surface) : List Surface :=
  freshlyNamed Surface.name (existing.map Surface.name) (entities.flatMap Entity.generatedSurfaces)

end Blueprint
