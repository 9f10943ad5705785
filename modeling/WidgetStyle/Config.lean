import WidgetStyle.Style.Field
import WidgetStyle.Text.Sorting

/-!
# Configuration

The choices that hold for a whole styled tree.
-/

namespace WidgetStyle

/-- Whether styles flow from parents to children, which fields do, and whether
rules without a usable selector are reported. -/
structure Config where
  inheritance : Bool := true
  inheritedFields : List Field := Field.inheritedByDefault
  reportsUnreadable : Bool := true
deriving DecidableEq, Repr

/-- Names that no field has, sorted and each once. -/
structure UnknownFields where
  names : List String
deriving DecidableEq, Repr

/-- The wording of the error. -/
def UnknownFields.message (error : UnknownFields) : String :=
  "Unknown inherited properties: " ++ String.intercalate ", " error.names

namespace Config

/-- The fields with the given names, or all the names that belong to none. -/
def fieldsOfNames (names : List String) : Except UnknownFields (List Field) :=
  let unknown := names.filter fun name => (Keyword.ofName? name : Option Field).isNone
  if unknown.isEmpty then .ok (names.eraseDups.filterMap Keyword.ofName?)
  else .error ⟨Text.sortNames unknown.eraseDups⟩

end Config

/-- A name asked for that no field has. -/
structure UnknownField where
  name : String
deriving DecidableEq, Repr

/-- The wording of the error. -/
def UnknownField.message (error : UnknownField) : String :=
  "'Style' object has no attribute '" ++ error.name ++ "'"

namespace Style

/-- What a child starts from when the fields are given by name.  The first name
that no field has is an error. -/
def inheritNamed (parent : Style) (names : List String) : Except UnknownField Style :=
  match names.find? fun name => (Keyword.ofName? name : Option Field).isNone with
  | some unknown => .error ⟨unknown⟩
  | none => .ok (parent.inherit (names.filterMap Keyword.ofName?))

end Style

end WidgetStyle
