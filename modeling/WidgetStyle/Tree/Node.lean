import WidgetStyle.Keyword
import WidgetStyle.Style.Basic
import WidgetStyle.Text.Sorting

/-!
# Nodes

A node of a widget tree: what the widget is, which state it is in, where it
stands among its siblings, and how it is styled.  Nodes refer to each other by
their ids only.
-/

namespace WidgetStyle

/-- The name of a node in its tree.  Ids are handed out in ascending order. -/
structure NodeId where
  value : Int
deriving DecidableEq, Repr

namespace NodeId

/-- The id as it is shown. -/
def toText (id : NodeId) : String :=
  "#" ++ toString id.value

/-- The id that is handed out after this one. -/
def next (id : NodeId) : NodeId :=
  ⟨id.value + 1⟩

/-- The ids that are handed out from this one on. -/
def following (first : NodeId) : Nat → List NodeId
  | 0 => []
  | count + 1 => first :: following first.next count

end NodeId

/-! ## What a widget is -/

/-- The type of a widget, the id of the element it stands for, and its classes,
each listed once. -/
structure Identity where
  widgetType : String := ""
  elementId : Option String := none
  classes : List String := []
deriving DecidableEq, Repr

namespace Identity

/-- Names with one name more, if it is new. -/
def insertName (names : List String) (name : String) : List String :=
  if names.contains name then names else names ++ [name]

/-- The identity of the given type and id; repeated classes count once. -/
def ofNames (widgetType : String) (elementId : Option String) (classes : List String) :
    Identity :=
  { widgetType, elementId, classes := classes.foldl insertName [] }

/-- The identity with another element id. -/
def withElementId (identity : Identity) (elementId : String) : Identity :=
  { identity with elementId := some elementId }

/-- The identity with one class more. -/
def insertClass (identity : Identity) (name : String) : Identity :=
  { identity with classes := insertName identity.classes name }

/-- The identity with some classes more. -/
def insertClasses (identity : Identity) (names : List String) : Identity :=
  names.foldl insertClass identity

/-- Whether the widget has the class. -/
def hasClass (identity : Identity) (name : String) : Bool :=
  identity.classes.contains name

/-- Whether two lists hold the same names, in whatever order. -/
def sameNames (left right : List String) : Bool :=
  left.all (right.contains ·) && right.all (left.contains ·)

end Identity

/-! ## State -/

/-- A fact about a node that is either so or not so. -/
inductive Flag where
  | focused
  | hovered
  | disabled
  | selected
  | checked
  | active
  | empty
  | dirty
deriving DecidableEq, Repr

instance : Keyword Flag where
  all := [.focused, .hovered, .disabled, .selected, .checked, .active, .empty, .dirty]
  name
    | .focused => "focused"
    | .hovered => "hovered"
    | .disabled => "disabled"
    | .selected => "selected"
    | .checked => "checked"
    | .active => "active"
    | .empty => "empty"
    | .dirty => "dirty"
  complete value := by cases value <;> decide
  distinct := by decide

/-- Which flags of a node are set.  A dirty node's style has to be computed
anew. -/
structure Flags where
  focused : Bool := false
  hovered : Bool := false
  disabled : Bool := false
  selected : Bool := false
  checked : Bool := false
  active : Bool := false
  empty : Bool := false
  dirty : Bool := false
deriving DecidableEq, Repr

namespace Flags

/-- Whether the flag is set. -/
def read (flags : Flags) : Flag → Bool
  | .focused => flags.focused
  | .hovered => flags.hovered
  | .disabled => flags.disabled
  | .selected => flags.selected
  | .checked => flags.checked
  | .active => flags.active
  | .empty => flags.empty
  | .dirty => flags.dirty

/-- The flags with one flag set or cleared. -/
def write (flags : Flags) (flag : Flag) (value : Bool) : Flags :=
  match flag with
  | .focused => { flags with focused := value }
  | .hovered => { flags with hovered := value }
  | .disabled => { flags with disabled := value }
  | .selected => { flags with selected := value }
  | .checked => { flags with checked := value }
  | .active => { flags with active := value }
  | .empty => { flags with empty := value }
  | .dirty => { flags with dirty := value }

/-- A written flag is read back, and the other flags are left alone. -/
@[simp] theorem read_write (flags : Flags) (flag other : Flag) (value : Bool) :
    (flags.write flag value).read other = if other = flag then value else flags.read other := by
  cases flag <;> cases other <;> rfl

/-- The flags after some changes in order. -/
def writeAll (flags : Flags) (changes : List (Flag × Bool)) : Flags :=
  changes.foldl (fun result change => result.write change.1 change.2) flags

end Flags

/-- The place of a node among its siblings.  A node that was never placed, such
as a root, is at index zero of none and neither first nor last.  Index and total
are integers, so that any two numbers describe a placement. -/
structure Placement where
  index : Int := 0
  total : Int := 0
  isFirst : Bool := false
  isLast : Bool := false
  isOnly : Bool := false
deriving DecidableEq, Repr

namespace Placement

/-- The place at an index among a number of siblings. -/
def ofIndex (index total : Int) : Placement where
  index := index
  total := total
  isFirst := decide (index = 0)
  isLast := decide (index = max (total - 1) 0)
  isOnly := decide (total = 1)

end Placement

/-! ## Nodes -/

/-- One node of a widget tree. -/
structure Node where
  id : NodeId
  identity : Identity
  flags : Flags := {}
  placement : Placement := {}
  parent : Option NodeId := none
  children : List NodeId := []
  computed : Option Style := none
  inlineStyle : Option Style := none
deriving DecidableEq, Repr

namespace Node

/-- The node as it is shown: its type, its element id unless that is empty, its
classes in order, and its own id. -/
def toText (node : Node) : String :=
  node.identity.widgetType ++
  (match node.identity.elementId with
    | some name => if name.isEmpty then "" else "#" ++ name
    | none => "") ++
  String.join ((Text.sortNames node.identity.classes).map ("." ++ ·)) ++
  " (" ++ node.id.toText ++ ")"

/-- The node marked as dirty. -/
def dirtied (node : Node) : Node :=
  { node with flags := { node.flags with dirty := true } }

end Node

end WidgetStyle
