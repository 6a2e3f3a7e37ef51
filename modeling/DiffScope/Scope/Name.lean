import DiffScope.Scope.Kind
import DiffScope.Syntax.Source

/-!
# Names of units

A unit is called by its own name, else by what it is assigned to: the variable that it initialises,
the key or field whose value it is, or the target of an assignment. Within the options of a
component, a unit also belongs to the option that it is declared in.
-/

namespace DiffScope.Scope

open DiffScope.Syntax

def anonymous : String := "<anonymous>"

/-- A quote that may stand around a key. -/
def isQuote (c : Char) : Bool :=
  c = '"' || c = '\x27' || c = '\x60'

def trimQuotes (text : List Char) : List Char :=
  ((text.dropWhile isQuote).reverse.dropWhile isQuote).reverse

/-- The text of a key; that of a string is what its quotes enclose. A key may not lie in the text, and
then this is said. -/
def keyText (s : Source) (key : Tree) : Except String String :=
  match s.get? key.start key.stop with
  | some text => .ok (String.ofList (if key.kind = "string" then trimQuotes text else text))
  | none => .error (key.kind ++ " span " ++ toString (s.offset key.start) ++ ".."
      ++ toString (s.offset key.stop) ++ " outside source")

/-- By kind of node, the field whose value a unit may be and the field that names the value. -/
def namedValues : List (String × String × String) :=
  [("variable_declarator", "value", "name"), ("pair", "value", "key"),
    ("field_definition", "value", "property"), ("public_field_definition", "value", "name"),
    ("assignment_expression", "right", "left")]

/-- The node that names a unit. -/
def nameNode? (f : Focus) : Option Tree :=
  match f.tree.child? "name" with
  | some name => some name
  | none => do
    let parent ← f.parent?
    let (_, value, name) ← namedValues.find? fun v => v.1 = parent.kind
    if f.isIn value then parent.child? name else none

def nameOf (s : Source) (f : Focus) : Except String String :=
  match nameNode? f with
  | some name => keyText s name
  | none => .ok anonymous

/-! ## Options of a component -/

/-- Steps up from a unit in which its options object is looked for. -/
def optionReach : Nat := 8

def isDefaultExport (t : Tree) : Bool :=
  t.kind = "export_statement" &&
    t.children.any fun c => !c.face.isNamed && c.kind = "default"

/-- Whether a node is the options object of a component: an object that is exported by default,
directly or as an argument of a call. -/
def isOptions (t : Tree) (above : List Tree) : Bool :=
  t.kind = "object" &&
    match above with
    | parent :: rest =>
      if parent.kind = "export_statement" then isDefaultExport parent
      else if parent.kind = "arguments" then
        match rest with
        | call :: exported :: _ => call.kind = "call_expression" && isDefaultExport exported
        | _ => false
      else false
    | [] => false

/-- The node that names a member of an options object. -/
def memberKey? (member : Tree) : Option Tree :=
  match member.kind with
  | "pair" => member.child? "key"
  | "method_definition" => member.child? "name"
  | _ => none

/-- Looks for an options object above a node, so many steps up, for the key of the node below the
object on the way. -/
def optionKey? : Nat → Tree → List Tree → Option Tree
  | 0, _, _ => none
  | _ + 1, _, [] => none
  | reach + 1, t, parent :: above =>
    if isOptions parent above then memberKey? t else optionKey? reach parent above

/-- The option of a component that a unit is declared in, if any. -/
def optionOf (s : Source) (f : Focus) : Except String (Option String) :=
  match optionKey? optionReach f.tree f.above with
  | some key => (keyText s key).map some
  | none => .ok none

end DiffScope.Scope
