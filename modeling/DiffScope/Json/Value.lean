import DiffScope.Overflow

/-!
# JSON values

Values of the notation in which results are written and read back. An object keeps its members in
order. A number that is no count is kept as it is spelt.
-/

namespace DiffScope

/-- A JSON value. -/
inductive Json where
  | null
  | bool (b : Bool)
  /-- A number spelt with digits only. -/
  | natural (n : Nat)
  /-- A number with a sign, a fraction or an exponent. -/
  | numeral (spelling : String)
  | string (s : String)
  | array (items : List Json)
  | object (members : List (String × Json))
  deriving Repr, Inhabited

namespace Json

def ofOption {α : Type} (f : α → Json) : Option α → Json
  | some a => f a
  | none => null

def ofList {α : Type} (f : α → Json) (as : List α) : Json :=
  array (as.map f)

/-- The member for a value that may be absent: it is left out then. -/
def optional {α : Type} (name : String) (f : α → Json) : Option α → List (String × Json)
  | some a => [(name, f a)]
  | none => []

/-! ## Reading values -/

/-- The count that a value is. -/
def count? : Json → Option Nat
  | natural n => if n < countBound then some n else none
  | _ => none

def string? : Json → Option String
  | string s => some s
  | _ => none

def bool? : Json → Option Bool
  | bool b => some b
  | _ => none

def list? {α : Type} (f : Json → Option α) : Json → Option (List α)
  | array items => items.mapM f
  | _ => none

/-- The first member of an object under a name. -/
def member? (name : String) : Json → Option Json
  | object members => (members.find? fun m => m.1 = name).map Prod.snd
  | _ => none

/-- At most one member stands under the name. -/
def isUnrepeated (members : List (String × Json)) (name : String) : Bool :=
  members.countP (·.1 = name) ≤ 1

/-- The fields of a record: the members of an object, none of them given twice, or the items of an
array in the order of the names. Members under other names do not matter, items beyond the names do. -/
def fields? (names : List String) : Json → Option (String → Option Json)
  | object members =>
    if names.all (isUnrepeated members) then some fun name => (object members).member? name else none
  | array items =>
    if items.length ≤ names.length then
      some fun name => (object (names.zip items)).member? name
    else none
  | _ => none

/-- A field that has a value of its own where it is missing. -/
def withDefault {α : Type} (field : Option Json) (f : Json → Option α) (default : α) : Option α :=
  match field with
  | some j => f j
  | none => some default

/-- A field that may be missing or null. -/
def nullable {α : Type} (field : Option Json) (f : Json → Option α) : Option (Option α) :=
  match field with
  | none => some none
  | some null => some none
  | some j => (f j).map some

/-- The name of a case: a text, or an object whose only member is null. -/
def case? : Json → Option String
  | string s => some s
  | object [(s, null)] => some s
  | _ => none

end Json

end DiffScope
