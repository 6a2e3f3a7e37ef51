/-!
# TOML values

Values of the notation in which settings are kept, and how tables grow. A table remembers how it
came to be, since that decides where it may still be added to.
-/

namespace DiffScope

/-- How a table came to be. -/
inductive Toml.Origin where
  /-- It has a header of its own. -/
  | header
  /-- A header names a table below it. -/
  | implied
  /-- A dotted key leads through it. -/
  | dotted
  /-- It is written between braces. -/
  | inline
  deriving DecidableEq, Repr

/-- A TOML value. -/
inductive Toml where
  | integer (n : Int)
  | string (s : String)
  | bool (b : Bool)
  /-- A number with a fraction or an exponent, as it is spelt. -/
  | float (spelling : String)
  /-- A date, a time or both, as they are spelt. -/
  | date (spelling : String)
  | array (items : List Toml)
  | table (origin : Toml.Origin) (members : List (String × Toml))
  /-- Tables that share a header. -/
  | tables (rows : List (List (String × Toml)))
  deriving Repr, Inhabited

namespace Toml

/-- Values under keys, in order. -/
abbrev Members := List (String × Toml)

def lookup (key : String) (ms : Members) : Option Toml :=
  (ms.find? fun m => m.1 = key).map Prod.snd

/-- The members with a value under a key, in place of the one that was there. -/
def put (key : String) (value : Toml) : Members → Members
  | [] => [(key, value)]
  | m :: ms => if m.1 = key then (key, value) :: ms else m :: put key value ms

/-- Adds a value under a key below the tables that a dotted key leads through. Tables on the way
have to come from dotted keys themselves, or at least to have no header yet; the last one has to
come from a dotted key. -/
def add (key : String) (value : Toml) : List String → Members → Option Members
  | [], ms => if (lookup key ms).isSome then none else some (put key value ms)
  | p :: path, ms =>
    match lookup p ms with
    | none => (add key value path []).map fun inner => put p (table .dotted inner) ms
    | some (table origin inner) =>
      if origin = .dotted ∨ (origin = .implied ∧ path ≠ []) then
        (add key value path inner).map fun inner => put p (table origin inner) ms
      else none
    | some (tables rows) =>
      if path = [] then none else
        (add key value path (rows.getLast?.getD [])).map fun inner =>
          put p (tables (rows.dropLast ++ [inner])) ms
    | some _ => none

/-- Adds values under dotted keys one after another. -/
def addAll (ms : Members) : List (List String × String × Toml) → Option Members
  | [] => some ms
  | (path, key, value) :: rest => do addAll (← add key value path ms) rest

/-- Changes what a header names: the value under its last key, below the tables that its other
keys lead through. Of several tables that share a header the last one counts. -/
def atHeader (change : Option Toml → Option Toml) : List String → Members → Option Members
  | [], _ => none
  | [key], ms => (change (lookup key ms)).map fun value => put key value ms
  | p :: path, ms =>
    match lookup p ms with
    | none => (atHeader change path []).map fun inner => put p (table .implied inner) ms
    | some (table origin inner) =>
      if origin = .inline then none else
        (atHeader change path inner).map fun inner => put p (table origin inner) ms
    | some (tables rows) =>
      (atHeader change path (rows.getLast?.getD [])).map fun inner =>
        put p (tables (rows.dropLast ++ [inner])) ms
    | some _ => none

/-! ## Documents -/

/-- A part of a document: what its header names, and the values below it. -/
structure Block where
  /-- The keys of the header; none before the first header. -/
  path : List String
  /-- Whether the header may come several times. -/
  isRow : Bool
  /-- Values under dotted keys. -/
  entries : List (List String × String × Toml)

/-- A document with one more block. -/
def Members.withBlock (ms : Members) (b : Block) : Option Members :=
  if b.path.isEmpty then addAll ms b.entries
  else if b.isRow then
    atHeader (fun old => do
      let row ← addAll [] b.entries
      match old with
      | none => some (tables [row])
      | some (tables rows) => some (tables (rows ++ [row]))
      | some _ => none) b.path ms
  else
    atHeader (fun old =>
      match old with
      | none => (addAll [] b.entries).map (table .header)
      | some (table .implied inner) => (addAll inner b.entries).map (table .header)
      | some _ => none) b.path ms

/-- The document that blocks make up. -/
def ofBlocks (blocks : List Block) : Option Members :=
  blocks.foldlM Members.withBlock []

/-! ## Reading values -/

/-- The count that a value is. -/
def count? : Toml → Option Nat
  | integer n => if 0 ≤ n then some n.toNat else none
  | _ => none

/-- The fields of a record: the members of a table, or the items of an array in the order of the
names. A date is a record without fields. -/
def fields? (names : List String) : Toml → Option (String → Option Toml)
  | table _ members => some fun name => lookup name members
  | array items => some fun name => lookup name (names.zip items)
  | tables rows => some fun name => lookup name (names.zip (rows.map (table .header)))
  | date _ => some fun _ => none
  | _ => none

end Toml

end DiffScope
