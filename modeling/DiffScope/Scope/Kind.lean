import DiffScope.Syntax.Focus

/-!
# Kinds of units

The functions, methods and classes that a change can lie in, and the nodes of a syntax tree that
are such units. What merely contains units (programs, blocks, object literals, class bodies) is none.
-/

namespace DiffScope.Scope

open DiffScope.Syntax

/-- A kind of unit. -/
inductive Kind where
  /-- A function with a name of its own, generators included. -/
  | functionDeclaration
  | functionExpression
  | arrowFunction
  | classMethod
  | objectMethod
  | classDeclaration
  deriving DecidableEq, Repr, Inhabited

namespace Kind

def all : List Kind :=
  [functionDeclaration, functionExpression, arrowFunction, classMethod, objectMethod,
    classDeclaration]

def name : Kind → String
  | functionDeclaration => "function_declaration"
  | functionExpression => "function_expression"
  | arrowFunction => "arrow_function"
  | classMethod => "class_method"
  | objectMethod => "object_method"
  | classDeclaration => "class_declaration"

def ofName? (s : String) : Option Kind :=
  all.find? fun k => k.name = s

theorem ofName?_name (k : Kind) : ofName? k.name = some k := by
  cases k <;> decide

end Kind

/-- The kind of unit that a node is. -/
def kind? (f : Focus) : Option Kind :=
  if !f.tree.face.isNamed then none else
    match f.tree.kind with
    | "function_declaration" | "generator_function_declaration" => some .functionDeclaration
    | "function_expression" | "function" | "generator_function" => some .functionExpression
    | "arrow_function" => some .arrowFunction
    | "method_definition" =>
      if f.parent?.map Tree.kind = some "class_body" then some .classMethod
      else some .objectMethod
    | "class_declaration" | "abstract_class_declaration" | "class" => some .classDeclaration
    | _ => none

end DiffScope.Scope
