/-
Resolved elements: what names in a program refer to.

Only variables and parameters have a type of their own, and only variables and
executables can be members of a class.  Elements that are alike are still told
apart: each has a number, and a class is itself one.
-/
import TreeLint.Model.Type
namespace TreeLint

/-- How an argument is passed to a parameter. -/
inductive ParameterKind where
  /-- By position, always. -/
  | requiredPositional
  /-- By position, or not at all. -/
  | optionalPositional
  /-- By name. -/
  | named
deriving DecidableEq, Repr

/-- A parameter of an executable. -/
structure Parameter where
  /-- The number that tells the parameter from all other elements. -/
  key : Nat
  /-- The name of the parameter. -/
  name : String
  /-- The declared type. -/
  type : Ty
  /-- How its argument is passed. -/
  kind : ParameterKind
deriving Repr, DecidableEq

/-- Whether the argument of a parameter is passed by name. -/
def Parameter.isNamed (p : Parameter) : Bool := p.kind == .named

/-- A function, method, constructor, getter or setter. -/
structure Executable where
  /-- The number that tells the executable from all other elements. -/
  key : Nat
  /-- The name of the executable. -/
  name : String
  /-- The parameters, in the order of their declaration. -/
  parameters : List Parameter
  /-- The declared type of the result. -/
  returnType : Ty
  /-- The class that the executable is a member of. -/
  enclosing : Option ClassId
deriving Repr, DecidableEq

namespace Executable

/-- The parameters whose arguments are passed by position. -/
def positional (e : Executable) : List Parameter :=
  e.parameters.filter (fun p => !p.isNamed)

/-- The parameters whose arguments are passed by name. -/
def named (e : Executable) : List Parameter :=
  e.parameters.filter Parameter.isNamed

/-- The first named parameter of a name. -/
def named? (e : Executable) (name : String) : Option Parameter :=
  e.parameters.find? (fun p => p.isNamed && p.name == name)

end Executable

/-- A field or a variable. -/
structure Variable where
  /-- The number that tells the variable from all other elements. -/
  key : Nat
  /-- The name of the variable. -/
  name : String
  /-- The type of the variable. -/
  type : Ty
  /-- The class that the variable is a member of. -/
  enclosing : Option ClassId
deriving Repr, DecidableEq

/-- What a name refers to. -/
inductive Element where
  /-- A class. -/
  | ofClass (cls : ClassId)
  /-- A function, method, constructor, getter or setter. -/
  | executable (e : Executable)
  /-- A parameter. -/
  | parameter (p : Parameter)
  /-- A field or a variable. -/
  | variable (v : Variable)
deriving Repr, DecidableEq

namespace Element

/-- The name of an element; that of a class stands with its declaration. -/
def name? : Element → Option String
  | .executable e => some e.name
  | .parameter p => some p.name
  | .variable v => some v.name
  | .ofClass _ => none

/-- The type of an element that has one of its own. -/
def type : Element → Ty
  | .parameter p => p.type
  | .variable v => v.type
  | .ofClass _ | .executable _ => .unresolved

/-- The class that an element is a member of. -/
def enclosing : Element → Option ClassId
  | .executable e => e.enclosing
  | .variable v => v.enclosing
  | .ofClass _ | .parameter _ => none

/-- The element as an executable. -/
def executable? : Element → Option Executable
  | .executable e => some e
  | _ => none

/-- The type of the class that an element is a member of. -/
def enclosingType (e : Element) : Option Ty := e.enclosing.map Ty.ofClass

end Element

end TreeLint
