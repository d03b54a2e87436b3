/-
Settings from the environment.

Three settings change what a configuration file says.  A setting is given
directly, or by a variable, or it has its default.  The names of settings and
variables are compared without regard to case.
-/
import TreeLint.Config.Basic
namespace TreeLint

/-- The settings. -/
structure Settings where
  /-- Whether wrong reports are fatal. -/
  debug : Bool
  /-- The configuration file to use. -/
  configPath : Option String
  /-- Whether calls are counted. -/
  timing : Bool
deriving DecidableEq, Repr

namespace Settings

/-- What the names of all variables start with. -/
def variableStart : String := "lintcore_"

/-- A name in lower case. -/
def lowerCase (s : String) : String := String.ofList (s.toList.map Char.toLower)

/-- The value of the variable of a setting; of several that differ in case the last counts. -/
def fromEnvironment? (environment : List (String × String)) (name : String) : Option Value :=
  (environment.reverse.find? (fun e => lowerCase e.1 == variableStart ++ name)).map
    (fun e => .string e.2)

/-- The value that is given for a setting; of several whose names differ in case the first
counts. -/
def fromArguments? (arguments : List (String × Value)) (name : String) : Option Value :=
  (arguments.find? (fun a => lowerCase a.1 == name)).map (·.2)

/-- The value of a setting among those that are given and the variables. -/
def given? (arguments : List (String × Value)) (environment : List (String × String))
    (name : String) : Option Value :=
  (fromArguments? arguments name).orElse (fun _ => fromEnvironment? environment name)

/-- The words for truth. -/
def trueWords : List String := ["1", "on", "t", "true", "y", "yes"]

/-- The words for falsehood. -/
def falseWords : List String := ["0", "off", "f", "false", "n", "no"]

/-- The truth value that a value stands for. -/
def toBool? : Value → Option Bool
  | .bool b => some b
  | .int n => if n = 1 then some true else if n = 0 then some false else none
  | .float x => if x == 1.0 then some true else if x == 0.0 then some false else none
  | .string s =>
    let word := lowerCase s
    if trueWords.contains word then some true
    else if falseWords.contains word then some false
    else none
  | _ => none

/-- The text that a value stands for, if any. -/
def toText? : Value → Option (Option String)
  | .null => some none
  | .string s => some (some s)
  | _ => none

/-- A switch, off unless it is given. -/
def switch (value : Option Value) : Except Fault Bool :=
  match value with
  | none => .ok false
  | some v =>
    match toBool? v with
    | some b => .ok b
    | none => .error .outOfRange

/-- A text, absent unless it is given. -/
def path (value : Option Value) : Except Fault (Option String) :=
  match value with
  | none => .ok none
  | some v =>
    match toText? v with
    | some s => .ok s
    | none => .error .outOfRange

/-- The settings of given values and variables. -/
def ofSources (arguments : List (String × Value)) (environment : List (String × String)) :
    Except Fault Settings := do
  let debug ← switch (given? arguments environment "debug")
  let configPath ← path (given? arguments environment "config_path")
  let timing ← switch (given? arguments environment "timing")
  return ⟨debug, configPath, timing⟩

/-- Whether settings leave every configuration as it is. -/
def changesNothing (s : Settings) : Bool := !s.debug && !s.timing

/-- A configuration with settings applied to it. -/
def apply (s : Settings) (c : Config) : Config :=
  let c := if s.debug then { c with strict := .bool true } else c
  if s.timing then { c with collectTiming := .bool true } else c

end Settings

end TreeLint
