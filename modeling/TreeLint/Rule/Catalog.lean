/-
The catalog of known rules and the discovery of rules in packages.

A catalog keeps rules in the order in which they were registered and finds them by
name; of two rules with one name the first stays.  Packages offer rules: first the
package itself, then its modules in the order of their files.  What cannot be
imported, a module of a package that fails, and an offer that yields no rule with a
name, is skipped with a warning, which shows the reason; a reason that cannot be
shown is a fault.  What is named by itself and fails in another way is a fault, too.
-/
import TreeLint.Config.Basic
import TreeLint.Glob
import TreeLint.Rule.Registry
namespace TreeLint

/-- A rule with the card that names it. -/
structure NamedRule where
  /-- The card of the rule. -/
  card : RuleCard
  /-- The rule. -/
  rule : Rule

/-- The name of a rule. -/
def NamedRule.name (r : NamedRule) : String := r.card.name

/-- The known rules. -/
structure Catalog where
  /-- The rules, in the order in which they were registered. -/
  rules : List NamedRule := []
  /-- The rules by name. -/
  index : List (String × NamedRule) := []

/-- Something that a package offers as a rule. -/
structure RuleOffer where
  /-- The offer as messages show it. -/
  object : Value
  /-- The rule, or how making it fails. -/
  rule : Except Fault Rule

/-- A module of a package. -/
structure RuleModule where
  /-- The name of the module inside its package. -/
  name : String
  /-- The rules that the module offers. -/
  offers : List RuleOffer := []
  /-- How importing the module fails, if it does. -/
  broken : Option Fault := none

/-- A package of rules. -/
structure RulePackage where
  /-- The name of the package. -/
  name : String
  /-- The rules that the package itself offers. -/
  offers : List RuleOffer := []
  /-- The modules of the package. -/
  modules : List RuleModule := []
  /-- How importing the package fails, if it does. -/
  broken : Option Fault := none

namespace Catalog

/-- The rule of a name. -/
def get? (c : Catalog) (name : String) : Option NamedRule := c.index.lookup name

/-- Registers a rule, unless there is one of its name.  A rule without a card has no name. -/
def register (c : Catalog) (rule : Rule) : Except Fault Catalog :=
  match rule.card with
  | none => .error (.noMember rule.kind "meta")
  | some card =>
    if (c.get? card.name).isSome then .ok c
    else .ok ⟨c.rules ++ [⟨card, rule⟩], c.index ++ [(card.name, ⟨card, rule⟩)]⟩

/-- The names in the index. -/
def names (c : Catalog) : List String := c.index.map (·.1)

/-- The warning about a name that no rule has. -/
def missingWarning (name : String) : String := s!"Rule '{name}' not found"

/-- The rules of some names, in the order of the names, and warnings about the missing ones. -/
def getRules (c : Catalog) : List String → List NamedRule × List String
  | [] => ([], [])
  | name :: rest =>
    let r := c.getRules rest
    match c.get? name with
    | some rule => (rule :: r.1, r.2)
    | none => (r.1, missingWarning name :: r.2)

/-- The rules whose names match one of the enabled patterns and none of the disabled ones. -/
def enabled (c : Catalog) (enabledPatterns disabledPatterns : List String) : List NamedRule :=
  c.rules.filter (fun r =>
    Glob.matchesAny enabledPatterns r.name && !Glob.matchesAny disabledPatterns r.name)

/-- The identifiers that each rule declares. -/
def codes (c : Catalog) : Except Fault (List (String × List String)) :=
  c.rules.mapM (fun r => r.card.codeIds.map (fun ids => (r.name, ids)))

/-! ### Discovery -/

/-- What can be imported under a name. -/
inductive Import where
  /-- A package. -/
  | package (package : RulePackage)
  /-- A module of a package. -/
  | module (module : RuleModule)

/-- The class of names that nothing has. -/
def missingClass : String := "ModuleNotFoundError"

/-- The classes of failed imports. -/
def importClasses : List String := ["ImportError", missingClass]

/-- The fault of a name that nothing has. -/
def missing (reason : String) : Fault := .raised (.other missingClass) [.string reason]

/-- Whether a fault says that something cannot be imported. -/
def isImport (f : Fault) : Bool :=
  match f.faultClass with
  | .other name => importClasses.contains name
  | _ => false

/-- The fault of a name that cannot be looked for at all. -/
def nameFault? (name : String) : Option Fault :=
  if name = "" then some (.raised (.other "ValueError") [.string "Empty module name"])
  else if name.startsWith "." then some (.raised (.other "TypeError") [])
  else none

/-- Looks for a module of a package, behind whose name others may follow. -/
def importFrom (package : RulePackage) (part : String) (deeper : List String) :
    Except Fault Import :=
  let owner := package.name ++ "." ++ part
  match package.modules.find? (fun m => m.name == part) with
  | none => .error (missing s!"No module named '{owner}'")
  | some m =>
    match m.broken, deeper with
    | some f, _ => .error f
    | none, [] => .ok (.module m)
    | none, next :: _ =>
      .error (missing s!"No module named '{owner}.{next}'; '{owner}' is not a package")

/-- The names that a dotted name is made of. -/
def partsOf (name : String) : List String := (name.toList.splitOn '.').map String.ofList

/-- Looks for what can be imported under a name.  A package is imported before its modules. -/
def import? (packages : List RulePackage) (name : String) : Except Fault Import :=
  match nameFault? name, partsOf name with
  | some f, _ => .error f
  | none, [] => .error (missing s!"No module named '{name}'")
  | none, root :: path =>
    match packages.find? (fun p => p.name == root) with
    | none => .error (missing s!"No module named '{root}'")
    | some package =>
      match package.broken, path with
      | some f, _ => .error f
      | none, [] => .ok (.package package)
      | none, part :: deeper => importFrom package part deeper

/-- What came of a step of a discovery: the fault that ends it, if there is one, the catalog and the
warnings. -/
structure Discovered where
  /-- The fault. -/
  fault : Option Fault := none
  /-- The catalog. -/
  catalog : Catalog
  /-- The warnings. -/
  warnings : List String := []

/-- Goes on with a step unless a fault has ended the discovery. -/
def Discovered.andThen (d : Discovered) (next : Catalog → Discovered) : Discovered :=
  match d.fault with
  | some _ => d
  | none =>
    let e := next d.catalog
    { e with warnings := d.warnings ++ e.warnings }

/-- Takes a step for each of some things, one after the other. -/
def discoverEach {α : Type} (step : α → Catalog → Discovered) : List α → Catalog → Discovered
  | [], c => { catalog := c }
  | a :: rest, c => (step a c).andThen (discoverEach step rest)

/-- Skips something with a warning, if the warning can be told. -/
def skip (warning : Except TextFault String) (c : Catalog) : Discovered :=
  match warning with
  | .ok w => { catalog := c, warnings := [w] }
  | .error why => { fault := some (.text why), catalog := c }

section

variable [Machine]

/-- The warning about something that failed. -/
def failureWarning (opening : String) (f : Fault) : Except TextFault String :=
  return opening ++ ": " ++ (← f.message)

/-- Registers one offer, or warns about it. -/
def addOffer (origin : String) (offer : RuleOffer) (c : Catalog) : Discovered :=
  match offer.rule.bind c.register with
  | .ok c => { catalog := c }
  | .error f =>
    skip (do
      let shown ← offer.object.quoted
      failureWarning s!"Failed to register rule {shown} from {origin}" f) c

/-- Registers offers one after the other. -/
def addOffers (origin : String) : List RuleOffer → Catalog → Discovered :=
  discoverEach (addOffer origin)

/-- Registers what a module of a package offers, or warns about it. -/
def addModule (package : String) (m : RuleModule) (c : Catalog) : Discovered :=
  let name := package ++ "." ++ m.name
  match m.broken with
  | some f => skip (failureWarning s!"Failed to import {name}" f) c
  | none => addOffers name m.offers c

end

/-- What follows the name of a module in the name of its file. -/
def fileMark : String := "."

/-- Whether a module can be found in its package; a dot would divide its name. -/
def canBeFound (m : RuleModule) : Bool := m.name != "" && !m.name.toList.contains '.'

/-- The modules of a package that can be found, in the order of their files. -/
def sortedModules (package : RulePackage) : List RuleModule :=
  (package.modules.filter canBeFound).mergeSort
    (fun a b => decide (a.name ++ fileMark ≤ b.name ++ fileMark))

section

variable [Machine]

/-- Registers what is offered under one name; what cannot be imported is skipped. -/
def discoverOne (packages : List RulePackage) (name : String) (c : Catalog) : Discovered :=
  match import? packages name with
  | .error f =>
    if isImport f then skip (failureWarning s!"Could not import package {name}" f) c
    else { fault := some f, catalog := c }
  | .ok (.module m) => addOffers name m.offers c
  | .ok (.package package) =>
    (addOffers name package.offers c).andThen
      (discoverEach (addModule package.name) (sortedModules package))

/-- Registers what is offered under some names, one after the other, up to the first fault. -/
def discoverAll (packages : List RulePackage) : List String → Catalog → Discovered :=
  discoverEach (discoverOne packages)

/-- Registers what is offered under some names: the number of rules that are new, the catalog
and the warnings. -/
def discover (packages : List RulePackage) (names : List String) (c : Catalog) :
    Except Fault Nat × Catalog × List String :=
  let d := discoverAll packages names c
  match d.fault with
  | some f => (.error f, d.catalog, d.warnings)
  | none => (.ok (d.catalog.rules.length - c.rules.length), d.catalog, d.warnings)

/-- The packages in which rules are looked for unless others are named. -/
def defaultPackages : List String := ["lintrules"]

/-- Discovers rules and lists those that a configuration enables. -/
def loadRules (packages : List RulePackage) (config : Config) (names : List String)
    (c : Catalog) : Except Fault (List NamedRule) × Catalog × List String :=
  let r := c.discover packages (if names.isEmpty then defaultPackages else names)
  match r.1 with
  | .error f => (.error f, r.2)
  | .ok _ => (.ok (r.2.1.enabled config.enabledRules config.disabledRules), r.2)

end

end Catalog

end TreeLint
