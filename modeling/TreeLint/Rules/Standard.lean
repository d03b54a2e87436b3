/-
The rules that come with the engine.
-/
import TreeLint.Rule.Catalog
import TreeLint.Rules.DoubleLiteral
import TreeLint.Rules.UnsafeHtml
namespace TreeLint

/-- The rules that come with the engine, for the classes of a hierarchy. -/
def standardRules (h : Hierarchy) : List Rule := [UnsafeHtml.rule, DoubleLiteral.rule h]

/-- The rule of a name among those that come with the engine. -/
def standardRule? (h : Hierarchy) (name : String) : Option Rule :=
  (standardRules h).find? (fun r => r.card.any (fun card => card.name == name))

/-- A module that offers one rule and is named after it. -/
def moduleOf (name : String) (rule : Rule) : RuleModule where
  name := name
  offers := [⟨rule.object, .ok rule⟩]

/-- The package of the rules that come with the engine. -/
def standardPackage (h : Hierarchy) : RulePackage where
  name := "lintrules"
  modules := [moduleOf DoubleLiteral.name (DoubleLiteral.rule h),
    moduleOf UnsafeHtml.name UnsafeHtml.rule]

/-- The modules of the engine. -/
def engineModules : List String :=
  ["config", "dispatch", "elements", "errors", "models", "registry", "reporter", "runner",
    "suppressions", "syntax", "type_query", "types"]

/-- The package of the engine itself; its modules offer no rules. -/
def enginePackage : RulePackage where
  name := "lintcore"
  modules := engineModules.map (fun name => { name := name })

end TreeLint
