/-
The configuration of a run.

A configuration is made of options, each with a name and a default.  The lists of
patterns, the two mappings keyed by rule names and the limit of findings are
checked when a configuration is made; the three switches take any value and count
as on if it is truthy.  `Config.ofOptions` makes a configuration of named options,
and `Config.toOptions` names them again.
-/
import TreeLint.Fault
namespace TreeLint

/-- The configuration of a run. -/
structure Config where
  /-- Patterns over the names of the rules that run. -/
  enabledRules : List String
  /-- Patterns over the names of the rules that do not run, enabled or not. -/
  disabledRules : List String
  /-- The severities that replace those of the rules. -/
  ruleSeverities : List (Value × String)
  /-- Settings that are handed to the rules. -/
  ruleConfigs : List (Value × Value)
  /-- The number of findings of a file after which new ones are dropped. -/
  maxFindings : Option Nat
  /-- Whether a rule that reports wrongly ends the run. -/
  strict : Value
  /-- Whether calls of rules are counted. -/
  collectTiming : Value
  /-- Whether suppression comments are followed. -/
  honorSuppressions : Value
deriving Repr

namespace Config

/-- The option with the patterns of the rules that run. -/
def enabledRulesKey : String := "enabled_rules"

/-- The option with the patterns of the rules that do not run. -/
def disabledRulesKey : String := "disabled_rules"

/-- The option with the severities. -/
def ruleSeveritiesKey : String := "rule_severities"

/-- The option with the settings of rules. -/
def ruleConfigsKey : String := "rule_configs"

/-- The option with the limit of findings. -/
def maxFindingsKey : String := "max_findings_per_file"

/-- The option that makes wrong reports fatal. -/
def strictKey : String := "strict"

/-- The option that counts calls. -/
def collectTimingKey : String := "collect_timing"

/-- The option that turns suppression comments off. -/
def honorSuppressionsKey : String := "honor_suppressions"

/-- The configuration without any option given. -/
def default : Config where
  enabledRules := ["*"]
  disabledRules := []
  ruleSeverities := []
  ruleConfigs := []
  maxFindings := none
  strict := .bool false
  collectTiming := .bool false
  honorSuppressions := .bool true

/-- The options of a configuration, by name. -/
def toOptions (c : Config) : List (String × Value) := [
  (enabledRulesKey, .list (c.enabledRules.map .string)),
  (disabledRulesKey, .list (c.disabledRules.map .string)),
  (ruleSeveritiesKey, .mapping (c.ruleSeverities.map (fun e => (e.1, .string e.2)))),
  (ruleConfigsKey, .mapping c.ruleConfigs),
  (maxFindingsKey, match c.maxFindings with
    | some n => .int n
    | none => .null),
  (strictKey, c.strict),
  (collectTimingKey, c.collectTiming),
  (honorSuppressionsKey, c.honorSuppressions)]

/-- The names of all options. -/
def optionNames : List String := default.toOptions.map (·.1)

/-! ### Checks -/

/-- A value as a list of patterns. -/
def patterns? : Value → Option (List String)
  | .list items => items.mapM (fun v => match v with
    | .string s => some s
    | _ => none)
  | _ => none

section

variable [Machine]

/-- The fault of a value of an option, whose reason shows the value. -/
def refusal (value : Value) (problem : String → ConfigProblem) : Fault :=
  .showing value.quoted (fun shown => .invalidConfig (problem shown))

/-- The fault of a severity that is not known: the reason shows it, and the rule that it is for. -/
def severityRefusal (rule severity : Value) : Fault :=
  .showing severity.text (fun severity =>
    .showing rule.text (fun rule => .invalidConfig (.unknownSeverity rule severity)))

/-- A value as a list of patterns, for an option. -/
def checkPatterns (option : String) (value : Value) : Except Fault (List String) :=
  match patterns? value with
  | some patterns => .ok patterns
  | none => .error (refusal value (.notPatterns option))

/-- A value as the entries of a mapping, for an option. -/
def checkMapping (option : String) : Value → Except Fault (List (Value × Value))
  | .mapping entries => .ok entries
  | value => .error (refusal value (.notMapping option))

/-- A value as a limit of findings, negative ones included. -/
def checkLimit : Value → Except Fault (Option Int)
  | .null => .ok none
  | .int n => .ok (some n)
  | value => .error (refusal value .limitNotInteger)

/-- The severities of rules; the first that is not known is refused. -/
def checkSeverities : List (Value × Value) → Except Fault (List (Value × String))
  | [] => .ok []
  | (rule, value) :: rest =>
    match value with
    | .string s =>
      if severities.contains s then (checkSeverities rest).map ((rule, s) :: ·)
      else .error (severityRefusal rule value)
    | _ => .error (severityRefusal rule value)

end

/-- A limit of findings that is not negative. -/
def checkNotNegative : Option Int → Except Fault (Option Nat)
  | none => .ok none
  | some n => if n < 0 then .error (.invalidConfig .limitNegative) else .ok (some n.toNat)

/-- The value of an option among some, or its default. -/
def optionValue (options : List (String × Value)) (name : String) : Value :=
  match options.lookup name with
  | some v => v
  | none => (default.toOptions.lookup name).getD .null

section

variable [Machine]

/-- Makes a configuration of options; one that is not given has its default.  The patterns are
checked first, then the mappings, the limit, the severities, and last that the limit is not
negative. -/
def ofOptions (options : List (String × Value)) : Except Fault Config := do
  let enabled ← checkPatterns enabledRulesKey (optionValue options enabledRulesKey)
  let disabled ← checkPatterns disabledRulesKey (optionValue options disabledRulesKey)
  let severities ← checkMapping ruleSeveritiesKey (optionValue options ruleSeveritiesKey)
  let configs ← checkMapping ruleConfigsKey (optionValue options ruleConfigsKey)
  let limit ← checkLimit (optionValue options maxFindingsKey)
  let severities ← checkSeverities severities
  let limit ← checkNotNegative limit
  return {
    enabledRules := enabled
    disabledRules := disabled
    ruleSeverities := severities
    ruleConfigs := configs
    maxFindings := limit
    strict := optionValue options strictKey
    collectTiming := optionValue options collectTimingKey
    honorSuppressions := optionValue options honorSuppressionsKey }

/-- Makes a configuration of options that were given by name; one that does not exist is
refused. -/
def ofArguments (options : List (String × Value)) : Except Fault Config :=
  if options.all (fun o => optionNames.contains o.1) then ofOptions options
  else .error (.raised (.other "TypeError") [])

end

/-! ### Questions -/

/-- The severities by rule name; keys that are no text name no rule. -/
def severityTable (c : Config) : List (String × String) :=
  c.ruleSeverities.filterMap (fun e => match e.1 with
    | .string rule => some (rule, e.2)
    | _ => none)

/-- The severity configured for a rule, or another one. -/
def severityOf (c : Config) (rule fallback : String) : String :=
  (c.severityTable.lookup rule).getD fallback

end Config

end TreeLint
