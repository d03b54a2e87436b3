/-
Configurations that are made of options.

Every option has values that suit it (`Suits`), and the defaults are among them
(`suits_default`).  A configuration is made of options exactly if the values that are
given suit, and then it lays these over the defaults (`ofOptions_eq_ok_iff`,
`exists_ofOptions_eq_ok_iff`).  Otherwise the reason names an option that is given and
shows a value that does not suit it (`exists_blames_of_ofOptions`), never a default; if that
value has no text, the reason cannot be told, which is a fault of its own.
-/
import Mathlib.Data.List.Basic
import TreeLint.Config.Basic
import TreeLint.Proofs.Except
namespace TreeLint.Config

variable {options : List (String × Value)} {config : Config} {option : String} {value : Value}
  {fault : Fault}

/-! ### Values that suit an option -/

/-- Whether a value is a list of texts. -/
def IsPatterns (value : Value) : Prop :=
  ∃ patterns : List String, value = .list (patterns.map .string)

/-- Whether a value is a mapping. -/
def IsMapping (value : Value) : Prop := ∃ entries, value = .mapping entries

/-- Whether a value is a known severity. -/
def IsSeverity (value : Value) : Prop := ∃ s ∈ severities, value = .string s

/-- Whether a value is a mapping to known severities. -/
def IsSeverities (value : Value) : Prop :=
  ∃ entries, value = .mapping entries ∧ ∀ e ∈ entries, IsSeverity e.2

/-- Whether a value is a limit of findings: none, or an integer that is not negative. -/
def IsLimit (value : Value) : Prop := value = .null ∨ ∃ n : Nat, value = .int n

/-- Whether a value suits an option; the three switches take any value. -/
def Suits (option : String) (value : Value) : Prop :=
  if option = enabledRulesKey ∨ option = disabledRulesKey then IsPatterns value
  else if option = ruleSeveritiesKey then IsSeverities value
  else if option = ruleConfigsKey then IsMapping value
  else if option = maxFindingsKey then IsLimit value
  else True

lemma suits_enabledRules : Suits enabledRulesKey value ↔ IsPatterns value := by
  simp [Suits]

lemma suits_disabledRules : Suits disabledRulesKey value ↔ IsPatterns value := by
  simp [Suits]

lemma suits_ruleSeverities : Suits ruleSeveritiesKey value ↔ IsSeverities value := by
  simp [Suits, ruleSeveritiesKey, enabledRulesKey, disabledRulesKey]

lemma suits_ruleConfigs : Suits ruleConfigsKey value ↔ IsMapping value := by
  simp [Suits, ruleConfigsKey, ruleSeveritiesKey, enabledRulesKey, disabledRulesKey]

lemma suits_maxFindings : Suits maxFindingsKey value ↔ IsLimit value := by
  simp [Suits, maxFindingsKey, ruleConfigsKey, ruleSeveritiesKey, enabledRulesKey,
    disabledRulesKey]

/-- Whether the values that are given for options suit them. -/
def AreSuitable (options : List (String × Value)) : Prop :=
  ∀ option value, options.lookup option = some value → Suits option value

/-! ### Options of a configuration -/

/-- The value of an option in a configuration. -/
def value? (c : Config) (option : String) : Option Value := c.toOptions.lookup option

/-- Whether a configuration lays options over the defaults: each option has the value that is given
for it, or its default if none is. -/
def Layers (options : List (String × Value)) (c : Config) : Prop :=
  ∀ option ∈ optionNames, c.value? option = (options.lookup option).or (default.value? option)

lemma optionNames_eq : optionNames = [enabledRulesKey, disabledRulesKey, ruleSeveritiesKey,
    ruleConfigsKey, maxFindingsKey, strictKey, collectTimingKey, honorSuppressionsKey] := rfl

lemma map_fst_toOptions (c : Config) : c.toOptions.map (·.1) = optionNames := rfl

lemma exists_value? (c : Config) (h : option ∈ optionNames) : ∃ v, c.value? option = some v := by
  rw [← map_fst_toOptions c] at h
  obtain ⟨o, ho, rfl⟩ := List.mem_map.1 h
  refine Option.ne_none_iff_exists'.1 fun hnone => ?_
  simpa using List.lookup_eq_none_iff.1 hnone o ho

lemma layers_iff : Layers options config ↔
    ∀ option ∈ optionNames, config.value? option = some (optionValue options option) := by
  refine forall₂_congr fun option hoption => ?_
  obtain ⟨v, hv⟩ := exists_value? default hoption
  have hdefault : default.toOptions.lookup option = some v := hv
  rw [optionValue, hdefault, hv]
  rcases options.lookup option with _ | w <;> rfl

/-- A configuration lays its own options over the defaults. -/
lemma layers_toOptions (c : Config) : Layers c.toOptions c := by
  intro option hoption
  obtain ⟨v, hv⟩ := exists_value? c hoption
  have hlookup : c.toOptions.lookup option = some v := hv
  rw [hv, hlookup, Option.some_or]

/-! ### The checks -/

/-- Texts read one by one from values that are all texts. -/
lemma mapM_text_eq_some_iff {read : Value → Option String} {values : List Value}
    {texts : List String} (h : ∀ v s, read v = some s ↔ v = .string s) :
    values.mapM read = some texts ↔ values = texts.map .string := by
  induction values generalizing texts with
  | nil => cases texts <;> simp
  | cons v rest ih =>
    rw [List.mapM_cons]
    constructor
    · intro hall
      obtain ⟨s, hs, hrest⟩ := Option.bind_eq_some_iff.1 hall
      obtain ⟨ss, hss, hcons⟩ := Option.bind_eq_some_iff.1 hrest
      cases hcons
      rw [(h v s).1 hs, ih.1 hss, List.map_cons]
    · intro hall
      obtain ⟨s, ss, rfl, hs, hss⟩ := List.map_eq_cons_iff.1 hall.symm
      rw [(h v s).2 hs.symm, ih.2 hss.symm]
      rfl

section

variable [Machine]

lemma checkPatterns_eq_ok_iff {patterns : List String} :
    checkPatterns option value = .ok patterns ↔ value = .list (patterns.map .string) := by
  have hread : patterns? value = some patterns ↔ value = .list (patterns.map .string) := by
    cases value <;> simp only [patterns?, reduceCtorEq, Value.list.injEq]
    exact mapM_text_eq_some_iff fun v s => by cases v <;> simp
  rw [checkPatterns, ← hread]
  rcases patterns? value with _ | ps <;> simp

lemma checkMapping_eq_ok_iff {entries : List (Value × Value)} :
    checkMapping option value = .ok entries ↔ value = .mapping entries := by
  cases value <;> simp [checkMapping]

lemma checkSeverities_eq_ok_iff {entries : List (Value × Value)}
    {checked : List (Value × String)} : checkSeverities entries = .ok checked ↔
      entries = checked.map (fun e => (e.1, .string e.2)) ∧ ∀ e ∈ checked, e.2 ∈ severities := by
  induction entries generalizing checked with
  | nil => cases checked <;> simp [checkSeverities]
  | cons entry rest ih =>
    obtain ⟨rule, value⟩ := entry
    constructor
    · intro h
      cases value <;> simp only [checkSeverities, reduceCtorEq] at h
      next s =>
        split at h
        · next hs =>
          rcases hrest : checkSeverities rest with p | others <;> rw [hrest] at h <;> cases h
          obtain ⟨rfl, hknown⟩ := ih.1 hrest
          exact ⟨rfl, List.forall_mem_cons.2 ⟨List.contains_iff_mem.1 hs, hknown⟩⟩
        · cases h
    · rintro ⟨hentries, hknown⟩
      obtain ⟨⟨rule', s⟩, others, rfl, hentry, hrest⟩ := List.map_eq_cons_iff.1 hentries.symm
      cases hentry
      obtain ⟨hs, hothers⟩ := List.forall_mem_cons.1 hknown
      rw [checkSeverities, if_pos (List.contains_iff_mem.2 hs), ih.2 ⟨hrest.symm, hothers⟩]
      rfl

end

/-- A limit of findings as a value. -/
def limitValue : Option Nat → Value
  | some n => .int n
  | none => .null

lemma checkLimit_eq_ok_iff [Machine] {limit : Option Nat} :
    (checkLimit value >>= checkNotNegative) = .ok limit ↔ value = limitValue limit := by
  cases value with
  | null => cases limit <;> simp [checkLimit, checkNotNegative, limitValue, bind, Except.bind]
  | int n =>
    simp only [checkLimit, checkNotNegative, bind, Except.bind]
    rcases limit with _ | m
    · split <;> simp [limitValue]
    · split <;> simp [limitValue] <;> omega
  | _ => cases limit <;> simp [checkLimit, limitValue, bind, Except.bind]

/-! ### A configuration of options -/

/-- A configuration lays options over the defaults if each of its parts is the value of its
option. -/
lemma layers_iff_parts : Layers options config ↔
    .list (config.enabledRules.map .string) = optionValue options enabledRulesKey ∧
    .list (config.disabledRules.map .string) = optionValue options disabledRulesKey ∧
    .mapping (config.ruleSeverities.map (fun e => (e.1, .string e.2))) =
      optionValue options ruleSeveritiesKey ∧
    .mapping config.ruleConfigs = optionValue options ruleConfigsKey ∧
    limitValue config.maxFindings = optionValue options maxFindingsKey ∧
    config.strict = optionValue options strictKey ∧
    config.collectTiming = optionValue options collectTimingKey ∧
    config.honorSuppressions = optionValue options honorSuppressionsKey := by
  rw [layers_iff, optionNames_eq]
  simp only [List.forall_mem_cons, List.not_mem_nil, false_imp_iff, implies_true, and_true]
  iterate 7 refine and_congr Option.some_inj ?_
  exact Option.some_inj

section

variable [Machine]

/-- A configuration that is made of options lays them over the defaults, and its severities are
known; no other is made. -/
lemma ofOptions_eq_ok_iff : ofOptions options = .ok config ↔
    Layers options config ∧ ∀ e ∈ config.ruleSeverities, e.2 ∈ severities := by
  rw [layers_iff_parts]
  constructor
  · intro h
    obtain ⟨enabled, henabled, h⟩ := Except.bind_eq_ok_iff.1 h
    obtain ⟨disabled, hdisabled, h⟩ := Except.bind_eq_ok_iff.1 h
    obtain ⟨entries, hentries, h⟩ := Except.bind_eq_ok_iff.1 h
    obtain ⟨configs, hconfigs, h⟩ := Except.bind_eq_ok_iff.1 h
    obtain ⟨limit, hlimit, h⟩ := Except.bind_eq_ok_iff.1 h
    obtain ⟨checked, hchecked, h⟩ := Except.bind_eq_ok_iff.1 h
    obtain ⟨natural, hnatural, h⟩ := Except.bind_eq_ok_iff.1 h
    cases h
    obtain ⟨rfl, hknown⟩ := checkSeverities_eq_ok_iff.1 hchecked
    exact ⟨⟨(checkPatterns_eq_ok_iff.1 henabled).symm, (checkPatterns_eq_ok_iff.1 hdisabled).symm,
      (checkMapping_eq_ok_iff.1 hentries).symm, (checkMapping_eq_ok_iff.1 hconfigs).symm,
      (checkLimit_eq_ok_iff.1 (Except.bind_eq_ok_iff.2 ⟨limit, hlimit, hnatural⟩)).symm,
      rfl, rfl, rfl⟩, hknown⟩
  · rintro ⟨⟨henabled, hdisabled, hseverities, hconfigs, hlimit, hstrict, htiming, hhonor⟩, hknown⟩
    obtain ⟨limit, hlimit, hnatural⟩ := Except.bind_eq_ok_iff.1 (checkLimit_eq_ok_iff.2 hlimit.symm)
    rw [ofOptions, checkPatterns_eq_ok_iff.2 henabled.symm,
      checkPatterns_eq_ok_iff.2 hdisabled.symm, checkMapping_eq_ok_iff.2 hseverities.symm,
      checkMapping_eq_ok_iff.2 hconfigs.symm, hlimit, ← hstrict, ← htiming, ← hhonor]
    show (checkSeverities _ >>= fun _ => checkNotNegative limit >>= _) = _
    rw [checkSeverities_eq_ok_iff.2 ⟨rfl, hknown⟩]
    show (checkNotNegative limit >>= _) = _
    rw [hnatural]
    rfl

/-- A configuration of named arguments is one of options that all exist. -/
lemma ofArguments_eq_ok_iff : ofArguments options = .ok config ↔
    (∀ o ∈ options, o.1 ∈ optionNames) ∧ ofOptions options = .ok config := by
  unfold ofArguments
  split
  · next hnames =>
    have hexist : ∀ o ∈ options, o.1 ∈ optionNames := by simpa using hnames
    rw [and_iff_right hexist]
  · next hnames =>
    have hmissing : ¬∀ o ∈ options, o.1 ∈ optionNames := by simpa using hnames
    exact iff_of_false (fun h => nomatch h) fun h => hmissing h.1

/-- A configuration with known severities is made of its own options. -/
lemma ofArguments_toOptions (h : ∀ e ∈ config.ruleSeverities, e.2 ∈ severities) :
    ofArguments config.toOptions = .ok config := by
  refine ofArguments_eq_ok_iff.2
    ⟨fun o ho => ?_, ofOptions_eq_ok_iff.2 ⟨layers_toOptions config, h⟩⟩
  rw [← map_fst_toOptions config]
  exact List.mem_map_of_mem ho

end

/-! ### Options that make a configuration -/

lemma mem_toOptions_of_value? (h : config.value? option = some value) :
    (option, value) ∈ config.toOptions := by
  obtain ⟨before, after, hall, -⟩ := List.lookup_eq_some_iff.1 h
  rw [hall]
  exact List.mem_append_right _ List.mem_cons_self

/-- What is no option takes any value. -/
lemma suits_of_not_mem (h : option ∉ optionNames) : Suits option value := by
  simp only [optionNames_eq, List.mem_cons, not_or] at h
  obtain ⟨henabled, hdisabled, hseverities, hconfigs, hlimit, -⟩ := h
  rw [Suits, if_neg (not_or.2 ⟨henabled, hdisabled⟩), if_neg hseverities, if_neg hconfigs,
    if_neg hlimit]
  trivial

lemma isSeverities_map {checked : List (Value × String)} (h : ∀ e ∈ checked, e.2 ∈ severities) :
    IsSeverities (.mapping (checked.map fun e => (e.1, .string e.2))) := by
  refine ⟨_, rfl, fun e he => ?_⟩
  obtain ⟨c, hc, rfl⟩ := List.mem_map.1 he
  exact ⟨c.2, h c hc, rfl⟩

lemma IsSeverities.exists_checked (h : IsSeverities value) : ∃ checked : List (Value × String),
    value = .mapping (checked.map fun e => (e.1, .string e.2)) ∧
      ∀ e ∈ checked, e.2 ∈ severities := by
  obtain ⟨entries, rfl, hall⟩ := h
  induction entries with
  | nil => exact ⟨[], rfl, fun e he => nomatch he⟩
  | cons entry rest ih =>
    obtain ⟨⟨s, hs, hvalue⟩, hrest⟩ := List.forall_mem_cons.1 hall
    obtain ⟨checked, hchecked, hknown⟩ := ih hrest
    refine ⟨(entry.1, s) :: checked, ?_, List.forall_mem_cons.2 ⟨hs, hknown⟩⟩
    rw [List.map_cons, ← hvalue, ← Value.mapping.inj hchecked]

lemma isLimit_iff : IsLimit value ↔ ∃ limit, value = limitValue limit := by
  rw [Option.exists]
  rfl

/-- The options of a configuration with known severities suit, whatever its switches are. -/
lemma suits_of_mem_toOptions (h : ∀ e ∈ config.ruleSeverities, e.2 ∈ severities) :
    ∀ o ∈ config.toOptions, Suits o.1 o.2 := by
  have hswitch : ∀ option ∈ [strictKey, collectTimingKey, honorSuppressionsKey], ∀ value,
      Suits option value := by
    simp [Suits, strictKey, collectTimingKey, honorSuppressionsKey, maxFindingsKey, ruleConfigsKey,
      ruleSeveritiesKey, enabledRulesKey, disabledRulesKey]
  simp only [toOptions, List.forall_mem_cons, List.not_mem_nil, false_imp_iff, implies_true,
    and_true]
  refine ⟨suits_enabledRules.2 ⟨_, rfl⟩, suits_disabledRules.2 ⟨_, rfl⟩,
    suits_ruleSeverities.2 (isSeverities_map h), suits_ruleConfigs.2 ⟨_, rfl⟩,
    suits_maxFindings.2 (isLimit_iff.2 ⟨config.maxFindings, rfl⟩), hswitch _ ?_ _, hswitch _ ?_ _,
    hswitch _ ?_ _⟩ <;> simp

/-- Every default passes its own check. -/
lemma suits_default : ∀ o ∈ default.toOptions, Suits o.1 o.2 :=
  suits_of_mem_toOptions fun _ h => nomatch h

/-- If the values that are given suit, so do all values that are used. -/
lemma AreSuitable.suits_optionValue (h : AreSuitable options) (hoption : option ∈ optionNames) :
    Suits option (optionValue options option) := by
  rw [optionValue]
  rcases hgiven : options.lookup option with _ | v
  · obtain ⟨v, hv⟩ := exists_value? default hoption
    have hdefault : default.toOptions.lookup option = some v := hv
    rw [hdefault]
    exact suits_default _ (mem_toOptions_of_value? hv)
  · exact h option v hgiven

/-- A value that does not suit is one that is given. -/
lemma lookup_of_not_suits (hoption : option ∈ optionNames)
    (h : ¬Suits option (optionValue options option)) :
    options.lookup option = some (optionValue options option) := by
  have hdefault : optionValue [] option = (default.toOptions.lookup option).getD .null := rfl
  have hsuits : Suits option (optionValue [] option) :=
    AreSuitable.suits_optionValue (fun _ _ hgiven => nomatch hgiven) hoption
  rw [optionValue] at h ⊢
  rcases hgiven : options.lookup option with _ | v
  · rw [hgiven, ← hdefault] at h
    exact absurd hsuits h
  · rfl

section

variable [Machine]

/-- A configuration is made of options exactly if their values suit. -/
lemma exists_ofOptions_eq_ok_iff : (∃ c, ofOptions options = .ok c) ↔ AreSuitable options := by
  constructor
  · rintro ⟨c, hc⟩ option value hgiven
    obtain ⟨hlayers, hknown⟩ := ofOptions_eq_ok_iff.1 hc
    by_cases hoption : option ∈ optionNames
    · have hvalue := hlayers option hoption
      rw [hgiven, Option.some_or] at hvalue
      exact suits_of_mem_toOptions hknown _ (mem_toOptions_of_value? hvalue)
    · exact suits_of_not_mem hoption
  · intro h
    have huse : ∀ option ∈ optionNames, Suits option (optionValue options option) :=
      fun _ => h.suits_optionValue
    simp only [optionNames_eq, List.forall_mem_cons, suits_enabledRules, suits_disabledRules,
      suits_ruleSeverities, suits_ruleConfigs, suits_maxFindings] at huse
    obtain ⟨⟨enabled, henabled⟩, ⟨disabled, hdisabled⟩, hseverities, ⟨configs, hconfigs⟩, hlimit,
      -⟩ := huse
    obtain ⟨checked, hchecked, hknown⟩ := hseverities.exists_checked
    obtain ⟨limit, hlimit⟩ := isLimit_iff.1 hlimit
    refine ⟨⟨enabled, disabled, checked, configs, limit, _, _, _⟩, ofOptions_eq_ok_iff.2
      ⟨layers_iff_parts.2 ⟨henabled.symm, hdisabled.symm, hchecked.symm, hconfigs.symm, hlimit.symm,
        rfl, rfl, rfl⟩, hknown⟩⟩

/-! ### Options that are refused -/

/-- The fault of options that are refused: the reason, or that it cannot be told. -/
def refused : Except TextFault ConfigProblem → Fault
  | .ok problem => .invalidConfig problem
  | .error why => .text why

/-- The reasons to refuse options.  Each names an option that is given, and shows its value, or a
part of it, that does not suit; it can be told if what it shows has a text. -/
inductive Blames (options : List (String × Value)) : Except TextFault ConfigProblem → Prop where
  /-- An option that lists patterns has another value. -/
  | patterns {o : String} {v : Value} (hoption : o = enabledRulesKey ∨ o = disabledRulesKey)
      (hgiven : options.lookup o = some v) (hnot : ¬IsPatterns v) :
      Blames options (v.quoted.map (.notPatterns o))
  /-- An option that is keyed by rule names has another value. -/
  | mapping {o : String} {v : Value} (hoption : o = ruleSeveritiesKey ∨ o = ruleConfigsKey)
      (hgiven : options.lookup o = some v) (hnot : ¬IsMapping v) :
      Blames options (v.quoted.map (.notMapping o))
  /-- The limit is no integer. -/
  | limit {v : Value} (hgiven : options.lookup maxFindingsKey = some v) (hnull : v ≠ .null)
      (hint : ∀ n, v ≠ .int n) : Blames options (v.quoted.map .limitNotInteger)
  /-- The limit is negative. -/
  | negative {n : Int} (hn : n < 0) (hgiven : options.lookup maxFindingsKey = some (.int n)) :
      Blames options (.ok .limitNegative)
  /-- The severity of a rule is not known. -/
  | severity {entries : List (Value × Value)} {rule severity : Value}
      (hgiven : options.lookup ruleSeveritiesKey = some (.mapping entries))
      (hmem : (rule, severity) ∈ entries) (hnot : ¬IsSeverity severity) :
      Blames options (do
        let severity ← severity.text
        let rule ← rule.text
        return .unknownSeverity rule severity)

lemma refusal_eq_refused (value : Value) (problem : String → ConfigProblem) :
    refusal value problem = refused (value.quoted.map problem) := by
  unfold refusal
  rcases value.quoted with why | shown <;> rfl

lemma severityRefusal_eq_refused (rule severity : Value) :
    severityRefusal rule severity = refused (do
      let severity ← severity.text
      let rule ← rule.text
      return .unknownSeverity rule severity) := by
  unfold severityRefusal
  rcases severity.text with why | s
  · rfl
  · rcases rule.text with why | r <;> rfl

lemma of_checkPatterns_eq_error (h : checkPatterns option value = .error fault) :
    fault = refusal value (.notPatterns option) ∧ ¬IsPatterns value := by
  constructor
  · unfold checkPatterns at h
    split at h <;> cases h
    rfl
  · rintro ⟨patterns, hvalue⟩
    rw [checkPatterns_eq_ok_iff.2 hvalue] at h
    cases h

lemma of_checkMapping_eq_error (h : checkMapping option value = .error fault) :
    fault = refusal value (.notMapping option) ∧ ¬IsMapping value := by
  cases value <;> simp only [checkMapping, Except.error.injEq, reduceCtorEq] at h
  all_goals exact ⟨h.symm, fun ⟨_, hvalue⟩ => nomatch hvalue⟩

lemma of_checkLimit_eq_error (h : checkLimit value = .error fault) :
    fault = refusal value .limitNotInteger ∧ value ≠ .null ∧ ∀ n, value ≠ .int n := by
  cases value <;> simp only [checkLimit, Except.error.injEq, reduceCtorEq] at h
  all_goals exact ⟨h.symm, Value.noConfusion, fun _ => Value.noConfusion⟩

lemma of_checkNotNegative_eq_error {limit : Option Int} (hlimit : checkLimit value = .ok limit)
    (h : checkNotNegative limit = .error fault) :
    fault = .invalidConfig .limitNegative ∧ ∃ n < 0, value = .int n := by
  cases value <;> cases hlimit
  case null => cases h
  case int n =>
    simp only [checkNotNegative] at h
    split at h
    · next hn =>
      cases h
      exact ⟨rfl, n, hn, rfl⟩
    · cases h

lemma of_checkSeverities_eq_error {entries : List (Value × Value)}
    (h : checkSeverities entries = .error fault) : ∃ rule severity,
      fault = severityRefusal rule severity ∧ (rule, severity) ∈ entries ∧
        ¬IsSeverity severity := by
  induction entries with
  | nil => cases h
  | cons entry rest ih =>
    obtain ⟨rule, value⟩ := entry
    by_cases hvalue : IsSeverity value
    · obtain ⟨s, hs, rfl⟩ := hvalue
      rw [checkSeverities, if_pos (List.contains_iff_mem.2 hs)] at h
      rcases hrest : checkSeverities rest with p | others <;> rw [hrest] at h <;> cases h
      obtain ⟨rule', severity, rfl, hmem, hnot⟩ := ih hrest
      exact ⟨rule', severity, rfl, List.mem_cons_of_mem _ hmem, hnot⟩
    · refine ⟨rule, value, ?_, List.mem_cons_self, hvalue⟩
      cases value <;> simp only [checkSeverities] at h
      case string s =>
        rw [if_neg fun hs => hvalue ⟨s, List.contains_iff_mem.1 hs, rfl⟩] at h
        exact (Except.error.inj h).symm
      all_goals exact (Except.error.inj h).symm

/-- Options are only refused for one that is given, with a value that does not suit it. -/
lemma exists_blames_of_ofOptions (h : ofOptions options = .error fault) :
    ∃ reason, Blames options reason ∧ fault = refused reason := by
  have hgiven : ∀ option ∈ optionNames, ¬Suits option (optionValue options option) →
      options.lookup option = some (optionValue options option) := fun _ => lookup_of_not_suits
  simp only [optionNames_eq, List.forall_mem_cons, suits_enabledRules, suits_disabledRules,
    suits_ruleSeverities, suits_ruleConfigs, suits_maxFindings] at hgiven
  obtain ⟨genabled, gdisabled, gseverities, gconfigs, glimit, -⟩ := hgiven
  rcases Except.bind_eq_error_iff.1 h with h | ⟨enabled, -, h⟩
  · obtain ⟨rfl, hnot⟩ := of_checkPatterns_eq_error h
    exact ⟨_, .patterns (.inl rfl) (genabled hnot) hnot, refusal_eq_refused _ _⟩
  rcases Except.bind_eq_error_iff.1 h with h | ⟨disabled, -, h⟩
  · obtain ⟨rfl, hnot⟩ := of_checkPatterns_eq_error h
    exact ⟨_, .patterns (.inr rfl) (gdisabled hnot) hnot, refusal_eq_refused _ _⟩
  rcases Except.bind_eq_error_iff.1 h with h | ⟨entries, hentries, h⟩
  · obtain ⟨rfl, hnot⟩ := of_checkMapping_eq_error h
    exact ⟨_, .mapping (.inl rfl) (gseverities fun ⟨es, hes, _⟩ => hnot ⟨es, hes⟩) hnot,
      refusal_eq_refused _ _⟩
  rcases Except.bind_eq_error_iff.1 h with h | ⟨configs, -, h⟩
  · obtain ⟨rfl, hnot⟩ := of_checkMapping_eq_error h
    exact ⟨_, .mapping (.inr rfl) (gconfigs hnot) hnot, refusal_eq_refused _ _⟩
  rcases Except.bind_eq_error_iff.1 h with h | ⟨limit, hlimit, h⟩
  · obtain ⟨rfl, hnull, hint⟩ := of_checkLimit_eq_error h
    refine ⟨_, .limit (glimit ?_) hnull hint, refusal_eq_refused _ _⟩
    rintro (hvalue | ⟨n, hvalue⟩)
    · exact hnull hvalue
    · exact hint n hvalue
  rcases Except.bind_eq_error_iff.1 h with h | ⟨checked, -, h⟩
  · obtain ⟨rule, severity, rfl, hmem, hnot⟩ := of_checkSeverities_eq_error h
    have hmapping := checkMapping_eq_ok_iff.1 hentries
    refine ⟨_, .severity (hmapping ▸ gseverities ?_) hmem hnot, severityRefusal_eq_refused _ _⟩
    rintro ⟨es, hes, hall⟩
    cases hmapping.symm.trans hes
    exact hnot (hall _ hmem)
  rcases Except.bind_eq_error_iff.1 h with h | ⟨natural, -, h⟩
  · obtain ⟨rfl, n, hn, hvalue⟩ := of_checkNotNegative_eq_error hlimit h
    refine ⟨_, .negative hn (hvalue ▸ glimit ?_), rfl⟩
    rintro (hnull | ⟨m, hm⟩)
    · cases hvalue.symm.trans hnull
    · cases hvalue.symm.trans hm
      exact absurd hn (by omega)
  · cases h

end

end TreeLint.Config
