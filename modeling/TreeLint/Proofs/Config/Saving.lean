/-
Configurations that are saved and loaded again.

Loading lays the options in a file over the defaults, so it is the inverse of saving: a
configuration that was made of options has all of them in its file, under the names and
with values that suit, and so they make one like it.  How a format writes values and reads
them again is not looked into here; that they are alike afterwards is assumed of the
configuration at hand (`isReadBack`).
-/
import TreeLint.Proofs.Config.FileTree
import TreeLint.Proofs.Config.Loading
import TreeLint.Proofs.Lists
import TreeLint.Proofs.Value.Alike
namespace TreeLint.Config

variable {format : Format} {files files' : FileTree} {path : String}
  {entries : List (Value × Value)}
  {options : List (String × Value)} {config : Config} {option : String} {v w : Value}

/-! ### Saving -/

/-- What a format writes of a configuration, with the fault that ends it, if there is one. -/
def written (format : Format) (c : Config) : String × Option Fault :=
  format.write (asEntries c.toOptions)

/-- A configuration is saved if it is written without a fault, and a file can hold the text. -/
lemma save_eq_none_iff : config.save format files path = (files', none) ↔
    (written format config).2 = none ∧
      files.save path (written format config).1 = (files', none) := by
  rcases hwritten : format.write (asEntries config.toOptions) with ⟨text, fault⟩
  rw [written, save, hwritten]
  rcases hsaved : files.save path text with ⟨saved, _ | problem⟩ <;> simp [hsaved, and_comm]

/-! ### What is read again -/

/-- Whether the text that a format writes of a configuration is read as a mapping that is like its
options. -/
def isReadBack (format : Format) (c : Config) : Bool :=
  (entriesIn? format (written format c).1).any (Value.entriesAlike (asEntries c.toOptions))

/-- Whether the options of two configurations are alike, each to that of the same name. -/
def IsAlike (c d : Config) : Prop :=
  ∀ option ∈ optionNames, ∃ v w, c.value? option = some v ∧ d.value? option = some w ∧ v.alike w

/-- Whether options are named as others are, in some order, and hold for each name a value like the
one of the others. -/
def AreRead (options read : List (String × Value)) : Prop :=
  (options.map (·.1)).Perm (read.map (·.1)) ∧ ∀ o ∈ options, ∃ w, (o.1, w) ∈ read ∧ o.2.alike w

lemma exists_areRead_of_forall₂ (h : List.Forall₂ (fun e f => e.1.alike f.1 ∧ e.2.alike f.2)
    (asEntries options) entries) : ∃ read, entries = asEntries read ∧ AreRead options read := by
  induction options generalizing entries with
  | nil => exact ⟨[], List.forall₂_nil_left_iff.1 h, .nil, List.forall_mem_nil _⟩
  | cons o rest ih =>
    obtain ⟨⟨key, w⟩, others, ⟨hkey, hvalue⟩, hrest, rfl⟩ := List.forall₂_cons_left_iff.1 h
    obtain ⟨read, rfl, hnames, hread⟩ := ih hrest
    obtain rfl : .string o.1 = key := Value.alike_string_iff.1 hkey
    refine ⟨(o.1, w) :: read, rfl, hnames.cons o.1, List.forall_mem_cons.2 ⟨?_, fun q hq => ?_⟩⟩
    · exact ⟨w, List.mem_cons_self, hvalue⟩
    · obtain ⟨v, hv, halike⟩ := hread q hq
      exact ⟨v, List.mem_cons_of_mem _ hv, halike⟩

/-- Entries that are like those of options are those of options themselves. -/
lemma exists_areRead (h : Value.entriesAlike (asEntries options) entries) :
    ∃ read, entries = asEntries read ∧ AreRead options read := by
  obtain ⟨ordered, hperm, hall⟩ := Value.exists_perm_of_entriesAlike h
  obtain ⟨pairs, rfl, hnames, hpairs⟩ := exists_areRead_of_forall₂ hall
  -- the pairs are put back into the order in which they were read
  obtain ⟨read, hread, hsame⟩ : Relation.Comp (· = List.map (fun o => (.string o.1, o.2)) ·)
      List.Perm entries pairs := List.eq_map_comp_perm _ ▸ hperm
  refine ⟨read, hread, hnames.trans (hsame.map _).symm, fun o ho => ?_⟩
  obtain ⟨w, hw, halike⟩ := hpairs o ho
  exact ⟨w, hsame.symm.subset hw, halike⟩

/-! ### Options that are read again -/

lemma IsPatterns.of_alike (hv : IsPatterns v) (h : v.alike w) : IsPatterns w := by
  obtain ⟨patterns, rfl⟩ := hv
  exact ⟨patterns, (Value.alike_texts_iff.1 h).symm⟩

lemma IsMapping.of_alike (hv : IsMapping v) (h : v.alike w) : IsMapping w := by
  obtain ⟨entries, rfl⟩ := hv
  obtain ⟨others, rfl, -⟩ := Value.exists_of_mapping_alike h
  exact ⟨others, rfl⟩

lemma IsSeverities.of_alike (hv : IsSeverities v) (h : v.alike w) : IsSeverities w := by
  obtain ⟨entries, rfl, hall⟩ := hv
  obtain ⟨others, rfl, halike⟩ := Value.exists_of_mapping_alike h
  refine ⟨others, rfl, fun f hf => ?_⟩
  obtain ⟨e, he, -, hvalue⟩ := Value.exists_alike_of_mem halike hf
  obtain ⟨s, hs, hseverity⟩ := hall e he
  rw [hseverity] at hvalue
  exact ⟨s, hs, (Value.alike_string_iff.1 hvalue).symm⟩

lemma IsLimit.of_alike (hv : IsLimit v) (h : v.alike w) : IsLimit w := by
  rcases hv with rfl | ⟨n, rfl⟩
  · exact .inl (Value.alike_null_iff.1 h).symm
  · exact .inr ⟨n, (Value.alike_int_iff.1 h).symm⟩

/-- What suits an option still does so with the entries of mappings in another order. -/
lemma Suits.of_alike (hv : Suits option v) (h : v.alike w) : Suits option w := by
  revert hv
  unfold Suits
  split
  · exact fun hv => hv.of_alike h
  split
  · exact fun hv => hv.of_alike h
  split
  · exact fun hv => hv.of_alike h
  split
  · exact fun hv => hv.of_alike h
  · exact id

lemma nodup_optionNames : optionNames.Nodup := by decide

lemma AreRead.exists_lookup (h : AreRead config.toOptions options)
    (hoption : option ∈ optionNames) :
    ∃ v w, config.value? option = some v ∧ options.lookup option = some w ∧ v.alike w := by
  obtain ⟨hnames, hread⟩ := h
  rw [map_fst_toOptions] at hnames
  obtain ⟨v, hv⟩ := exists_value? config hoption
  obtain ⟨w, hw, halike⟩ := hread _ (mem_toOptions_of_value? hv)
  have hlookup := (lookup_eq_some_iff_mem (hnames.nodup nodup_optionNames) _ _).2 hw
  exact ⟨v, w, hv, hlookup, halike⟩

/-- Options that are read again suit if they did. -/
lemma AreRead.areSuitable (h : AreRead config.toOptions options)
    (hknown : ∀ e ∈ config.ruleSeverities, e.2 ∈ severities) : AreSuitable options := by
  intro option value hvalue
  by_cases hoption : option ∈ optionNames
  · obtain ⟨v, w, hv, hw, halike⟩ := h.exists_lookup hoption
    cases hvalue.symm.trans hw
    exact (suits_of_mem_toOptions hknown _ (mem_toOptions_of_value? hv)).of_alike halike
  · exact suits_of_not_mem hoption

lemma AreRead.unknownNames_eq_nil (h : AreRead config.toOptions options) :
    unknownNames options = [] := by
  refine unknownNames_eq_nil_iff.2 fun o ho => ?_
  rw [← map_fst_toOptions config, h.1.mem_iff]
  exact List.mem_map_of_mem ho

section

variable [Machine]

/-- The options that were read again make a configuration like the one that was saved. -/
lemma AreRead.exists_ofOptions (h : AreRead config.toOptions options)
    (hknown : ∀ e ∈ config.ruleSeverities, e.2 ∈ severities) :
    ∃ c, ofOptions options = .ok c ∧ config.IsAlike c := by
  obtain ⟨c, hc⟩ := exists_ofOptions_eq_ok_iff.2 (h.areSuitable hknown)
  refine ⟨c, hc, fun option hoption => ?_⟩
  obtain ⟨v, w, hv, hw, halike⟩ := h.exists_lookup hoption
  refine ⟨v, w, hv, ?_, halike⟩
  rw [(ofOptions_eq_ok_iff.1 hc).1 option hoption, hw, Option.some_or]

/-- A configuration with known severities that is read back is loaded from where it was saved. -/
lemma exists_load_of_save (hformat : format.Lawful)
    (hknown : ∀ e ∈ config.ruleSeverities, e.2 ∈ severities)
    (hsave : config.save format files path = (files', none)) (hread : config.isReadBack format) :
    ∃ c, load format files' (some path) = ⟨.ok c, []⟩ ∧ config.IsAlike c := by
  obtain ⟨entries, hentries, halike⟩ := (Option.any_eq_true _ _).1 hread
  obtain ⟨content, htext, hholds⟩ := entriesIn?_eq_some_iff.1 hentries
  obtain ⟨options, rfl, hoptions⟩ := exists_areRead halike
  obtain ⟨c, hc, hlike⟩ := hoptions.exists_ofOptions hknown
  have hfind := FileTree.find?_of_save (save_eq_none_iff.1 hsave).2
  refine ⟨c, ?_, hlike⟩
  rw [load_of_reads ⟨_, hfind, htext⟩, ofContent_of_options hformat _ hholds, ofNamed,
    if_pos hoptions.unknownNames_eq_nil, hc]

end

/-! ### Settings -/

lemma apply_settings (settings : Settings) (c : Config) : settings.apply c =
    { c with
      strict := if settings.debug then .bool true else c.strict
      collectTiming := if settings.timing then .bool true else c.collectTiming } := by
  unfold Settings.apply
  split <;> split <;> rfl

lemma isTruthy_switched (on : Bool) (v : Value) :
    (if on then .bool true else v).isTruthy = (v.isTruthy || on) := by
  cases on <;> simp [Value.isTruthy]

/-! ### Loading and saving -/

section

variable [Machine]

/-- Options in a file are layered over the defaults if all of them exist and their values suit, and
otherwise refused, for a name that is not that of an option or a value that does not suit; the
latter with a fault of the configuration if the reason can be told.  What has been saved is loaded
as it was, if it is read as it was written; settings then only turn switches on. -/
theorem load_layers_and_undoes_save (hformat : format.Lawful) (files : FileTree) (path : String) :
    (∀ content options, Reads format files path content →
      HoldsMapping content (asEntries options) →
      ((∃ c, load format files (some path) = ⟨.ok c, []⟩) ↔
        unknownNames options = [] ∧ AreSuitable options) ∧
      (∀ c, load format files (some path) = ⟨.ok c, []⟩ → Layers options c) ∧
      (unknownNames options ≠ [] →
        load format files (some path) = ⟨.error (.invalidConfig (.unknownOptions path
          ((unknownNames options).mergeSort (fun a b => a ≤ b)))), []⟩) ∧
      (unknownNames options = [] → ¬AreSuitable options → ∃ reason, Blames options reason ∧
        load format files (some path) = ⟨.error (refused reason), []⟩ ∧
        ((∃ problem, refused reason = .invalidConfig problem) ↔ ∃ problem, reason = .ok problem))) ∧
    ∀ given c, ofArguments given = .ok c →
      (∀ files', c.save format files path = (files', none) ↔
        (written format c).2 = none ∧ files.save path (written format c).1 = (files', none)) ∧
      ∀ files', c.save format files path = (files', none) → c.isReadBack format →
        ∃ d, load format files' (some path) = ⟨.ok d, []⟩ ∧ c.IsAlike d ∧
          ∀ settings : Settings,
            settings.apply d = { d with
              strict := if settings.debug then .bool true else d.strict
              collectTiming := if settings.timing then .bool true else d.collectTiming } ∧
            (settings.apply d).strict.isTruthy = (d.strict.isTruthy || settings.debug) ∧
            (settings.apply d).collectTiming.isTruthy =
              (d.collectTiming.isTruthy || settings.timing) := by
  refine ⟨fun content options hreads hholds => ?_,
    fun given c hgiven => ⟨fun files' => save_eq_none_iff, fun files' hsave hread => ?_⟩⟩
  · have hload := load_of_reads hreads
    rw [ofContent_of_options hformat _ hholds] at hload
    by_cases hknown : unknownNames options = []
    · rw [ofNamed, if_pos hknown] at hload
      refine ⟨?_, fun c hc => ?_, fun hunknown => absurd hknown hunknown, fun _ hsuits => ?_⟩
      · rw [and_iff_right hknown, ← exists_ofOptions_eq_ok_iff, hload]
        simp
      · rw [hload] at hc
        exact (ofOptions_eq_ok_iff.1 (congrArg Loaded.result hc)).1
      · obtain ⟨reason, hblames, hrefused⟩ := exists_refused hsuits
        exact ⟨reason, hblames, by rw [hload, hrefused], exists_refused_eq_iff⟩
    · rw [ofNamed, if_neg hknown] at hload
      refine ⟨?_, fun c hc => ?_, fun _ => hload, fun h => absurd h hknown⟩
      · rw [hload]
        simp [hknown]
      · rw [hload] at hc
        cases hc
  · have hknown := (ofOptions_eq_ok_iff.1 (ofArguments_eq_ok_iff.1 hgiven).2).2
    obtain ⟨d, hload, halike⟩ := exists_load_of_save hformat hknown hsave hread
    refine ⟨d, hload, halike, fun settings => ?_⟩
    rw [apply_settings]
    exact ⟨rfl, isTruthy_switched _ _, isTruthy_switched _ _⟩

end

/-! ### A configuration that is saved and loaded -/

attribute [local instance] Machine.small

/-- A configuration with a list that is empty, a limit of zero and settings for a rule. -/
def nested : Config where
  enabledRules := ["*"]
  disabledRules := []
  ruleSeverities := [(.string "b", "warn"), (.string "a", "info")]
  ruleConfigs := [(.string "b", .mapping [(.string "x", .int 1), (.string "d", .list [])])]
  maxFindings := some 0
  strict := .bool true
  collectTiming := .bool false
  honorSuppressions := .bool true

/-- Its text, with all mappings in the order of their keys. -/
def nestedText : String :=
  "collect_timing: false\ndisabled_rules: []\nenabled_rules:\n- '*'\nhonor_suppressions: true\n" ++
  ("max_findings_per_file: 0\nrule_configs:\n  b:\n    d: []\n    x: 1\n" ++
    "rule_severities:\n  a: info\n  b: warn\nstrict: true\n")

lemma writeMapping_nested : Yaml.writeMapping (asEntries nested.toOptions) = nestedText := by
  -- the order is found by rewriting, because sorting does not reduce
  have hsorted : Yaml.sortEntries
        (Yaml.sortValues (asEntries nested.toOptions)) =
      [(.string collectTimingKey, .bool false), (.string disabledRulesKey, .list []),
        (.string enabledRulesKey, .list [.string "*"]), (.string honorSuppressionsKey, .bool true),
        (.string maxFindingsKey, .int 0),
        (.string ruleConfigsKey,
          .mapping [(.string "b", .mapping [(.string "d", .list []), (.string "x", .int 1)])]),
        (.string ruleSeveritiesKey,
          .mapping [(.string "a", .string "info"), (.string "b", .string "warn")]),
        (.string strictKey, .bool true)] := by
    simp [asEntries, toOptions, nested, Yaml.sortValues, Yaml.sortKeys, Yaml.sortItems,
      Yaml.sortEntries, Yaml.isString, Yaml.keyAtMost, List.mergeSort,
      List.MergeSort.Internal.splitInTwo, collectTimingKey, disabledRulesKey, enabledRulesKey,
      honorSuppressionsKey, maxFindingsKey, ruleConfigsKey, ruleSeveritiesKey, strictKey]
  rw [Yaml.writeMapping, hsorted]
  decide +kernel

lemma written_nested : written Yaml.format nested = (nestedText, none) := by
  have hobstacle : Yaml.entriesObstacle? (asEntries nested.toOptions) = none := by decide +kernel
  rw [written, Yaml.write_format, Yaml.write, hobstacle, writeMapping_nested]

lemma toList_of_eq_ofList {s : String} {chars : List Char} (h : s = String.ofList chars) :
    s.toList = chars := by
  rw [h, String.toList_ofList]

/-- The document in a text, by its characters; those of a long text are slow to take apart again. -/
lemma document_of_toList {s : String} {chars : List Char} (h : s.toList = chars) :
    Yaml.Document.ofText s =
      if (Yaml.Document.unifiedLines chars).all Yaml.isReadable then
        Yaml.Document.ofScan (Yaml.Scan.ofText (Yaml.Document.unifiedLines chars))
      else .error .malformed := by
  rw [Yaml.Document.ofText, h]

lemma isReadBack_nested : nested.isReadBack Yaml.format := by
  have hchars : nestedText.toList = _ :=
    String.toList_append.trans (congrArg₂ _ (toList_of_eq_ofList rfl)
      (String.toList_append.trans
        (congrArg₂ _ (toList_of_eq_ofList rfl) (toList_of_eq_ofList rfl))))
  rw [isReadBack, written_nested, entriesIn?, Yaml.read_format, Yaml.Part.read, Yaml.Content.ofText,
    document_of_toList hchars]
  decide +kernel

/-- The file in which it is saved. -/
def nestedFile : FileTree := ⟨[(["lintcore.yml"], .file (some nestedText))]⟩

lemma save_nested : nested.save Yaml.format {} "lintcore.yml" = (nestedFile, none) := by
  have hsave : ∀ text, FileTree.save {} "lintcore.yml" text =
      (⟨[(["lintcore.yml"], .file (some text))]⟩, none) := fun _ => rfl
  rw [save_eq_none_iff, written_nested, hsave]
  exact ⟨rfl, rfl⟩

theorem load_save_nested : Yaml.format.Lawful ∧ ofArguments nested.toOptions = .ok nested ∧
    nested.isReadBack Yaml.format ∧
    nested.save Yaml.format {} "lintcore.yml" = (nestedFile, none) ∧
    (∃ d, load Yaml.format nestedFile (some "lintcore.yml") = ⟨.ok d, []⟩ ∧ nested.IsAlike d) ∧
    ∃ content options, Reads Yaml.format nestedFile "lintcore.yml" content ∧
      HoldsMapping content (asEntries options) ∧ unknownNames options = [] ∧
      AreSuitable options := by
  have hmade : ofArguments nested.toOptions = .ok nested :=
    ofArguments_toOptions (by decide +kernel)
  obtain ⟨-, hsaved⟩ := load_layers_and_undoes_save Yaml.lawful_format {} "lintcore.yml"
  obtain ⟨d, hload, halike, -⟩ :=
    (hsaved _ _ hmade).2 nestedFile save_nested isReadBack_nested
  obtain ⟨entries, hentries, hlike⟩ := (Option.any_eq_true _ _).1 isReadBack_nested
  obtain ⟨content, htext, hholds⟩ := entriesIn?_eq_some_iff.1 hentries
  obtain ⟨options, rfl, -⟩ := exists_areRead hlike
  have hreads : Reads Yaml.format nestedFile "lintcore.yml" content :=
    ⟨_, FileTree.find?_of_save (save_eq_none_iff.1 save_nested).2, htext⟩
  obtain ⟨hread, -⟩ := load_layers_and_undoes_save Yaml.lawful_format nestedFile "lintcore.yml"
  obtain ⟨hsuits, -⟩ := hread _ _ hreads hholds
  exact ⟨Yaml.lawful_format, hmade, isReadBack_nested, save_nested, ⟨d, hload, halike⟩, content,
    options, hreads, hholds, hsuits.1 ⟨d, hload⟩⟩

/-! ### A reason that cannot be told -/

/-- What a file holds with an integer where patterns belong. -/
def numbered (n : Int) : Yaml.Part where
  content := {
    cells := [(0, .mapping [(.string enabledRulesKey, 1)]), (1, .scalar (.int n))]
    root := some 0 }
  place := some 0

lemma holdsMapping_numbered (n : Int) : @HoldsMapping Yaml.format (numbered n)
    (asEntries [(enabledRulesKey, .int n)]) :=
  ⟨[(.string enabledRulesKey, ⟨(numbered n).content, some 1⟩)], rfl, rfl⟩

/-- An integer with too many digits is refused, but the reason has no text. -/
lemma ofContent_numbered {n : Int} (h : Value.leastLong ≤ n.natAbs) :
    ofContent Yaml.format path (numbered n) = .error (.text .longInteger) := by
  have htext : (Value.int n).quoted = .error .longInteger := by
    rw [Value.quoted_int, Value.decimal_of_leastLong_le h]
  have hrefused : ofOptions [(enabledRulesKey, .int n)] =
      .error (refusal (.int n) (.notPatterns enabledRulesKey)) := rfl
  have hknown : unknownNames [(enabledRulesKey, .int n)] = [] := rfl
  rw [ofContent_of_options Yaml.lawful_format path (holdsMapping_numbered n), ofNamed,
    if_pos hknown, hrefused, refusal, htext]
  rfl

/-- Not all options that do not suit are refused with a fault of the configuration. -/
theorem not_forall_refused_as_config : ¬∀ path (content : Yaml.format.Content) options,
    HoldsMapping content (asEntries options) → unknownNames options = [] → ¬AreSuitable options →
    ∃ fault, ofContent Yaml.format path content = .error fault ∧ fault.faultClass = .config := by
  intro h
  have hlong : Value.leastLong ≤ (Value.leastLong : Int).natAbs :=
    Nat.le_of_eq (Int.natAbs_natCast _).symm
  -- the number is hidden, because nothing else of it counts and it is not to be computed
  generalize (Value.leastLong : Int) = n at hlong
  have hsuits : ¬AreSuitable [(enabledRulesKey, .int n)] := fun hsuits => by
    obtain ⟨patterns, hpatterns⟩ := suits_enabledRules.1 (hsuits enabledRulesKey (.int n) rfl)
    cases hpatterns
  obtain ⟨fault, hfault, hclass⟩ := h "lintcore.yml" _ _ (holdsMapping_numbered n) rfl hsuits
  cases (ofContent_numbered hlong).symm.trans hfault
  cases hclass

end TreeLint.Config
