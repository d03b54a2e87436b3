/-
Configuration files that can be read.

What such a file gives depends on its content alone.  If nothing is in it, or nothing
that counts, it gives the defaults.  If it holds a mapping whose keys all name options,
these are layered over the defaults, or refused.  Everything else is refused as well:
something that is no mapping, and a mapping with keys that name no option.

A file should give a configuration of which every option has the type that is declared
for it, or a fault of the configuration (`EndsWell`).  It need not: a key that is no
text, and a reason that cannot be told, make another fault, and of the options only those
that are checked have their type for sure.  `load_readable` tells for every content of
every lawful format which of this is the case.
-/
import TreeLint.Config.File
import TreeLint.Proofs.Config.Options
import TreeLint.Proofs.Value.Telling
import TreeLint.Proofs.Yaml.Format
namespace TreeLint.Config

variable {format : Format} {files : FileTree} {path text : String} {content : format.Content}
  {entries : List (Value × Value)} {options : List (String × Value)} {config : Config}

/-! ### Contents -/

/-- Whether a path leads to a file that can be read, with some content. -/
def Reads (format : Format) (files : FileTree) (path : String) (content : format.Content) : Prop :=
  ∃ text, files.find? path = some (.file (some text)) ∧ format.read text = .ok (some content)

/-- Whether a content holds a mapping of some entries. -/
def HoldsMapping (content : format.Content) (entries : List (Value × Value)) : Prop :=
  ∃ parts, format.entries? content = some parts ∧
    entries = parts.map fun e => (e.1, valueIn format e.1 e.2)

/-- The entries of the mapping in a text. -/
def entriesIn? (format : Format) (text : String) : Option (List (Value × Value)) :=
  match format.read text with
  | .ok (some content) =>
    (format.entries? content).map (List.map fun e => (e.1, valueIn format e.1 e.2))
  | _ => none

lemma entriesIn?_eq_some_iff : entriesIn? format text = some entries ↔
    ∃ content, format.read text = .ok (some content) ∧ HoldsMapping content entries := by
  unfold entriesIn? HoldsMapping
  rcases format.read text with fault | _ | content
  · simp
  · simp
  · simp [eq_comm (a := entries)]

/-- The names of options that do not exist. -/
def unknownNames (options : List (String × Value)) : List String :=
  (options.map (·.1)).filter fun name => !optionNames.contains name

lemma unknownNames_eq_nil_iff : unknownNames options = [] ↔ ∀ o ∈ options, o.1 ∈ optionNames := by
  simp [unknownNames]

/-! ### Mappings -/

lemma keyNames?_eq_some_iff {keys : List Value} {names : List String} :
    keyNames? keys = some names ↔ keys = names.map .string :=
  mapM_text_eq_some_iff fun v s => by cases v <;> simp

/-- The parts of a mapping whose keys are texts are named by these. -/
lemma namedEntries_eq {parts : List (Value × format.Content)}
    (h : asEntries options = parts.map fun e => (e.1, valueIn format e.1 e.2)) :
    (namedEntries parts).map (fun e => (e.1, valueIn format (.string e.1) e.2)) = options := by
  induction parts generalizing options with
  | nil =>
    cases options with
    | nil => rfl
    | cons o others => cases h
  | cons e rest ih =>
    obtain ⟨key, part⟩ := e
    cases options with
    | nil => cases h
    | cons o others =>
      obtain ⟨hfirst, hrest⟩ := List.cons.inj h
      obtain ⟨hkey, hvalue⟩ := Prod.mk.inj hfirst
      obtain rfl : .string o.1 = key := hkey
      have hhead : namedEntries ((.string o.1, part) :: rest) =
          (o.1, part) :: namedEntries rest := by
        simp only [namedEntries, List.filterMap_cons]
      have hpart : o.2 = valueIn format (.string o.1) part := hvalue
      rw [hhead, List.map_cons, ih hrest, ← hpart]

/-! ### Declared types -/

/-- Whether a value is a mapping whose keys are texts. -/
def IsKeyedByTexts (value : Value) : Prop := ∃ options, value = .mapping (asEntries options)

/-- Whether a value is a mapping to mappings. -/
def HoldsMappings (value : Value) : Prop :=
  ∃ entries, value = .mapping entries ∧ ∀ e ∈ entries, IsMapping e.2

/-- The options that are on or off. -/
def switchNames : List String := [strictKey, collectTimingKey, honorSuppressionsKey]

/-- Whether a value has the type that is declared for an option.  This is more than that it suits:
rules are named by texts, the settings of a rule are a mapping, and a switch is on or off. -/
def IsDeclared (option : String) (value : Value) : Prop :=
  Suits option value ∧ (option ∈ ruleOptions → IsKeyedByTexts value) ∧
    (option = ruleConfigsKey → HoldsMappings value) ∧
    (option ∈ switchNames → ∃ b, value = .bool b)

/-- Whether the values that are given for options have the types declared for these. -/
def AreDeclared (options : List (String × Value)) : Prop :=
  ∀ option ∈ optionNames, ∀ value, options.lookup option = some value → IsDeclared option value

/-- Whether every option of a configuration has the type that is declared for it. -/
def IsWellTyped (c : Config) : Prop :=
  ∀ option value, c.value? option = some value → IsDeclared option value

/-- Every default has the type that is declared for its option. -/
lemma isWellTyped_default : default.IsWellTyped := by
  intro option value hvalue
  refine ⟨suits_default _ (mem_toOptions_of_value? hvalue), ?_⟩
  have hmem := mem_toOptions_of_value? hvalue
  simp only [toOptions, List.mem_cons, Prod.mk.injEq, List.not_mem_nil, or_false] at hmem
  rcases hmem with h | h | h | h | h | h | h | h <;> obtain ⟨rfl, rfl⟩ := h
  case inr.inr.inl =>
    exact ⟨fun _ => ⟨[], rfl⟩, fun h => absurd h (by decide), fun h => absurd h (by decide)⟩
  case inr.inr.inr.inl =>
    exact ⟨fun _ => ⟨[], rfl⟩, fun _ => ⟨[], rfl, List.forall_mem_nil _⟩,
      fun h => absurd h (by decide)⟩
  all_goals
    refine ⟨fun h => absurd h (by decide), fun h => absurd h (by decide), fun h => ?_⟩
    first
    | exact ⟨_, rfl⟩
    | exact absurd h (by decide)

/-- What is laid over the defaults decides whether all types are those that are declared. -/
lemma Layers.isWellTyped_iff (h : Layers options config) :
    config.IsWellTyped ↔ AreDeclared options := by
  constructor
  · intro hconfig option hoption value hgiven
    refine hconfig option value ?_
    rw [h option hoption, hgiven, Option.some_or]
  · intro hgiven option value hvalue
    have hoption : option ∈ optionNames :=
      map_fst_toOptions config ▸ List.mem_map_of_mem (mem_toOptions_of_value? hvalue)
    rw [h option hoption] at hvalue
    rcases hlookup : options.lookup option with _ | v
    · rw [hlookup, Option.none_or] at hvalue
      exact isWellTyped_default option value hvalue
    · rw [hlookup, Option.some_or] at hvalue
      exact hgiven option hoption value (hlookup.trans hvalue)

/-! ### What a content gives -/

section

variable [Machine]

lemma load_of_reads (h : Reads format files path content) :
    load format files (some path) = ⟨ofContent format path content, []⟩ := by
  obtain ⟨text, hfind, htext⟩ := h
  simp only [load, hfind, ofText, htext]

/-- A key that is no text names no option, and has no name to tell. -/
lemma ofEntries_of_not_text {parts : List (Value × format.Content)}
    (h : ∃ e ∈ parts, ∀ name, e.1 ≠ .string name) :
    ofEntries format path parts = .error (.raised (.other "TypeError") []) := by
  obtain ⟨e, he, hkey⟩ := h
  have hnone : keyNames? ((parts.map (·.1)).filter (fun k => !isOption k)) = none := by
    refine Option.eq_none_iff_forall_ne_some.2 fun names hnames => ?_
    have hunknown : e.1 ∈ (parts.map (·.1)).filter (fun k => !isOption k) := by
      refine List.mem_filter.2 ⟨List.mem_map_of_mem he, ?_⟩
      cases hvalue : e.1 <;> try rfl
      exact absurd hvalue (hkey _)
    rw [keyNames?_eq_some_iff.1 hnames] at hunknown
    obtain ⟨name, -, hname⟩ := List.mem_map.1 hunknown
    exact hkey name hname.symm
  rw [ofEntries, hnone]

/-- What options in a file give. -/
def ofNamed (path : String) (options : List (String × Value)) : Except Fault Config :=
  if unknownNames options = [] then ofOptions options
  else .error (.invalidConfig (.unknownOptions path
    ((unknownNames options).mergeSort (fun a b => a ≤ b))))

lemma ofEntries_of_options {parts : List (Value × format.Content)}
    (h : asEntries options = parts.map fun e => (e.1, valueIn format e.1 e.2)) :
    ofEntries format path parts = ofNamed path options := by
  have hkeys : parts.map (·.1) = (options.map (·.1)).map .string := by
    have hfirst := congrArg (List.map Prod.fst) h
    simpa [asEntries, Function.comp_def] using hfirst.symm
  have hunknown : keyNames? ((parts.map (·.1)).filter (fun k => !isOption k)) =
      some (unknownNames options) := by
    rw [keyNames?_eq_some_iff, hkeys, List.filter_map]
    rfl
  rw [ofEntries, hunknown, ofNamed, namedEntries_eq h]
  rcases unknownNames options with _ | ⟨name, names⟩
  · rfl
  · rw [if_neg (List.cons_ne_nil _ _)]

lemma ofOptions_nil : ofOptions [] = .ok default :=
  ofOptions_eq_ok_iff.2 ⟨fun _ _ => rfl, List.forall_mem_nil _⟩

lemma ofEntries_nil : ofEntries format path [] = .ok default := by
  rw [ofEntries_of_options (show asEntries [] = [].map _ from rfl)]
  exact ofOptions_nil

lemma ofContent_of_absent (hformat : format.Lawful) (h : (format.value content).isTruthy = false) :
    ofContent format path content = .ok default := by
  rw [ofContent, hformat.isPresent, h, if_neg Bool.false_ne_true, ofEntries_nil]

lemma ofContent_of_not_mapping (hformat : format.Lawful)
    (hpresent : (format.value content).isTruthy) (h : ∀ entries, ¬HoldsMapping content entries) :
    ofContent format path content = .error (.invalidConfig (.notOptions path)) := by
  have hentries : format.entries? content = none :=
    Option.eq_none_iff_forall_ne_some.2 fun parts hparts => h _ ⟨parts, hparts, rfl⟩
  rw [ofContent, hformat.isPresent, if_pos hpresent, hentries]

/-- A mapping is read by its entries, also if it is empty and so counts as absent. -/
lemma ofContent_eq_ofEntries (hformat : format.Lawful) (path : String)
    {parts : List (Value × format.Content)} (h : format.entries? content = some parts) :
    ofContent format path content = ofEntries format path parts := by
  obtain ⟨entries, hvalue, hkeys⟩ := hformat.entries content parts h
  rw [ofContent, hformat.isPresent, hvalue]
  rcases parts with _ | ⟨e, rest⟩
  · obtain rfl : entries = [] := by simpa using hkeys
    rfl
  · have hpresent : (Value.mapping entries).isTruthy := by
      rcases entries with _ | ⟨e', rest'⟩
      · cases hkeys
      · rfl
    rw [if_pos hpresent, h]

lemma ofContent_of_not_text (hformat : format.Lawful) (h : HoldsMapping content entries)
    (hkey : ∃ e ∈ entries, ∀ name, e.1 ≠ .string name) :
    ofContent format path content = .error (.raised (.other "TypeError") []) := by
  obtain ⟨parts, hparts, rfl⟩ := h
  rw [ofContent_eq_ofEntries hformat path hparts]
  refine ofEntries_of_not_text ?_
  obtain ⟨e, he, hname⟩ := hkey
  obtain ⟨d, hd, rfl⟩ := List.mem_map.1 he
  exact ⟨d, hd, hname⟩

lemma ofContent_of_options (hformat : format.Lawful) (path : String)
    (h : HoldsMapping content (asEntries options)) :
    ofContent format path content = ofNamed path options := by
  obtain ⟨parts, hparts, hentries⟩ := h
  rw [ofContent_eq_ofEntries hformat path hparts, ofEntries_of_options hentries]

/-- Options whose values do not suit are refused, for one of them. -/
lemma exists_refused (h : ¬AreSuitable options) :
    ∃ reason, Blames options reason ∧ ofOptions options = .error (refused reason) := by
  rcases hresult : ofOptions options with fault | c
  · obtain ⟨reason, hblames, rfl⟩ := exists_blames_of_ofOptions hresult
    exact ⟨reason, hblames, rfl⟩
  · exact absurd (exists_ofOptions_eq_ok_iff.1 ⟨c, hresult⟩) h

end

/-! ### How reading ends -/

/-- Whether reading ends as it should: with a configuration of the declared types, or with a fault
of the configuration. -/
def EndsWell : Except Fault Config → Prop
  | .ok c => c.IsWellTyped
  | .error fault => ∃ problem, fault = .invalidConfig problem

lemma exists_refused_eq_iff {reason : Except TextFault ConfigProblem} :
    (∃ problem, refused reason = .invalidConfig problem) ↔ ∃ problem, reason = .ok problem := by
  rcases reason with why | problem <;> simp [refused]

section

variable [Machine]

/-- Whether options end well: if all of them exist and their values suit, these have the declared
types, and a reason for which they are refused can be told. -/
def AreSound (options : List (String × Value)) : Prop :=
  unknownNames options = [] → (AreSuitable options → AreDeclared options) ∧
    ∀ reason, Blames options reason → ofOptions options = .error (refused reason) →
      ∃ problem, reason = .ok problem

lemma endsWell_ofOptions_iff : EndsWell (ofOptions options) ↔
    (AreSuitable options → AreDeclared options) ∧
      ∀ reason, Blames options reason → ofOptions options = .error (refused reason) →
        ∃ problem, reason = .ok problem := by
  by_cases hsuits : AreSuitable options
  · obtain ⟨c, hc⟩ := exists_ofOptions_eq_ok_iff.2 hsuits
    simp only [hc, EndsWell, (ofOptions_eq_ok_iff.1 hc).1.isWellTyped_iff, hsuits, true_imp_iff,
      reduceCtorEq, false_imp_iff, implies_true, and_true]
  · obtain ⟨reason, hblames, hrefused⟩ := exists_refused hsuits
    simp only [hrefused, EndsWell, hsuits, false_imp_iff, true_and, Except.error.injEq]
    constructor
    · rintro hends reason' - heq
      exact exists_refused_eq_iff.1 (heq ▸ hends)
    · intro hall
      exact exists_refused_eq_iff.2 (hall reason hblames rfl)

lemma endsWell_ofNamed_iff : EndsWell (ofNamed path options) ↔ AreSound options := by
  unfold ofNamed
  split
  · next hknown => rw [endsWell_ofOptions_iff, AreSound, imp_iff_right hknown]
  · next hunknown => exact iff_of_true ⟨_, rfl⟩ fun hknown => absurd hknown hunknown

/-- What a file gives that can be read.  One in which nothing counts gives the defaults, and
something else than a mapping is refused; both end well.  A mapping with a key that is no text does
not: it ends in a fault of another kind.  Options that do not exist are refused; those that exist
are layered over the defaults if their values suit, and are refused for one that does not
otherwise.  This ends well exactly if the values that are accepted have the declared types, and a
reason to refuse one can be told. -/
theorem load_readable (hformat : format.Lawful) (h : Reads format files path content) :
    load format files (some path) = ⟨ofContent format path content, []⟩ ∧
    ((format.value content).isTruthy = false →
      ofContent format path content = .ok default ∧ default.IsWellTyped) ∧
    ((format.value content).isTruthy → (∀ entries, ¬HoldsMapping content entries) →
      ofContent format path content = .error (.invalidConfig (.notOptions path))) ∧
    (∀ entries, HoldsMapping content entries → (∃ e ∈ entries, ∀ name, e.1 ≠ .string name) →
      ofContent format path content = .error (.raised (.other "TypeError") [])) ∧
    ∀ options, HoldsMapping content (asEntries options) →
      (EndsWell (ofContent format path content) ↔ AreSound options) ∧
      (unknownNames options ≠ [] →
        ofContent format path content = .error (.invalidConfig (.unknownOptions path
          ((unknownNames options).mergeSort (fun a b => a ≤ b))))) ∧
      (unknownNames options = [] → AreSuitable options →
        ∃ c, ofContent format path content = .ok c ∧ Layers options c ∧
          (∀ o ∈ c.toOptions, Suits o.1 o.2) ∧ (c.IsWellTyped ↔ AreDeclared options)) ∧
      (unknownNames options = [] → ¬AreSuitable options → ∃ reason, Blames options reason ∧
        ofContent format path content = .error (refused reason)) := by
  refine ⟨load_of_reads h,
    fun habsent => ⟨ofContent_of_absent hformat habsent, isWellTyped_default⟩,
    ofContent_of_not_mapping hformat, fun _ => ofContent_of_not_text hformat,
    fun options hoptions => ?_⟩
  rw [ofContent_of_options hformat path hoptions]
  refine ⟨endsWell_ofNamed_iff, fun hunknown => if_neg hunknown, fun hknown hsuits => ?_,
    fun hknown hsuits => ?_⟩
  · rw [ofNamed, if_pos hknown]
    obtain ⟨c, hc⟩ := exists_ofOptions_eq_ok_iff.2 hsuits
    obtain ⟨hlayers, hseverities⟩ := ofOptions_eq_ok_iff.1 hc
    exact ⟨c, hc, hlayers, suits_of_mem_toOptions hseverities, hlayers.isWellTyped_iff⟩
  · rw [ofNamed, if_pos hknown]
    exact exists_refused hsuits

end

/-! ### A file that ends otherwise -/

/-- A file whose only key is a number. -/
def numberKeyed : FileTree := ⟨[(["lintcore.yml"], .file (some "1: strict\n"))]⟩

attribute [local instance] Machine.small

lemma exists_reads_numberKeyed : ∃ content entries,
    Reads Yaml.format numberKeyed "lintcore.yml" content ∧ HoldsMapping content entries ∧
      ∃ e ∈ entries, ∀ name, e.1 ≠ .string name := by
  have hread : (entriesIn? Yaml.format "1: strict\n").any
      (List.any · fun e => !Yaml.isString e.1) := by decide +kernel
  obtain ⟨entries, hentries, hnumber⟩ := (Option.any_eq_true _ _).1 hread
  obtain ⟨content, htext, hholds⟩ := entriesIn?_eq_some_iff.1 hentries
  obtain ⟨e, he, hkey⟩ := List.any_eq_true.1 hnumber
  refine ⟨content, entries, ⟨_, by decide +kernel, htext⟩, hholds, e, he, fun name hname => ?_⟩
  rw [hname] at hkey
  cases hkey

theorem load_numberKeyed : Yaml.format.Lawful ∧ (∃ content entries,
      Reads Yaml.format numberKeyed "lintcore.yml" content ∧ HoldsMapping content entries ∧
        ∃ e ∈ entries, ∀ name, e.1 ≠ .string name) ∧
    load Yaml.format numberKeyed (some "lintcore.yml") =
      ⟨.error (.raised (.other "TypeError") []), []⟩ := by
  refine ⟨Yaml.lawful_format, exists_reads_numberKeyed, ?_⟩
  obtain ⟨content, entries, hreads, hholds, hkey⟩ := exists_reads_numberKeyed
  obtain ⟨hload, -, -, hnumber, -⟩ := load_readable Yaml.lawful_format hreads
  rw [hload, hnumber entries hholds hkey]

lemma not_endsWell_of_not_text {content : Yaml.format.Content}
    (h : Reads Yaml.format files path content) (hentries : HoldsMapping content entries)
    (hkey : ∃ e ∈ entries, ∀ name, e.1 ≠ .string name) :
    ¬EndsWell (load Yaml.format files (some path)).result := by
  rw [load_of_reads h, ofContent_of_not_text Yaml.lawful_format hentries hkey]
  rintro ⟨problem, hproblem⟩
  cases hproblem

/-- Not all files that can be read end well. -/
theorem not_forall_endsWell : ¬∀ files path content, Reads Yaml.format files path content →
    EndsWell (load Yaml.format files (some path)).result := by
  -- the file is hidden before `h` is applied to it, or the elaborator reads it
  have hexists : ∃ files path content, Reads Yaml.format files path content ∧
      ¬EndsWell (load Yaml.format files (some path)).result := by
    obtain ⟨content, entries, hreads, hholds, hkey⟩ := exists_reads_numberKeyed
    exact ⟨numberKeyed, "lintcore.yml", content, hreads,
      not_endsWell_of_not_text hreads hholds hkey⟩
  intro h
  obtain ⟨files, path, content, hreads, hends⟩ := hexists
  exact hends (h files path content hreads)

end TreeLint.Config
