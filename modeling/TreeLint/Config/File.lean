/-
Configuration files.

A file holds a mapping of options over the defaults; a content that is empty in any way
holds none.  A file that is missing gives the defaults, and so does one that cannot be
read, with a warning; one that can be read but is no configuration is an error.
-/
import TreeLint.Config.Discovery
import TreeLint.Config.FileTree
import TreeLint.Config.Format
import TreeLint.Config.Settings
namespace TreeLint.Config

/-- Whether a key names an option. -/
def isOption : Value → Bool
  | .string name => optionNames.contains name
  | _ => false

/-- The names of keys, if all of them are texts. -/
def keyNames? (keys : List Value) : Option (List String) :=
  keys.mapM (fun k => match k with
    | .string name => some name
    | _ => none)

/-- The entries whose keys are texts. -/
def namedEntries {α : Type} (entries : List (Value × α)) : List (String × α) :=
  entries.filterMap (fun e => match e.1 with
    | .string name => some (name, e.2)
    | _ => none)

/-- The options that hold values for rules. -/
def ruleOptions : List String := [ruleSeveritiesKey, ruleConfigsKey]

/-- A configuration, or a fault, with the warnings on the way to it. -/
structure Loaded where
  /-- The configuration. -/
  result : Except Fault Config
  /-- The warnings. -/
  warnings : List String := []

/-- The warning about a file that cannot be read. -/
def unreadable (path : String) : String := "Failed to load config from " ++ path

variable [Machine] (format : Format)

/-- The value of an option in a file.  A mapping of an option that holds values for rules is taken
apart, so that each of these values stands for itself. -/
def valueIn (option : Value) (content : format.Content) : Value :=
  match option, format.entries? content with
  | .string name, some entries =>
    if ruleOptions.contains name then
      .mapping (entries.map (fun e => (e.1, format.value e.2)))
    else format.value content
  | _, _ => format.value content

/-- The configuration that a mapping in a file describes.  The values are only looked at when all
keys name options. -/
def ofEntries (path : String) (entries : List (Value × format.Content)) : Except Fault Config :=
  match keyNames? ((entries.map (·.1)).filter (fun k => !isOption k)) with
  | none => .error (.raised (.other "TypeError") [])
  | some [] =>
    ofOptions ((namedEntries entries).map (fun e => (e.1, valueIn format (.string e.1) e.2)))
  | some unknown =>
    .error (.invalidConfig (.unknownOptions path (unknown.mergeSort (fun a b => a ≤ b))))

/-- The configuration that the content of a file describes. -/
def ofContent (path : String) (content : format.Content) : Except Fault Config :=
  if format.isPresent content then
    match format.entries? content with
    | some entries => ofEntries format path entries
    | none => .error (.invalidConfig (.notOptions path))
  else ofEntries format path []

/-- The configuration in the text of a file. -/
def ofText (path text : String) : Loaded :=
  match format.read text with
  | .ok (some content) => ⟨ofContent format path content, []⟩
  | .ok none => ⟨.ok default, [unreadable path]⟩
  | .error fault => ⟨.error fault, []⟩

/-- The configuration in a file. -/
def load (files : FileTree) (path : Option String) : Loaded :=
  match path with
  | none => ⟨.ok default, []⟩
  | some path =>
    match files.find? path with
    | none => ⟨.ok default, []⟩
    | some .directory => ⟨.ok default, [unreadable path]⟩
    | some (.file none) => ⟨.error (.file .notText), []⟩
    | some (.file (some text)) => ofText format path text

/-- Options as the entries of a mapping. -/
def asEntries (options : List (String × Value)) : List (Value × Value) :=
  options.map (fun o => (.string o.1, o.2))

/-- Writes a configuration to a file.  The file is opened first, so that what has been written is
left of it when a fault ends the writing. -/
def save (c : Config) (files : FileTree) (path : String) : FileTree × Option Fault :=
  let (text, fault) := format.write (asEntries c.toOptions)
  match files.save path text with
  | (files, some problem) => (files, some (.file problem))
  | (files, none) => (files, fault)

/-- The path of the configuration file nearest to a path. -/
def discover (files : FileTree) (start : String) : Option String :=
  ((FileTree.placeOf? start).bind (nearestFile? files.has)).map FileTree.pathOf

/-- The configuration for a path: that of the file which the settings name, or of the nearest one,
with the settings applied. -/
def resolve (files : FileTree) (start : String) (settings : Settings) : Loaded :=
  let named := settings.configPath.filter (· != "")
  let loaded := load format files (named.orElse (fun _ => discover files start))
  { loaded with result := loaded.result.map settings.apply }

end TreeLint.Config
