/-
The format of configuration files that programs use.

A content is what a text stands for, at one of its places; a text without document
stands for no value.
-/
import TreeLint.Config.Format
import TreeLint.Yaml.Content
import TreeLint.Yaml.Writer
namespace TreeLint.Yaml

/-- What a text stands for at a place, if it holds a document. -/
structure Part where
  /-- What the text stands for. -/
  content : Content
  /-- The place. -/
  place : Option Place

namespace Part

/-- The cell of a part. -/
def cell (p : Part) : Cell := (p.place.map p.content.cellAt).getD (.scalar .null)

/-- The value of a part. -/
def value (p : Part) : Value := (p.place.map p.content.valueAt).getD .null

/-- The entries of a part that is a mapping. -/
def entries? (p : Part) : Option (List (Value × Part)) :=
  match p.cell with
  | .mapping entries => some (entries.map (fun e => (e.1, ⟨p.content, some e.2⟩)))
  | _ => none

/-- What a text stands for, if it is well formed. -/
def read [Machine] (text : String) : Except Fault (Option Part) :=
  match Content.ofText text with
  | .ok content => .ok (some ⟨content, content.root⟩)
  | .error .malformed => .ok none
  | .error (.fault fault) => .error fault

end Part

/-- The format that programs use. -/
def format [Machine] : Config.Format where
  Content := Part
  read := Part.read
  value := Part.value
  entries? := Part.entries?
  isPresent := fun p => p.cell.isPresent
  write := write

end TreeLint.Yaml
