/-
Comments that suppress findings.

A comment `// ignore: names` covers its own line and the next one; a comment
`// ignore_for_file: names` covers the file.  The names are patterns, separated by
commas, and blanks around them do not count.  A line is what stands between line
feeds, and of the comments on a line only the first of each sort counts, for it
reaches to the end of the line.
-/
import TreeLint.Glob
import TreeLint.Text.Blank
namespace TreeLint

namespace Suppression

/-- A text cut at a separator. -/
def splitAtChar (separator : Char) : List Char → List (List Char)
  | [] => [[]]
  | c :: rest =>
    if c = separator then [] :: splitAtChar separator rest
    else
      match splitAtChar separator rest with
      | [] => [[c]]
      | piece :: pieces => (c :: piece) :: pieces

/-- The lines of a text. -/
def linesOf (text : String) : List (List Char) := splitAtChar '\n' text.toList

/-- A comment that suppresses findings. -/
inductive Directive where
  /-- It covers its line and the next one. -/
  | line
  /-- It covers the file. -/
  | file
deriving DecidableEq, Repr

/-- The word that marks a comment, with its colon. -/
def Directive.word : Directive → List Char
  | .line => "ignore:".toList
  | .file => "ignore_for_file:".toList

/-- What is left of a text after a word at its start. -/
def afterWord (word s : List Char) : Option (List Char) :=
  if word.isPrefixOf s then some (s.drop word.length) else none

/-- The list of names in what follows the word of a comment: blanks before it do not belong to it,
unless there is nothing else, and it cannot be empty. -/
def listIn (s : List Char) : Option (List Char) :=
  match Text.trimBlanksLeft s with
  | [] => s.getLast?.map ([·])
  | list => some list

/-- The list of names of a comment that starts where a text starts. -/
def directiveAt (d : Directive) : List Char → Option (List Char)
  | '/' :: '/' :: rest => (afterWord d.word (Text.trimBlanksLeft rest)).bind listIn
  | _ => none

/-- The list of names of the first comment on a line. -/
def directiveOn (d : Directive) : List Char → Option (List Char)
  | [] => none
  | c :: rest =>
    match directiveAt d (c :: rest) with
    | some list => some list
    | none => directiveOn d rest

/-- The entries of a list of names, without the blanks around them. -/
def entriesOf (list : List Char) : List (List Char) :=
  (splitAtChar ',' list).map Text.trimBlanks

/-- The names of a list: its entries that are not empty. -/
def namesOf (list : List Char) : List String :=
  ((entriesOf list).filter (fun e => !e.isEmpty)).map String.ofList

/-- The names in the first comment of a sort on a line, if there is one. -/
def namesOn (d : Directive) (line : List Char) : Option (List String) :=
  (directiveOn d line).map namesOf

end Suppression

/-- The suppression comments of a text. -/
structure Suppressions where
  /-- For each line, the names in its comment that covers lines. -/
  comments : List (Option (List String))
  /-- The names in the comments that cover the file. -/
  fileNames : List String
deriving Repr

namespace Suppressions

/-- The suppression comments of a text. -/
def ofText (text : String) : Suppressions where
  comments := (Suppression.linesOf text).map (Suppression.namesOn .line)
  fileNames := (Suppression.linesOf text).flatMap
    (fun line => (Suppression.namesOn .file line).getD [])

/-- The names in the comment on a line, the lines counted from one. -/
def commentOn (s : Suppressions) (line : Int) : Option (List String) :=
  if line < 1 then none else (s.comments[(line - 1).toNat]?).join

/-- Whether a line, or the one before it, has a comment that covers lines. -/
def isCovered (s : Suppressions) (line : Int) : Bool :=
  (s.commentOn line).isSome || (s.commentOn (line - 1)).isSome

/-- The names in the comments that cover a line. -/
def namesFor (s : Suppressions) (line : Int) : List String :=
  (s.commentOn line).getD [] ++ (s.commentOn (line - 1)).getD []

/-- Whether findings of a rule on a line are suppressed. -/
def suppresses (s : Suppressions) (rule : String) (line : Int) : Bool :=
  Glob.matchesAny s.fileNames rule || Glob.matchesAny (s.namesFor line) rule

/-- The lines that comments cover, ascending. -/
def coveredLines (s : Suppressions) : List Nat :=
  ((List.range (s.comments.length + 1)).map (· + 1)).filter (fun line => s.isCovered line)

/-- Names in order, each once. -/
def sortedNames (names : List String) : List String :=
  names.eraseDups.mergeSort (fun a b => decide (a ≤ b))

/-- The number of covered lines and the number of names that cover the file. -/
def counts (s : Suppressions) : Nat × Nat :=
  (s.coveredLines.length, s.fileNames.eraseDups.length)

end Suppressions

/-! ### Checks of comments -/

namespace Suppression

/-- What is wrong with a suppression comment. -/
inductive Problem where
  /-- It lists no name. -/
  | noNames
  /-- It lists something that is not a name. -/
  | badName (name : String)
deriving DecidableEq, Repr

/-- The wording of a problem. -/
def Problem.message : Problem → String
  | noNames => "Empty suppression list"
  | badName name => s!"Invalid rule name '{name}'"

/-- Whether a character may stand in the name of a rule or in a pattern over such names. -/
def isNameChar (c : Char) : Bool :=
  c.isAlphanum || "_.*?[]-".toList.contains c

/-- The problems of a list of names. -/
def listProblems (list : List Char) : List Problem :=
  let entries := entriesOf list
  (if entries.all List.isEmpty then [.noNames] else []) ++
    (entries.filter (fun e => !e.isEmpty && !e.all isNameChar)).map (.badName ∘ String.ofList)

/-- The problems of the comments on a line, those of the comment that covers the file first. -/
def lineProblems (line : List Char) : List Problem :=
  [Directive.file, Directive.line].flatMap
    (fun d => ((directiveOn d line).map listProblems).getD [])

/-- The problems of the comments of some lines, with their line numbers from a number on. -/
def problemsFrom : Nat → List (List Char) → List (Nat × Problem)
  | _, [] => []
  | n, line :: rest => (lineProblems line).map (fun p => (n, p)) ++ problemsFrom (n + 1) rest

/-- The problems of the comments of a text, with their line numbers. -/
def problems (text : String) : List (Nat × Problem) := problemsFrom 1 (linesOf text)

end Suppression

end TreeLint
