/-
Where the configuration of a directory is.

The configuration file is looked for in a directory and then in those around it,
up to the root; in each of them the names are tried in order.
-/
namespace TreeLint.Config

/-- The names of configuration files, the preferred one first. -/
def fileNames : List String := [".lintcore.yml", ".lintcore.yaml", "lintcore.yml", "lintcore.yaml"]

/-- The places from one up to the root. -/
def upwards : List String → List (List String)
  | [] => [[]]
  | name :: rest => (upwards rest).map (name :: ·) ++ [[]]

/-- The configuration file in a directory. -/
def fileIn? (present : List String → Bool) (directory : List String) : Option (List String) :=
  (fileNames.map (fun name => directory ++ [name])).find? present

/-- The configuration file that is nearest to a directory. -/
def nearestFile? (present : List String → Bool) (start : List String) : Option (List String) :=
  (upwards start).findSome? (fileIn? present)

end TreeLint.Config
