/-!
# Files at hand

A directory holds files under relative paths. A path is walked component by component: an empty one
and a single point stay, two points go up, a name goes down to a file or to a directory, and from a
file nothing leads on. What lies outside the directory is not known.

Results:
* `Directory.walk`: where a path leads.
* `Directory.content?`: the content of a file.
* `Directory.holds`: whether a path leads to anything.
-/
namespace SignalHub

namespace Path

/-- What stands between slashes. -/
def split : List Char → List (List Char)
  | [] => [[]]
  | c :: rest =>
    if c = '/' then [] :: split rest
    else
      match split rest with
      | [] => [[c]]
      | part :: parts => (c :: part) :: parts

/-- The components of a path, those that lead nowhere else too. -/
def parts (path : String) : List String := (split path.toList).map String.ofList

/-- Whether a component of a path stays where it is. -/
def stays (part : String) : Bool := part == "" || part == "."

/-- The components of a path that lead anywhere. -/
def components (path : String) : List String := (parts path).filter fun c => !stays c

/-- A relative path of these components. -/
def ofComponents (components : List String) : String := "/".intercalate components

/-- Whether a path does not start from the directory at hand. -/
def isAbsolute (path : String) : Bool := path.toList.head? == some '/'

end Path

/-- Files with their paths. -/
structure Directory where
  files : List (String × String)

namespace Directory

/-- Where a path leads. -/
inductive Spot where
  | file (content : String)
  /-- A directory, by its components below the one at hand. -/
  | folder (path : List String)
  | outside
  | nowhere
  deriving DecidableEq, Repr

/-- What stands under these components. -/
def spotAt (d : Directory) (path : List String) : Spot :=
  match d.files.find? fun f => Path.components f.1 == path with
  | some f => .file f.2
  | none =>
    if d.files.any fun f => path.isPrefixOf (Path.components f.1) then .folder path else .nowhere

/-- Goes on from a spot by one component. -/
def step (d : Directory) (spot : Spot) (part : String) : Spot :=
  match spot with
  | .folder path =>
    if Path.stays part then .folder path
    else if part = ".." then if path = [] then .outside else .folder path.dropLast
    else d.spotAt (path ++ [part])
  | .file _ => .nowhere
  | .outside => if Path.stays part ∨ part = ".." then .outside else .nowhere
  | .nowhere => .nowhere

/-- Where a path leads. -/
def walk (d : Directory) (path : String) : Spot :=
  (Path.parts path).foldl d.step (if Path.isAbsolute path then .outside else .folder [])

/-- The content of a file. -/
def content? (d : Directory) (path : String) : Option String :=
  match d.walk path with
  | .file content => some content
  | _ => none

/-- Whether a path leads to a file or to a directory. -/
def holds (d : Directory) (path : String) : Bool := path != "" && d.walk path != .nowhere

end Directory

end SignalHub
