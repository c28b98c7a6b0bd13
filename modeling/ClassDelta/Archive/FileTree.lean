import ClassDelta.Bytes.BigEndian

/-!
# File trees

A `FileTree` is a file or a directory with named children, or something else that
a directory can hold.  `FileTree.files` lists the files below a tree in the order
of their paths, compared component by component, whatever the order of the
children; what is neither a file nor a directory is passed over.
`FileTree.find?` follows a relative path.
-/

namespace ClassDelta

/-- What is at a path. -/
inductive FileTree
  | file (contents : Bytes)
  /-- The children of a directory have different names. -/
  | directory (children : List (String × FileTree))
  /-- Something else, such as a link, a pipe or a device, with what is read from it
  when it is opened. -/
  | special (contents : Bytes)

/-- A file below some directory: the names on the way to it, and its contents. -/
structure FoundFile where
  path : List String
  contents : Bytes
deriving DecidableEq

namespace FoundFile

/-- The same file, seen from one directory further up. -/
def below (directory : String) (found : FoundFile) : FoundFile :=
  { found with path := directory :: found.path }

end FoundFile

namespace FileTree

/-! ## Listing -/

/-- Put what was found below each child into the order of the children's names,
which is that of their characters. -/
def inNameOrder (children : List (String × List FoundFile)) : List (String × List FoundFile) :=
  children.mergeSort fun left right => decide (left.1 ≤ right.1)

mutual

/-- The files of a tree in the order of their paths. -/
def files : FileTree → List FoundFile
  | file contents => [⟨[], contents⟩]
  | directory children =>
    (inNameOrder (filesOfChildren children)).flatMap fun (name, found) =>
      found.map (FoundFile.below name)
  | special _ => []

/-- The files of each child. -/
def filesOfChildren : List (String × FileTree) → List (String × List FoundFile)
  | [] => []
  | (name, child) :: later => (name, files child) :: filesOfChildren later

end

/-! ## Following paths -/

/-- Follow the components of a path from a tree whose `parents` are given, the
nearest first.  Every component has to start from a directory, even an empty one
or a dot, which stays there; two dots go back. -/
def follow (parents : List FileTree) (tree : FileTree) : List String → Option FileTree
  | [] => some tree
  | component :: later =>
    match tree with
    | file _ | special _ => none
    | directory children =>
      if component = "" ∨ component = "." then follow parents tree later
      else if component = ".." then
        match parents with
        | [] => none
        | parent :: further => follow further parent later
      else
        match children.lookup component with
        | some child => follow (tree :: parents) child later
        | none => none

/-- The components of a path. -/
def components (path : String) : List String := path.splitOn "/"

/-- What is at a relative path. -/
def find? (root : FileTree) (path : String) : Option FileTree :=
  if path.startsWith "/" then none else follow [] root (components path)

/-! ## Growing trees -/

/-- Change the child of a name, or add it behind the others. -/
def changeChild (name : String) (change : Option FileTree → FileTree) :
    List (String × FileTree) → List (String × FileTree)
  | [] => [(name, change none)]
  | (other, child) :: later =>
    if other = name then (name, change (some child)) :: later
    else (other, child) :: changeChild name change later

/-- Put a tree at a path in what is there, with directories on the way to it.
Nothing is put below what is no directory, and a directory keeps its children
when a directory is put in its place. -/
def insert (new : FileTree) : (path : List String) → (there : Option FileTree) → FileTree
  | [], there =>
    match new, there with
    | directory _, some there => there
    | _, _ => new
  | name :: path, none => directory [(name, insert new path none)]
  | name :: path, some (directory children) =>
    directory (changeChild name (insert new path) children)
  | _ :: _, some other => other

/-- The directory that comes from creating files and empty directories one after
the other; the latter come without contents. -/
def ofPaths (paths : List (String × Option Bytes)) : FileTree :=
  paths.foldl (fun tree (path, contents?) =>
    let new := match contents? with
      | some contents => file contents
      | none => directory []
    insert new (components path) (some tree)) (directory [])

end FileTree

end ClassDelta
