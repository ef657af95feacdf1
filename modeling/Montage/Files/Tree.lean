import Montage.Files.Access

/-!
# A tree of files as a value

`Tree` is a root directory with files and directories in it, and a place from
which relative paths start.  `Tree.entries` lists what there is by the names that
lead to it from the root.

A path is walked name by name.  Only a directory can be walked through, and a
name that is longer than 255 bytes is nowhere.  A slash at the end stands for
the directory itself, so it is refused behind the name of a file.

What a disk adds to this is left out: links, permissions, and writes that fail for
want of room.
-/

namespace Montage

/-- What a name can stand for. -/
inductive Entry
  | file (content : ByteArray)
  | directory

/-- Files and directories, and where relative paths start. -/
structure Tree where
  entries : List (List String × Entry)
  start : List String

namespace Tree

/-- A tree with one directory in the root, in which relative paths start. -/
def empty : Tree := ⟨[(["work"], .directory)], ["work"]⟩

/-- What stands at a place; the root is a directory. -/
def entry? (tree : Tree) (place : List String) : Option Entry :=
  if place = [] then some .directory else tree.entries.lookup place

/-- The tree with something new at a place. -/
def put (tree : Tree) (place : List String) (entry : Entry) : Tree :=
  { tree with entries := (place, entry) :: tree.entries.filter (·.1 != place) }

/-- The longest name, in bytes. -/
def longestName : Nat := 255

/-- The length that a path does not reach, in bytes. -/
def pathLimit : Nat := 4096

/-- The place that names lead to from `here`. -/
def walk (tree : Tree) (here : List String) : List String → Except FileFault (List String)
  | [] => .ok here
  | name :: names =>
    match tree.entry? here with
    | none => .error .notFound
    | some (.file _) => .error .notADirectory
    | some .directory =>
      if name = "." then walk tree here names
      else if name = ".." then walk tree here.dropLast names
      else if longestName < name.utf8ByteSize then .error .nameTooLong
      else
        let next := here ++ [name]
        if (tree.entry? next).isSome then walk tree next names else .error .notFound

/-- Where a path starts, unless it cannot be one. -/
def origin (tree : Tree) (path : String) : Except FileFault (List String) :=
  if path.toList.contains (Char.ofNat 0) then .error .impossibleName
  else if path.isEmpty then .error .notFound
  else if pathLimit ≤ path.utf8ByteSize then .error .nameTooLong
  else .ok (if Path.isAbsolute path then [] else tree.start)

/-- The place of something that exists. -/
def find (tree : Tree) (path : String) : Except FileFault (List String) := do
  let here ← tree.origin path
  tree.walk here (Path.parts path ++ if Path.endsInSlash path then ["."] else [])

/-- The directory in which a path ends and the name in it; no name if the path
ends in a directory by itself. -/
def findName (tree : Tree) (path : String) :
    Except FileFault (List String × Option String) := do
  let here ← tree.origin path
  let parts := Path.parts path
  match parts.getLast? with
  | none => return (here, none)
  | some name =>
    let directory ← tree.walk here (parts.dropLast ++ ["."])
    if name = "." ∨ name = ".." then return (directory, none)
    else return (directory, some name)

/-- The content of a file. -/
def read (tree : Tree) (path : String) : Except FileFault ByteArray := do
  let place ← tree.find path
  match tree.entry? place with
  | some (.file content) => return content
  | some .directory => throw .isADirectory
  | none => throw .notFound

/-- The place of a file that is opened for writing, and its content if it
exists. -/
def openFile (tree : Tree) (path : String) :
    Except FileFault (List String × Option ByteArray) := do
  let (directory, name) ← tree.findName path
  match name with
  | none => throw .isADirectory
  | some name =>
    if Path.endsInSlash path then throw .isADirectory
    else if longestName < name.utf8ByteSize then throw .nameTooLong
    else
      let place := directory ++ [name]
      match tree.entry? place with
      | some .directory => throw .isADirectory
      | some (.file content) => return (place, some content)
      | none => return (place, none)

/-- The tree after a file has been given a content. -/
def write (tree : Tree) (path : String) (content : ByteArray) : Except FileFault Tree := do
  let (place, _) ← tree.openFile path
  return tree.put place (.file content)

/-- The tree with a file, which is empty if it is new. -/
def touch (tree : Tree) (path : String) : Except FileFault Tree := do
  match ← tree.openFile path with
  | (_, some _) => return tree
  | (place, none) => return tree.put place (.file ByteArray.empty)

/-- The tree after something has been added at the end of a file, which begins empty if it is
new. -/
def append (tree : Tree) (path : String) (added : ByteArray) : Except FileFault Tree := do
  let (place, found) ← tree.openFile path
  return tree.put place (.file (found.getD ByteArray.empty ++ added))

/-- The tree with a new directory. -/
def makeDirectory (tree : Tree) (path : String) : Except FileFault Tree := do
  let (directory, name) ← tree.findName path
  match name with
  | none => throw .alreadyExists
  | some name =>
    if longestName < name.utf8ByteSize then throw .nameTooLong
    else
      let place := directory ++ [name]
      if (tree.entry? place).isSome then throw .alreadyExists
      else return tree.put place .directory

/-- Whether a path leads anywhere. -/
def isPresent (tree : Tree) (path : String) : Bool :=
  match tree.find path with
  | .ok _ => true
  | .error _ => false

/-- Whether a path leads to a directory. -/
def isDirectory (tree : Tree) (path : String) : Bool :=
  match tree.find path with
  | .ok place => match tree.entry? place with
    | some .directory => true
    | _ => false
  | .error _ => false

/-- A step that changes the tree if it succeeds. -/
def attempt (step : Tree → Except FileFault Tree) : StateM Tree (Except FileFault Unit) :=
  fun tree => match step tree with
    | .ok next => (.ok (), next)
    | .error fault => (.error fault, tree)

instance : FileSystem (StateM Tree) where
  read path := fun tree => (tree.read path, tree)
  write path content := attempt (·.write path content)
  touch path := attempt (·.touch path)
  append path added := attempt (·.append path added)
  makeDirectory path := attempt (·.makeDirectory path)
  isPresent path := fun tree => (tree.isPresent path, tree)
  isDirectory path := fun tree => (tree.isDirectory path, tree)

end Tree

end Montage
