import Montage.Files.Path
import Montage.Problem

/-!
# Access to files

What the program does with files is written over the operations of
`FileSystem`, for any way of carrying them out: on a disk, or in a tree that is
a value.

`makeDirectories` and the readers and writers of whole texts are built from
them.
-/

namespace Montage

/-- The operations on files that the program needs. -/
class FileSystem (m : Type → Type) where
  /-- The content of a file. -/
  read : String → m (Except FileFault ByteArray)
  /-- Gives a file a content; the file is made if it does not exist. -/
  write : String → ByteArray → m (Except FileFault Unit)
  /-- Makes a file that does not exist, and leaves one that does as it is. -/
  touch : String → m (Except FileFault Unit)
  /-- Adds something at the end of a file; the file is made if it does not exist. -/
  append : String → ByteArray → m (Except FileFault Unit)
  /-- Makes a directory in one that exists. -/
  makeDirectory : String → m (Except FileFault Unit)
  /-- Whether there is a file or directory. -/
  isPresent : String → m Bool
  isDirectory : String → m Bool

namespace FileSystem

/-- The same operations in a computation that can also fail. -/
instance {m : Type → Type} {ε : Type} [Monad m] [FileSystem m] : FileSystem (ExceptT ε m) where
  read path := ExceptT.lift (read path)
  write path content := ExceptT.lift (write path content)
  touch path := ExceptT.lift (touch path)
  append path added := ExceptT.lift (append path added)
  makeDirectory path := ExceptT.lift (makeDirectory path)
  isPresent path := ExceptT.lift (isPresent path)
  isDirectory path := ExceptT.lift (isDirectory path)

variable {m : Type → Type} [Monad m] [FileSystem m]

/-- The text of a file. -/
def readText (path : String) : ExceptT FileFault m String := do
  let bytes ← ExceptT.mk (read path)
  match String.fromUTF8? bytes with
  | some text => return text
  | none => throw .notText

/-- Gives a file a text. -/
def writeText (path text : String) : ExceptT FileFault m Unit :=
  ExceptT.mk (write path text.toUTF8)

/-- A directory that exists is as good as one that has been made. -/
def settle (path : String) : Except FileFault Unit → ExceptT FileFault m Unit
  | .ok _ => pure ()
  | .error fault => do
    if ← isDirectory path then pure () else throw fault

/-- Makes the first of the directories, and before it those above it that are
missing; each stands directly below the next. -/
def makeInnermost : List String → ExceptT FileFault m Unit
  | [] => pure ()
  | path :: outer => do
    match ← makeDirectory path with
    | .error .notFound =>
      makeInnermost outer
      settle path (← makeDirectory path)
    | result => settle path result

/-- Makes a directory and all that are missing above it. -/
def makeDirectories (path : String) : ExceptT FileFault m Unit :=
  makeInnermost (Path.ancestors path)

end FileSystem

end Montage
