import Montage.CommandLine.Run

/-!
# The program

`main` carries out its arguments on the disk: the operations of `FileSystem` are
those of the operating system, and what `CommandLine.run` returns is printed.
-/

namespace Montage

namespace Disk

/-- The number by which the operating system knows a fault, and its wording. -/
def codeOf : IO.Error → Nat × String
  | .alreadyExists _ code text | .otherError code text | .resourceBusy code text
  | .resourceVanished code text | .unsupportedOperation code text | .hardwareFault code text
  | .unsatisfiedConstraints code text | .illegalOperation code text | .protocolError code text
  | .timeExpired code text | .interrupted _ code text | .noFileOrDirectory _ code text
  | .invalidArgument _ code text | .permissionDenied _ code text | .resourceExhausted _ code text
  | .inappropriateType _ code text | .noSuchThing _ code text => (code.toNat, text)
  | .unexpectedEof => (0, "unexpected end of file")
  | .userError text => (0, text)

/-- The fault behind an error. -/
def faultOf (error : IO.Error) : FileFault :=
  match codeOf error with
  | (2, _) => .notFound
  | (13, _) => .permissionDenied
  | (17, _) => .alreadyExists
  | (20, _) => .notADirectory
  | (21, _) => .isADirectory
  | (36, _) => .nameTooLong
  | (code, text) => .other code text

/-- Acts on a path, unless no file can have that name. -/
def attempt {β : Type} (path : String) (action : IO β) : IO (Except FileFault β) := do
  if path.toList.contains (Char.ofNat 0) then return .error .impossibleName
  match ← action.toBaseIO with
  | .ok result => return .ok result
  | .error error => return .error (faultOf error)

/-- Whether a path leads anywhere. -/
def isPresent (path : String) : IO Bool := do
  match ← attempt path (IO.FS.realPath path) with
  | .ok _ => return true
  | .error _ => return false

end Disk

/-- The files of the operating system. -/
instance : FileSystem IO where
  read path := Disk.attempt path (IO.FS.readBinFile path)
  write path content := Disk.attempt path (IO.FS.writeBinFile path content)
  touch path := Disk.attempt path do
    let _ ← IO.FS.Handle.mk path .append
  append path added := Disk.attempt path do
    (← IO.FS.Handle.mk path .append).write added
  makeDirectory path := Disk.attempt path (IO.FS.createDir path)
  isPresent := Disk.isPresent
  isDirectory path := if path.isEmpty then return false else Disk.isPresent (path ++ "/.")

end Montage

open Montage in
/-- Carries out the arguments; the result is the exit code. -/
def main (arguments : List String) : IO UInt32 := do
  let environment : Environment := ⟨← IO.getEnv "XDG_CONFIG_HOME", ← IO.getEnv "HOME"⟩
  let outcome ← CommandLine.run environment arguments
  IO.print outcome.output
  IO.eprint outcome.errors
  return outcome.exitCode.toUInt32
