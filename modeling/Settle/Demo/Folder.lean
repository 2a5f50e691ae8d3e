/-!
# Finding a file by its path

A folder that is empty but for one file, at most, and what is found there under a path. A path is
walked name by name. What lies outside the folder is not known: there are folders there, which can
be gone through by their dots, and nothing else.
-/

namespace Settle.Demo

/-- Why the text of a file is not to be had. -/
inductive ReadFailure where
  /-- There is nothing under the path. -/
  | notFound
  /-- The path goes through something that is not a folder. -/
  | notDirectory
  /-- There is a folder under the path. -/
  | isDirectory
  /-- The path, or a name in it, is too long. -/
  | nameTooLong
  /-- The bytes of the file are no text. -/
  | notText
  /-- The system gave another cause. -/
  | other (code : Nat) (details : String)
deriving DecidableEq, Repr

namespace ReadFailure

/-- The wording of a cause that the system numbers. -/
def systemText (details : String) (code : Nat) : String := s!"{details} (os error {code})"

/-- The wording of a cause. -/
def message : ReadFailure → String
  | .notFound => systemText "No such file or directory" 2
  | .notDirectory => systemText "Not a directory" 20
  | .isDirectory => systemText "Is a directory" 21
  | .nameTooLong => systemText "File name too long" 36
  | .notText => "stream did not contain valid UTF-8"
  | .other code details => systemText details code

end ReadFailure

/-- A folder, and the one file in it. -/
structure Folder where
  /-- The name of the file. -/
  name : String
  /-- Its bytes, if it is there. -/
  bytes : Option ByteArray

namespace Folder

/-- Where a walk stands. -/
inductive Place where
  /-- In the folder. -/
  | inside
  /-- In some folder outside. -/
  | outside
  /-- At the file. -/
  | file
deriving DecidableEq, Repr

/-- The most bytes a name may have. -/
def maxName : Nat := 255

/-- The number of bytes from which on a path is too long. -/
def pathBound : Nat := 4096

/-- Whether there is a file of this name. -/
def holds (f : Folder) (name : String) : Bool := f.bytes.isSome && name == f.name

/-- Goes on by one name. A name that is empty or a dot stays where it is, but only in a folder. -/
def enter (f : Folder) (at? : Place) (name : String) : Except ReadFailure Place :=
  if at? = .file then .error .notDirectory
  else if name = "" ∨ name = "." then .ok at?
  else if name = ".." then .ok .outside
  else if maxName < name.utf8ByteSize then .error .nameTooLong
  else if at? = .inside ∧ f.holds name then .ok .file
  else .error .notFound

/-- Walks a path. A path that begins with a slash begins outside. -/
def walk (f : Folder) (path : String) : Except ReadFailure Place :=
  if path = "" then .error .notFound
  else if pathBound ≤ path.utf8ByteSize then .error .nameTooLong
  else
    let start : Place := if path.startsWith "/" then .outside else .inside
    (path.splitOn "/").foldlM f.enter start

/-- The bytes found under a path. -/
def read (f : Folder) (path : String) : Except ReadFailure ByteArray := do
  match ← f.walk path with
  | .file => return f.bytes.getD .empty
  | _ => throw .isDirectory

end Folder

end Settle.Demo
