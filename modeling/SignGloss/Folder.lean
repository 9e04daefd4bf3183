/-
  Folders and the reading of files.

  * `Files` gives the text of a file by its path, or a `ReadFailure` that says
    why there is none;
  * `pathFault?` is what is wrong with a path before anything is looked up: a
    NUL, no characters, or too many bytes;
  * a `Folder` is a tree of files with their bytes.  A path is followed from the
    folder one part at a time (`step`); what is above the folder has no files.
-/
import SignGloss.Text.Pieces
import SignGloss.Text.Place

namespace SignGloss

/-- Why a file cannot be read as a text. -/
inductive ReadFailure where
  | missing
  | directory
  | notDirectory
  | nameTooLong
  | nulInPath
  | notText
  /-- another reason, in the words of the system -/
  | system (reason : String)
deriving Repr, DecidableEq

/-- The reason as told to a user. -/
def ReadFailure.message : ReadFailure → String
  | missing => "No such file or directory (os error 2)"
  | directory => "Is a directory (os error 21)"
  | notDirectory => "Not a directory (os error 20)"
  | nameTooLong => "File name too long (os error 36)"
  | nulInPath => "file name contained an unexpected NUL byte"
  | notText => "stream did not contain valid UTF-8"
  | system reason => reason

/-- The texts of files by their paths. -/
abbrev Files := String → Except ReadFailure String

/-- Bytes as a text in UTF-8. -/
def textOfBytes (bytes : ByteArray) : Except ReadFailure String :=
  match String.fromUTF8? bytes with
  | some s => .ok s
  | none => .error .notText

/-! ## Paths -/

/-- The parts of a path between slashes. -/
def pathParts (path : String) : List String := (Text.pieces '/' path.toList).map String.ofList

/-- A part that leads nowhere else. -/
def staysHere (part : String) : Bool := part = "" ∨ part = "."

/-- The greatest length of a part in bytes. -/
def mostPartBytes : Nat := 255

/-- The greatest length of a path in bytes, its empty parts and dots counted. -/
def mostPathBytes : Nat := 4095

/-- A part is short enough to be a name. -/
def isNameSized (part : String) : Bool := Text.size part.toList ≤ mostPartBytes

/-- What is wrong with a path, whatever there is to find. -/
def pathFault? (path : String) : Option ReadFailure :=
  if '\x00' ∈ path.toList then some .nulInPath
  else if path = "" then some .missing
  else if mostPathBytes < Text.size path.toList then some .nameTooLong
  else none

/-! ## Folders -/

/-- Files with their bytes, by the parts of their paths. -/
structure Folder where
  files : List (List String × ByteArray)

/-- Where a path has led. -/
inductive Location where
  | file (bytes : ByteArray)
  /-- the folder itself, or one in it -/
  | directory (parts : List String)
  /-- a folder above -/
  | above

namespace Folder

/-- The folder with files of the given names.  A later file replaces an earlier
    one of its name. -/
def ofFiles (files : List (String × ByteArray)) : Folder :=
  ⟨files.reverse.map fun p => ((pathParts p.1).filter (!staysHere ·), p.2)⟩

/-- The file with the given parts. -/
def file? (f : Folder) (parts : List String) : Option ByteArray :=
  (f.files.find? fun p => p.1 = parts).map Prod.snd

/-- There are files below the given parts. -/
def hasDirectory (f : Folder) (parts : List String) : Bool :=
  f.files.any fun p => parts.isPrefixOf p.1 && p.1 ≠ parts

/-- Follow a name in the folder with the given parts. -/
def enter (f : Folder) (parts : List String) (name : String) : Except ReadFailure Location :=
  match f.file? (parts ++ [name]) with
  | some bytes => .ok (.file bytes)
  | none =>
    if f.hasDirectory (parts ++ [name]) then .ok (.directory (parts ++ [name]))
    else .error .missing

/-- Follow a part of a path.  Behind a file there is nothing to look up, so a part
    that is too long is noticed in a folder only. -/
def step (f : Folder) : Location → String → Except ReadFailure Location
  | .file _, _ => .error .notDirectory
  | place, part =>
    if staysHere part then .ok place
    else if !isNameSized part then .error .nameTooLong
    else match place with
      | .directory parts =>
        if part ≠ ".." then f.enter parts part
        else .ok (if parts.isEmpty then .above else .directory parts.dropLast)
      | _ => if part = ".." then .ok .above else .error .missing

/-- Follow a path. -/
def follow (f : Folder) (path : String) : Except ReadFailure Location :=
  match pathFault? path with
  | some e => .error e
  | none =>
    (pathParts path).foldlM f.step
      (if path.toList.head? = some '/' then Location.above else .directory [])

/-- The texts of the files. -/
def text (f : Folder) : Files := fun path =>
  match f.follow path with
  | .error e => .error e
  | .ok (.file bytes) => textOfBytes bytes
  | .ok _ => .error .directory

end Folder

end SignGloss
