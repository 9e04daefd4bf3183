/-
  Loading catalogs.

  A catalog is loaded from a file or from a text.  A `LoadFailure` says that the
  file cannot be read, that its text is no document, or that the document
  contradicts itself.
-/
import SignGloss.Exchange
import SignGloss.Folder

namespace SignGloss

/-- Why there is no catalog at a path. -/
inductive LoadFailure where
  | unreadable (path : String) (reason : ReadFailure)
  | malformed (path : String) (fault : Json.Located)
  | inconsistent (path : String) (problem : Problem)
deriving Repr, DecidableEq

/-- The failure as told to a user. -/
def LoadFailure.message : LoadFailure → String
  | unreadable path reason => "failed to read '" ++ path ++ "': " ++ reason.message
  | malformed path fault =>
    path ++ ":" ++ toString fault.line ++ ":" ++ toString fault.column ++ ": " ++ fault.message
  | inconsistent path problem => path ++ ": " ++ problem.message

namespace Catalog

/-- The catalog that a text from a path describes. -/
def ofText (path content : String) : Except LoadFailure Catalog :=
  match Document.codec.decode content with
  | .error fault => .error (.malformed path fault)
  | .ok d => (ofDocument d).mapError (.inconsistent path)

/-- What stands for the path of a text that comes from no file. -/
def noPath : String := "<string>"

/-- The catalog that a text describes. -/
def ofString (content : String) : Except LoadFailure Catalog := ofText noPath content

/-- The catalog in a file. -/
def load (files : Files) (path : String) : Except LoadFailure Catalog :=
  match files path with
  | .error reason => .error (.unreadable path reason)
  | .ok content => ofText path content

end Catalog

end SignGloss
