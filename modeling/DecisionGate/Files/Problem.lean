import DecisionGate.Text.Utf8

/-!
What the file system refuses, and the paths that do not get as far as that: no path has a null
character, and every character of a path has to have octets.
-/
namespace DecisionGate.Files

inductive Problem where
  | absent (path : String)
  | directory (path : String)
  | notDirectory (path : String)
  | exists (path : String)
  | nameTooLong (path : String)
  | nullCharacter
  | unwritable (g : Utf8.Gap)
  deriving DecidableEq, Repr

def Problem.message : Problem → String
  | .absent path => s!"[Errno 2] No such file or directory: {Text.quoted path}"
  | .directory path => s!"[Errno 21] Is a directory: {Text.quoted path}"
  | .notDirectory path => s!"[Errno 20] Not a directory: {Text.quoted path}"
  | .exists path => s!"[Errno 17] File exists: {Text.quoted path}"
  | .nameTooLong path => s!"[Errno 36] File name too long: {Text.quoted path}"
  | .nullCharacter => "embedded null byte"
  | .unwritable g => g.message

/-- Whether a path is no path at all. -/
def Problem.isNoPath : Problem → Bool
  | .nullCharacter => true
  | .unwritable _ => true
  | _ => false

end DecisionGate.Files
