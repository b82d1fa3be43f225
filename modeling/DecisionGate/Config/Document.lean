import DecisionGate.Failure
import DecisionGate.Files.Tree
import DecisionGate.Telemetry.Note
import DecisionGate.Yaml.Document

/-!
The configuration document as a file holds it. A file that is absent, cannot be opened, is no
well-formed document or holds something else than a mapping gives none, and a warning says which.
-/
namespace DecisionGate.Config

/-- A mapping that was read, with a number of its own. -/
structure Document where
  serial : Nat
  entries : Entries

/-- A document that was read anew, with the one that it replaced. -/
structure Change where
  new : Document
  old : Option Document

/-- Where a configuration document comes from: the path of its file, and what reads it. -/
structure Origin where
  path : Files.Path
  reader : Yaml.Reader := Yaml.reader

def storeComponent : String := "config_store"

/-- No document, with the reason. -/
def noDocument (reason : String) : Report (Except Failure (Option Entries)) := do
  noteWarning storeComponent reason
  pure (.ok none)

/-- What the octets of a file come to. -/
def parseDocument (reader : Yaml.Reader) (octets : List Nat) :
    Report (Except Failure (Option Entries)) :=
  match reader.read (.file octets) with
  | .error .malformed => noDocument "config_parse_error"
  | .error p => pure (.error (.ofYaml p))
  | .ok (.map es) => pure (.ok (some es))
  | .ok _ => noDocument "config_not_a_mapping"

def readDocument (o : Origin) (tree : Files.Tree) : Report (Except Failure (Option Entries)) :=
  match tree.octets o.path with
  | .error (.absent _) => noDocument "config_file_missing"
  | .error p =>
    if p.isNoPath then pure (.error (.file p)) else noDocument "config_file_unreadable"
  | .ok octets => parseDocument o.reader octets

end DecisionGate.Config
