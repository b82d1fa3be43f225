import DecisionGate.Config.Document

/-!
Knowledge written as sections. A line that begins with a number sign and a blank is a heading, and
what follows up to the next heading is its body; what comes before the first heading is dropped. A
body with a fenced block of data stands for the data of its first block.
-/
namespace DecisionGate.Mind

open Text

/-- The heading that a line is. -/
def heading? : List Char → Option String
  | '#' :: ' ' :: rest => some (String.ofList (trim rest))
  | _ => none

/-- Lines as one text without blanks at its ends. -/
def bodyText (lines : List (List Char)) : String :=
  String.ofList (trim (['\n'].intercalate lines))

/-- Ends a section; of equal headings the first place and the last body stay. -/
def closeSection (done : Entries) : Option (String × List (List Char)) → Entries
  | none => done
  | some (heading, body) => done.set heading (.str (bodyText body))

/-- Goes through the lines, with the section that is open. -/
def sectionsFrom (done : Entries) (current : Option (String × List (List Char))) :
    List (List Char) → Entries
  | [] => closeSection done current
  | line :: rest =>
    match heading? line with
    | some heading => sectionsFrom (closeSection done current) (some (heading, [])) rest
    | none =>
      sectionsFrom done (current.map fun (heading, body) => (heading, body ++ [line])) rest

/-- The bodies of a text under their headings. -/
def sections (text : String) : Entries := sectionsFrom [] none (lines text.toList)

def fence : List Char := ['\x60', '\x60', '\x60']

/-- The two ways in which a block of data is opened. -/
def openings : List (List Char) := [fence ++ "yaml\n".toList, fence ++ "yml\n".toList]

def closing : List Char := '\n' :: fence

/-- What a text holds after an opening that it begins with. -/
def afterOpening? (cs : List Char) : Option (List Char) :=
  (openings.find? (·.isPrefixOf cs)).map fun o => cs.drop o.length

/-- What follows the leftmost opening. -/
def blockStart? : List Char → Option (List Char)
  | [] => none
  | c :: rest =>
    match afterOpening? (c :: rest) with
    | some block => some block
    | none => blockStart? rest

/-- What stands before the first closing. -/
def beforeClosing? : List Char → Option (List Char)
  | [] => none
  | c :: rest =>
    if closing.isPrefixOf (c :: rest) then some []
    else (beforeClosing? rest).map (c :: ·)

/-- The text of the first block. -/
def block? (body : String) : Option String :=
  ((blockStart? body.toList).bind beforeClosing?).map String.ofList

def artifactComponent : String := "mind_artifacts"

/-- The data of a body: what its first block is loaded as, or its text when there is none or it is
no well-formed document. -/
def sectionValue (load : String → Yaml.Read Value) (body : Value) :
    Report (Except Failure Value) :=
  match body.text?.bind block? with
  | none => pure (.ok body)
  | some block =>
    match load block with
    | .ok v => pure (.ok v)
    | .error .malformed => do
      noteWarning artifactComponent "yaml_section_unparsed"
      pure (.ok body)
    | .error p => pure (.error (.ofYaml p))

def sectionValues (load : String → Yaml.Read Value) : Entries → Report (Except Failure Entries)
  | [] => pure (.ok [])
  | (heading, body) :: rest => do
    match ← sectionValue load body with
    | .error f => pure (.error f)
    | .ok v => do
      let more ← sectionValues load rest
      pure (more.map fun es => (heading, v) :: es)

/-- The data of every section of a text, by some loader of blocks. -/
def parseBy (load : String → Yaml.Read Value) (text : String) : Report (Except Failure Entries) :=
  sectionValues load (sections text)

/-- The data of every section of a text, by a reader of documents. -/
def parseSections (text : String) (reader : Yaml.Reader := Yaml.reader) :
    Report (Except Failure Entries) :=
  parseBy (fun block => reader.read (.text block)) text

end DecisionGate.Mind
