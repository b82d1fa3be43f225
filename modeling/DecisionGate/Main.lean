import DecisionGate.Packaged
import DecisionGate.Tool.Basic

/-!
The command line: the first argument names a tool, the others are the tool's own.
-/
open DecisionGate

/-- The variables that override parts of the configuration, as far as they are set. -/
def setVariables : IO Config.Environment :=
  Config.overrides.filterMapM fun o => do
    let value ← IO.getEnv o.varName
    pure (value.map fun v => (o.varName, v))

/-- Puts a file under its name into a tree, when it is there. -/
def addFile (tree : Files.Tree) (name : String) : IO Files.Tree := do
  try
    let octets ← IO.FS.readBinFile name
    match tree.write (.ofText name) (octets.toList.map UInt8.toNat) with
    | .ok tree => pure tree
    | .error _ => pure tree
  catch _ => pure tree

def namedFile? (words : List String) : Option String :=
  match Tool.parseArguments words with
  | .ok (.run a) => a.input.bind Tool.Given.named?
  | _ => none

def readsStdin (words : List String) : Bool :=
  match Tool.parseArguments words with
  | .ok (.run a) => a.stdin
  | _ => false

def runTool (t : Tool) (words : List String) : IO UInt32 := do
  let environment ← setVariables
  let tree ← match namedFile? words with
    | some name => addFile Packaged.tree name
    | none => pure Packaged.tree
  let stdin ← if readsStdin words then (← IO.getStdin).readToEnd else pure ""
  match Tool.run t { tree, stdin, configPath := Packaged.configPath, environment } words with
  | .error f => do
    IO.eprintln f.message
    pure 1
  | .ok ending => do
    IO.print ending.stdout
    IO.eprint ending.stderr
    pure (UInt32.ofNat ending.code)

def main (args : List String) : IO UInt32 := do
  match args with
  | name :: words =>
    match Tool.ofProgram? name with
    | some t => runTool t words
    | none => do
      IO.eprintln s!"unknown tool: {name}"
      pure 1
  | [] => do
    IO.eprintln ("usage: TOOL ...\ntools: " ++ ", ".intercalate (Builtin.all.map Tool.program))
    pure 1
