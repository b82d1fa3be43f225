/-!
The three built-in heuristics and the words they are known by.
-/
namespace DecisionGate

inductive Builtin where
  | backCasting
  | coherenceScan
  | automationCheck
  deriving DecidableEq, Repr

/-- What a decision function was made for; everything that is registered is custom. -/
inductive Kind where
  | builtin (b : Builtin)
  | custom
  deriving DecidableEq, Repr

namespace Builtin

/-- In the order in which they are loaded. -/
def all : List Builtin := [.backCasting, .coherenceScan, .automationCheck]

def id : Builtin → String
  | .backCasting => "PV_BS_001"
  | .coherenceScan => "PV_PA_001"
  | .automationCheck => "PV_PM_001"

/-- The key of its decision function in a bundle. -/
def key : Builtin → String
  | .backCasting => "back_casting"
  | .coherenceScan => "coherence_scan"
  | .automationCheck => "automation_check"

def title : Builtin → String
  | .backCasting => "Future System Back-Casting"
  | .coherenceScan => "Systemic Coherence Scan"
  | .automationCheck => "Automation Tipping Point"

def domain : Builtin → String
  | .backCasting => "business_strategy"
  | .coherenceScan => "people_assessment"
  | .automationCheck => "process_management"

def ofId? (name : String) : Option Builtin := all.find? fun b => b.id == name

theorem mem_all (b : Builtin) : b ∈ all := by cases b <;> decide

theorem ofId?_id (b : Builtin) : ofId? b.id = some b := by cases b <;> decide

theorem id_of_ofId? {name : String} {b : Builtin} (h : ofId? name = some b) : b.id = name := by
  have := List.find?_some h
  simpa using this

end Builtin

def Kind.name : Kind → String
  | .builtin b => b.key
  | .custom => "custom"

end DecisionGate
