import DecisionGate.Value.Basic
import DecisionGate.Numeric.Format
import DecisionGate.Text.Quoted

/-!
The text of a document in messages. A text stands for itself at the top and quoted inside lists and
mappings; the constants are `None`, `True` and `False`.
-/
namespace DecisionGate

/-- The quoted form of a key. -/
def Key.quoted : Key → String
  | .null => "None"
  | .bool b => if b then "True" else "False"
  | .int i => Format.integer i
  | .float x => Format.double x
  | .str s => Text.quoted s

/-- Whether an integer as a key is short enough to be shown. -/
def Key.hasText : Key → Bool
  | .int i => Format.hasText i
  | _ => true

namespace Value

mutual

/-- The form a value has inside another. -/
def quoted : Value → String
  | .null => "None"
  | .bool b => if b then "True" else "False"
  | .int i => Format.integer i
  | .float x => Format.double x
  | .str s => Text.quoted s
  | .list xs => "[" ++ ", ".intercalate (quotedItems xs) ++ "]"
  | .map es => "\x7b" ++ ", ".intercalate (quotedEntries es) ++ "\x7d"
  | .endless _ => "\x7b...\x7d"

def quotedItems : List Value → List String
  | [] => []
  | v :: rest => quoted v :: quotedItems rest

def quotedEntries : List (Key × Value) → List String
  | [] => []
  | (k, v) :: rest => (k.quoted ++ ": " ++ quoted v) :: quotedEntries rest

end

def text : Value → String
  | .str s => s
  | v => quoted v

mutual

/-- Whether every integer in a value is short enough to be shown. -/
def hasText : Value → Bool
  | .int i => Format.hasText i
  | .list xs => itemsHaveText xs
  | .map es => entriesHaveText es
  | _ => true

def itemsHaveText : List Value → Bool
  | [] => true
  | v :: rest => hasText v && itemsHaveText rest

def entriesHaveText : List (Key × Value) → Bool
  | [] => true
  | (k, v) :: rest => k.hasText && hasText v && entriesHaveText rest

end

end Value

/-- The text of a key on its own. -/
def Key.text : Key → String
  | .str s => s
  | k => k.quoted

end DecisionGate
