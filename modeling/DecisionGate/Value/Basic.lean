import DecisionGate.Numeric.Double

/-!
Documents: the untyped values that configurations, contexts and results are made of. Integers are of
any size and differ from doubles; a mapping keeps its entries in the order in which their keys first
came. Keys are scalars, and two keys are one when they compare equal as numbers.
-/
namespace DecisionGate

/-- A scalar that can stand as a key of a mapping. -/
inductive Key where
  | null
  | bool (b : Bool)
  | int (i : Int)
  | float (x : Float)
  | str (s : String)
  deriving Inhabited

inductive Value where
  | null
  | bool (b : Bool)
  | int (i : Int)
  | float (x : Float)
  | str (s : String)
  | list (items : List Value)
  | map (entries : List (Key × Value))
  /-- A collection that holds itself, where it is not shown again; `apart` when that is inside a
  pair. -/
  | endless (apart : Bool)
  deriving Inhabited

/-- The entries of a mapping, in order. -/
abbrev Entries := List (Key × Value)

namespace Key

/-- Truth values count as the integers one and zero. -/
def integer? : Key → Option Int
  | .bool b => some (if b then 1 else 0)
  | .int i => some i
  | _ => none

/-- Whether two keys are one. NaN is no other key's equal, not even its own. -/
def sameAs (a b : Key) : Bool :=
  match a, b with
  | .null, .null => true
  | .str s, .str t => s == t
  | .float x, .float y => x == y
  | .float x, k => (k.integer?.map fun i => Double.compareInt x i == some .eq).getD false
  | k, .float x => (k.integer?.map fun i => Double.compareInt x i == some .eq).getD false
  | a, b =>
    match a.integer?, b.integer? with
    | some i, some j => i == j
    | _, _ => false

def toValue : Key → Value
  | .null => .null
  | .bool b => .bool b
  | .int i => .int i
  | .float x => .float x
  | .str s => .str s

theorem sameAs_str (s t : String) : sameAs (.str s) (.str t) = (s == t) := rfl

end Key

namespace Entries

def find? (k : Key) : Entries → Option Value
  | [] => none
  | (k', v) :: rest => if k'.sameAs k then some v else find? k rest

/-- The value under a name. -/
def get? (es : Entries) (name : String) : Option Value := find? (.str name) es

def hasName (es : Entries) (name : String) : Bool := (es.get? name).isSome

/-- A present key keeps its place and takes the new value; a new one goes to the end. -/
def put (k : Key) (v : Value) : Entries → Entries
  | [] => [(k, v)]
  | (k', v') :: rest => if k'.sameAs k then (k', v) :: rest else (k', v') :: put k v rest

def set (es : Entries) (name : String) (v : Value) : Entries := put (.str name) v es

/-- Every entry of the second, put into the first in order. -/
def update (es more : Entries) : Entries := more.foldl (fun acc e => put e.1 e.2 acc) es

/-- Entries written one after the other: of equal keys the first place and the last value stay. -/
def ofList (pairs : List (Key × Value)) : Entries := update [] pairs

def ofNames (pairs : List (String × Value)) : Entries := pairs.map fun p => (.str p.1, p.2)

end Entries

namespace Value

/-- The empty values are false, as are zero and null. -/
def isTruthy : Value → Bool
  | .null => false
  | .bool b => b
  | .int i => i != 0
  | .float x => !(x == 0.0)
  | .str s => !s.isEmpty
  | .list xs => !xs.isEmpty
  | .map es => !es.isEmpty
  | .endless _ => true

/-- Truth values are no numbers. -/
def isNumber : Value → Bool
  | .int _ => true
  | .float _ => true
  | _ => false

def isNull : Value → Bool
  | .null => true
  | _ => false

def entries? : Value → Option Entries
  | .map es => some es
  | _ => none

def items? : Value → Option (List Value)
  | .list xs => some xs
  | _ => none

def text? : Value → Option String
  | .str s => some s
  | _ => none

/-- The value under a name of a mapping; null when there is none or no mapping. -/
def field (v : Value) (name : String) : Value :=
  match v with
  | .map es => (Entries.get? es name).getD .null
  | _ => .null

/-- The kind of a value as messages name it. -/
def kindName : Value → String
  | .null => "NoneType"
  | .bool _ => "bool"
  | .int _ => "int"
  | .float _ => "float"
  | .str _ => "str"
  | .list _ => "list"
  | .map _ => "dict"
  | .endless _ => "dict"

mutual

/-- Whether a value that is walked through has no end, when pairs are walked through or not. -/
def isEndless (pairs : Bool) : Value → Bool
  | .list xs => isAnyEndless pairs xs
  | .map es => isEntryEndless pairs es
  | .endless apart => pairs || !apart
  | _ => false

def isAnyEndless (pairs : Bool) : List Value → Bool
  | [] => false
  | v :: rest => v.isEndless pairs || isAnyEndless pairs rest

def isEntryEndless (pairs : Bool) : List (Key × Value) → Bool
  | [] => false
  | (_, v) :: rest => v.isEndless pairs || isEntryEndless pairs rest

end

def ofNames (pairs : List (String × Value)) : Value := .map (Entries.ofNames pairs)

def ofTexts (texts : List String) : Value := .list (texts.map .str)

def ofText? (s : Option String) : Value := (s.map .str).getD .null

end Value

namespace Entries

theorem find?_put_self (k : Key) (h : k.sameAs k = true) (v : Value) (es : Entries) :
    find? k (put k v es) = some v := by
  induction es with
  | nil => simp [put, find?, h]
  | cons e rest ih =>
    simp only [put]
    split
    · next he => simp [find?, he]
    · next he => simp [find?, he, ih]

theorem get?_set_self (es : Entries) (name : String) (v : Value) :
    (es.set name v).get? name = some v :=
  find?_put_self _ (by simp [Key.sameAs]) v es

end Entries

end DecisionGate
