import DecisionGate.Failure
import DecisionGate.Json.Printer
import DecisionGate.Value.Text
import DecisionGate.Web.Page

/-!
Responses: a status and a body that JSON can hold. A body of free form is made plain first: its keys
become texts, and a double without a numeral becomes null. Any other body that holds such a double
is a failure, and so is one of free form that nests too deeply.
-/
namespace DecisionGate.Web

/-- A page stands in the place of a body. -/
structure Response where
  status : Nat
  body : Value
  /-- How many collections stand around what is of free form; none when nothing is. -/
  around : Option Nat := none
  page : Option Page := none

/-- A key as a name of a JSON object. -/
def keyName : Key → String
  | .null => "None"
  | .bool b => if b then "true" else "false"
  | .int i => Format.integer i
  | .float x => Format.double x
  | .str s => s

mutual

def plain : Value → Value
  | .float x => if Double.isFinite x then .float x else .null
  | .list xs => .list (plainItems xs)
  | .map es => .map (plainEntries es)
  | v => v

def plainItems : List Value → List Value
  | [] => []
  | v :: rest => plain v :: plainItems rest

def plainEntries : Entries → Entries
  | [] => []
  | (k, v) :: rest => (.str (keyName k), plain v) :: plainEntries rest

end

mutual

/-- Whether every double has a numeral. -/
def hasNumerals : Value → Bool
  | .float x => Double.isFinite x
  | .list xs => itemsHaveNumerals xs
  | .map es => entriesHaveNumerals es
  | _ => true

def itemsHaveNumerals : List Value → Bool
  | [] => true
  | v :: rest => hasNumerals v && itemsHaveNumerals rest

def entriesHaveNumerals : Entries → Bool
  | [] => true
  | (_, v) :: rest => hasNumerals v && entriesHaveNumerals rest

end

mutual

/-- How many collections are inside each other. -/
def depth : Value → Nat
  | .list xs => depthOfItems xs + 1
  | .map es => depthOfEntries es + 1
  | _ => 0

def depthOfItems : List Value → Nat
  | [] => 0
  | v :: rest => max (depth v) (depthOfItems rest)

def depthOfEntries : Entries → Nat
  | [] => 0
  | (_, v) :: rest => max (depth v) (depthOfEntries rest)

end

/-- What is of free form has fewer collections inside each other. -/
def depthLimit : Nat := 255

namespace Response

/-- A regular answer of free form. -/
def ok (body : Value) : Response := { status := 200, body := plain body, around := some 1 }

def ofEntries (es : List (String × Value)) : Response := ok (Value.ofNames es)

/-- An answer that says why there is no other. -/
def detail (status : Nat) (v : Value) : Response :=
  { status, body := Value.ofNames [("detail", v)] }

def notFound (message : String) : Response := detail 404 (.str message)

def ofPage (p : Page) : Response := { status := 200, body := .null, page := some p }

/-- The request is to be made at another path, which is not followed here. -/
def elsewhere : Response := { status := 307, body := .null }

def unavailable (message : String) : Response := detail 503 (.str message)

/-- The response, if it can be written. -/
def checked (r : Response) : Except Failure Response :=
  if r.body.isEndless true then .error (.badValue "Circular reference detected (id repeated)")
  else if r.around.any fun n => depthLimit + n ≤ depth r.body then
    .error (.badValue "Circular reference detected (depth exceeded)")
  else if !hasNumerals r.body then
    .error (.badValue "Out of range float values are not JSON compliant")
  else if !r.body.hasText then .error (.fault .integerTooLong)
  else
    match Utf8.gap? (fun _ => false) (Json.compact r.body) with
    | some g => .error (.encoding g)
    | none => .ok r

end Response

def stepValue : Schema.Step → Value
  | .name s => .str s
  | .index i => .int i

/-- What a problem says besides its message; bounds are written as numbers of the kind that is
expected. -/
def problemContext (bound : Nat → Value) : Schema.Expectation → List (String × Value)
  | .atLeast n => [("ctx", Value.ofNames [("ge", bound n)])]
  | .atMost n => [("ctx", Value.ofNames [("le", bound n)])]
  | .json reason => [("ctx", Value.ofNames [("error", .str reason)])]
  | _ => []

def problemValue (bound : Nat → Value) (p : Schema.Problem) : Value :=
  Value.ofNames
    ([("type", .str p.expectation.code), ("loc", .list (p.place.map stepValue)),
      ("msg", .str p.message), ("input", p.input)] ++ problemContext bound p.expectation)

def wholeBound (n : Nat) : Value := .int n

def doubleBound (n : Nat) : Value := .float (Float.ofNat n)

def Response.invalid (bound : Nat → Value) (problems : List Schema.Problem) : Response :=
  detail 422 (.list (problems.map (problemValue bound)))

/-- Why a request gets no regular answer: a response says so, or the failure is passed on. -/
inductive Refusal where
  | response (r : Response)
  | failure (f : Failure)

/-- A mind that cannot be loaded makes the service unavailable. -/
def Refusal.ofFailure (f : Failure) : Refusal :=
  match f with
  | .mindLoad _ => .response (.unavailable f.message)
  | f => .failure f

def refused {α : Type} (r : Except Failure α) : Except Refusal α := r.mapError Refusal.ofFailure

/-- The response to a request, regular or not. -/
def settle (r : Except Refusal Response) : Except Failure Response :=
  match r with
  | .ok r => r.checked
  | .error (.response r) => r.checked
  | .error (.failure f) => .error f

end DecisionGate.Web
