import DecisionGate.Text.Quoted
import DecisionGate.Text.Surrogate

/-!
Reading octets as UTF-8. The first octets that no character has are reported with their place and
the reason, so that a caller can show them.
-/
namespace DecisionGate.Utf8

inductive Reason where
  | badStart
  | badContinuation
  | truncated
  deriving DecidableEq, Repr

def Reason.text : Reason → String
  | .badStart => "invalid start byte"
  | .badContinuation => "invalid continuation byte"
  | .truncated => "unexpected end of data"

/-- The offending octets begin at `start` and are `count` many; `first` is the first of them. -/
structure Problem where
  first : Nat
  start : Nat
  count : Nat
  reason : Reason
  deriving DecidableEq, Repr

def Problem.message (p : Problem) : String :=
  let what :=
    if p.count = 1 then
      s!"byte 0x{String.ofList (Text.hex 2 p.first)} in position {p.start}"
    else s!"bytes in position {p.start}-{p.start + p.count - 1}"
  s!"'utf-8' codec can't decode {what}: {p.reason.text}"

def isTail (b : Nat) : Bool := 0x80 ≤ b && b ≤ 0xBF

/-- How many octets a character has that begins with this one, and which second octets it takes. -/
def lead? (b : Nat) : Option (Nat × Nat × Nat) :=
  if b ≤ 0x7F then some (1, 0x80, 0xBF)
  else if 0xC2 ≤ b ∧ b ≤ 0xDF then some (2, 0x80, 0xBF)
  else if b = 0xE0 then some (3, 0xA0, 0xBF)
  else if b = 0xED then some (3, 0x80, 0x9F)
  else if 0xE1 ≤ b ∧ b ≤ 0xEF then some (3, 0x80, 0xBF)
  else if b = 0xF0 then some (4, 0x90, 0xBF)
  else if 0xF1 ≤ b ∧ b ≤ 0xF3 then some (4, 0x80, 0xBF)
  else if b = 0xF4 then some (4, 0x80, 0x8F)
  else none

/-- What the leading octet of `width` octets contributes. -/
def leadBits (width b : Nat) : Nat :=
  if width = 1 then b else if width = 2 then b % 32 else if width = 3 then b % 16 else b % 8

/-- The fault of a character that is not complete: the octets up to the first one that cannot
continue it, or all that are left. -/
def faultOf (start b : Nat) (low high : Nat) (rest : List Nat) (width : Nat) : Problem :=
  let rec go (good : Nat) (low high : Nat) : List Nat → Problem
    | [] => ⟨b, start, good, .truncated⟩
    | c :: rest =>
      if low ≤ c ∧ c ≤ high then go (good + 1) 0x80 0xBF rest
      else ⟨b, start, good, .badContinuation⟩
  go 1 low high (rest.take (width - 1))

/-- The characters of a sequence of octets that starts at a given place. -/
def decodeFrom (start : Nat) : List Nat → Except Problem (List Char)
  | [] => .ok []
  | b :: rest =>
    match lead? b with
    | none => .error ⟨b, start, 1, .badStart⟩
    | some (width, low, high) =>
      match width, rest with
      | 1, rest => do
        let cs ← decodeFrom (start + 1) rest
        .ok (Char.ofNat b :: cs)
      | 2, c :: rest' =>
        if low ≤ c ∧ c ≤ high then do
          let cs ← decodeFrom (start + 2) rest'
          .ok (Char.ofNat (leadBits 2 b * 64 + c % 64) :: cs)
        else .error (faultOf start b low high rest width)
      | 3, c :: d :: rest' =>
        if low ≤ c ∧ c ≤ high ∧ isTail d then do
          let cs ← decodeFrom (start + 3) rest'
          .ok (Char.ofNat ((leadBits 3 b * 64 + c % 64) * 64 + d % 64) :: cs)
        else .error (faultOf start b low high rest width)
      | 4, c :: d :: e :: rest' =>
        if low ≤ c ∧ c ≤ high ∧ isTail d ∧ isTail e then do
          let cs ← decodeFrom (start + 4) rest'
          .ok (Char.ofNat (((leadBits 4 b * 64 + c % 64) * 64 + d % 64) * 64 + e % 64) :: cs)
        else .error (faultOf start b low high rest width)
      | _, rest => .error (faultOf start b low high rest width)

def decode (octets : List Nat) : Except Problem String :=
  (decodeFrom 0 octets).map String.ofList

/-- The characters up to the first fault, one replacement character for the octets of the fault, and
so on. Every fault has octets of its own, so as many steps as there are octets will do. -/
def replaceFaults : Nat → List Nat → List Char
  | 0, _ => []
  | fuel + 1, octets =>
    match decodeFrom 0 octets with
    | .ok cs => cs
    | .error p =>
      ((decodeFrom 0 (octets.take p.start)).toOption.getD []) ++
        Char.ofNat 0xFFFD :: replaceFaults fuel (octets.drop (p.start + p.count))

/-- The text of octets, whatever they are. -/
def decodeTolerant (octets : List Nat) : String :=
  String.ofList (replaceFaults (octets.length + 1) octets)

/-- Halves of pairs in a row, which have no octets. -/
structure Gap where
  half : Nat
  start : Nat
  count : Nat
  deriving DecidableEq, Repr

def Gap.message (g : Gap) : String :=
  let what :=
    if g.count = 1 then
      s!"character '\\u{String.ofList (Text.hex 4 g.half)}' in position {g.start}"
    else s!"characters in position {g.start}-{g.start + g.count - 1}"
  s!"'utf-8' codec can't encode {what}: surrogates not allowed"

/-- The first halves of a text that are not of a kind that can be written. -/
def gap? (written : Nat → Bool) (s : String) : Option Gap :=
  let stops (c : Char) : Bool := (Text.half? c).any fun n => !written n
  let before := s.toList.takeWhile fun c => !stops c
  match s.toList.drop before.length with
  | [] => none
  | c :: rest =>
    some
      { half := (Text.half? c).getD 0
        start := before.length
        count := 1 + (rest.takeWhile fun c => (Text.half? c).isSome).length }

/-- The octets of one character. -/
def encodeChar (c : Char) : List Nat :=
  let n := c.toNat
  if n < 0x80 then [n]
  else if n < 0x800 then [0xC0 + n / 64, 0x80 + n % 64]
  else if n < 0x10000 then [0xE0 + n / 4096, 0x80 + n / 64 % 64, 0x80 + n % 64]
  else [0xF0 + n / 262144, 0x80 + n / 4096 % 64, 0x80 + n / 64 % 64, 0x80 + n % 64]

def encode (s : String) : List Nat := s.toList.flatMap encodeChar

/-- The octets of a text that has no halves. -/
def encodeStrictly (s : String) : Except Gap (List Nat) :=
  match gap? (fun _ => false) s with
  | some g => .error g
  | none => .ok (encode s)

end DecisionGate.Utf8
