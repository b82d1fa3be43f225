import DecisionGate.Text.Lines
import DecisionGate.Text.Utf8

/-!
A file that is read as text piece by piece. The octets come in chunks, each chunk is decoded
together with the octets of a character that the last one broke off, and the text is handed on in
blocks of one size. A fault is met when its chunk is read, so the blocks in front of it are there
and its place is counted from where its chunk began.
-/
namespace DecisionGate.Text.Stream

/-- Text is asked for in blocks of this many characters. -/
def blockSize : Nat := 4096

/-- No chunk has fewer octets, but the last. -/
def chunkSize : Nat := 8192

/-- The octets of the last chunk for each of its characters. -/
structure Density where
  octets : Nat
  chars : Nat
  deriving DecidableEq, Repr

/-- How many octets to ask for when so many characters are missing: what the last chunk says is
enough, and at least a whole chunk. -/
def Density.demand (d : Density) (missing : Nat) : Nat :=
  let ratio : Float := if d.chars = 0 then 0.0 else Float.ofNat d.octets / Float.ofNat d.chars
  let ratio : Float := if ratio < 1.0 then 1.0 else ratio
  max chunkSize (ratio * Float.ofNat missing).toUInt64.toNat

/-- What came of the octets so far. A carriage return at the end of a chunk waits for what follows
it, since it may be half of a line break. -/
structure State where
  chars : Array Char := #[]
  octets : List Nat
  broken : List Nat := []
  carriage : Bool := false
  density : Density := ⟨0, 0⟩

/-- The characters in front of the first fault, with the fault. -/
structure Reading where
  chars : List Char
  fault : Option Utf8.Problem := none
  deriving DecidableEq, Repr

/-- The characters in front of the first fault. -/
def decodeSome (octets : List Nat) : List Char × Option Utf8.Problem :=
  match Utf8.decodeFrom 0 octets with
  | .ok cs => (cs, none)
  | .error p => ((Utf8.decodeFrom 0 (octets.take p.start)).toOption.getD [], some p)

/-- Takes the characters of a chunk, with the octets that they came from and those left over. -/
def State.take (s : State) (count : Nat) (cs : List Char) (broken : List Nat) : State :=
  let cs := if s.carriage && !cs.isEmpty then '\r' :: cs else cs
  let carriage := if cs.isEmpty then s.carriage else cs.getLast? = some '\r'
  let cs := unixBreaks (if cs.getLast? = some '\r' then cs.dropLast else cs)
  { chars := s.chars ++ cs.toArray, octets := s.octets.drop count, broken, carriage
    density := ⟨count, cs.length⟩ }

/-- Whether a fault at the end of a chunk waits for the next one: a character that is broken off, or
the two octets of a half of a pair. -/
def waits (p : Utf8.Problem) (rest : List Nat) : Bool :=
  p.reason = .truncated ||
    match rest with
    | [a, b] => a = 0xED && 0xA0 ≤ b && b ≤ 0xBF
    | _ => false

/-- Reads chunk after chunk. Every chunk takes an octet, so one step more than there are octets is
enough. -/
def run : Nat → State → Reading
  | 0, s => ⟨s.chars.toList, none⟩
  | fuel + 1, s =>
    if s.octets.isEmpty then
      let chars := if s.carriage then s.chars.push '\n' else s.chars
      if s.broken.isEmpty then ⟨chars.toList, none⟩
      else ⟨s.chars.toList, (decodeSome s.broken).2⟩
    else
      let count := s.density.demand (blockSize - s.chars.size % blockSize)
      let chunk := s.octets.take count
      let octets := s.broken ++ chunk
      match decodeSome octets with
      | (cs, none) => run fuel (s.take chunk.length cs [])
      | (cs, some p) =>
        let rest := octets.drop p.start
        if waits p rest then run fuel (s.take chunk.length cs rest)
        else ⟨s.chars.toList, some p⟩

/-- Reads a file, with every line break as a line feed. -/
def read (octets : List Nat) : Reading := run (octets.length + 1) { octets }

end DecisionGate.Text.Stream
