import DecisionGate.Failure
import DecisionGate.Telemetry.Note
import DecisionGate.Time.Instant

/-!
Sessions over one mind that they all share. A session is known by its id, from its first access on
until it is ended or was idle for longer than a session may be.
-/
namespace DecisionGate

structure Session where
  created : Instant
  accessed : Instant
  requests : Nat := 0
  deriving DecidableEq, Repr

/-- Live sessions, in the order in which they were created. -/
structure Sessions where
  ttl : Duration
  live : List (String × Session) := []

def Session.touch (s : Session) (now : Instant) : Session :=
  { s with accessed := now, requests := s.requests + 1 }

/-- What is told of a session. -/
def Session.toEntries (s : Session) (id : String) (mindLoaded : Bool) : List (String × Value) :=
  [("session_id", .str id), ("created_at", .str s.created.text),
   ("last_accessed", .str s.accessed.text), ("request_count", .int s.requests),
   ("mind_loaded", .bool mindLoaded)]

namespace Sessions

def component : String := "session_manager"

def has (s : Sessions) (id : String) : Bool := (s.live.lookup id).isSome

/-- Counts one more access to a live session. -/
def touch (s : Sessions) (id : String) (now : Instant) : Sessions :=
  { s with live := s.live.map fun p => if p.1 = id then (id, p.2.touch now) else p }

def create (s : Sessions) (id : String) (now : Instant) : Report (Session × Sessions) := do
  let session : Session := { created := now, accessed := now }
  noteInfo component "session_created"
  pure (session, { s with live := s.live ++ [(id, session)] })

/-- Ends a session, and tells whether there was one. -/
def finish (s : Sessions) (id : String) : Report (Bool × Sessions) :=
  if s.has id then do
    noteInfo component "session_ended"
    pure (true, { s with live := s.live.filter fun p => p.1 ≠ id })
  else pure (false, s)

/-- The ids of the sessions that were idle for too long. -/
def stale (s : Sessions) (now : Instant) : List String :=
  (s.live.filter fun p => s.ttl < now - p.2.accessed).map Prod.fst

def finishAll (s : Sessions) : List String → Report Sessions
  | [] => pure s
  | id :: rest => do
    let (_, s) ← s.finish id
    s.finishAll rest

/-- Ends every stale session and counts them. -/
def cleanUp (s : Sessions) (now : Instant) : Report (Nat × Sessions) := do
  let stale := s.stale now
  let s ← s.finishAll stale
  if !stale.isEmpty then noteInfo component "stale_sessions_cleaned"
  pure (stale.length, s)

end Sessions

end DecisionGate
