import DecisionGate.Web.Page
import DecisionGate.Web.Target

/-!
Routes: which requests there are, and which methods a path takes. Methods are told apart by the case
of their letters. A path that no route has may have one with a slash more at its end or with none
there, and is then sent elsewhere.
-/
namespace DecisionGate.Web

inductive Route where
  | page (p : Page)
  | description
  | heuristics
  | compilerStats
  | heuristic (id : String)
  | evaluate (id : String)
  | validate
  | history
  | gate
  | mind
  | loadMind
  | config
  | reloadConfig
  | telemetry
  | openSession (id : String)
  | endSession (id : String)
  | welcome
  | health
  deriving DecidableEq, Repr

namespace Route

/-- What only shows a document can be asked for with its head alone, too. -/
def shown (r : Route) : List (String × Route) := [("GET", r), ("HEAD", r)]

/-- The methods that a path takes, each with its route. The last segment is given as the path has
it, and the others with it as a fixed name is compared. -/
def ofSegments (last : String) : List String → List (String × Route)
  | ["docs"] => shown (page .explorer)
  | ["docs", "oauth2-redirect"] => shown (page .signIn)
  | ["redoc"] => shown (page .reference)
  | ["openapi.json"] => shown description
  | [""] => [("GET", welcome)]
  | ["heuristics"] => [("GET", heuristics)]
  | ["heuristics", "stats"] => [("GET", compilerStats)]
  | ["heuristics", _] => if last.isEmpty then [] else [("GET", heuristic last)]
  | ["heuristics", id, "evaluate"] => if id.isEmpty then [] else [("POST", evaluate id)]
  | ["axioms", "validate"] => [("POST", validate)]
  | ["axioms", "history"] => [("GET", history)]
  | ["gates", "execute"] => [("POST", gate)]
  | ["mind"] => [("GET", mind)]
  | ["mind", "load"] => [("POST", loadMind)]
  | ["config"] => [("GET", config)]
  | ["config", "reload"] => [("POST", reloadConfig)]
  | ["telemetry"] => [("GET", telemetry)]
  | ["sessions", _] =>
    if last.isEmpty then [] else [("POST", openSession last), ("DELETE", endSession last)]
  | ["health"] => [("GET", health)]
  | _ => []

/-- A line feed at the end of a path is not part of a fixed name. -/
def dropLineFeed (cs : List Char) : List Char :=
  if cs.getLast? = some '\n' then cs.dropLast else cs

def ofPath (path : List Char) : List (String × Route) :=
  match path with
  | '/' :: rest =>
    let last := (Text.split '/' rest).getLast?.getD []
    ofSegments (String.ofList last) ((Text.split '/' (dropLineFeed rest)).map String.ofList)
  | _ => []

/-- The other path that may be meant: without the slashes at the end, or with one there. -/
def otherPath (path : List Char) : List Char :=
  if path.getLast? = some '/' then (path.reverse.dropWhile (· == '/')).reverse else path ++ ['/']

end Route

/-- What a method and a target come to. -/
inductive Match where
  | route (r : Route)
  | otherMethod
  | elsewhere
  | nowhere
  deriving DecidableEq, Repr

/-- A path that has routes is never sent elsewhere, whatever the method is. -/
def Target.find (t : Target) (method : String) : Match :=
  let offered := Route.ofPath t.path
  match offered.lookup method with
  | some r => .route r
  | none =>
    if !offered.isEmpty then .otherMethod
    else if t.path != ['/'] && !(Route.ofPath (Route.otherPath t.path)).isEmpty then .elsewhere
    else .nowhere

end DecisionGate.Web
