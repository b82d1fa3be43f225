/-!
The pages of documentation: texts for people, which stand beside the answers to programs.
-/
namespace DecisionGate.Web

inductive Page where
  | explorer
  | signIn
  | reference
  deriving DecidableEq, Repr

namespace Page

def title : Page → String
  | .explorer => "Hybrid-Ops Mind Service - Swagger UI"
  | .signIn => "Swagger UI: OAuth2 Redirect"
  | .reference => "Hybrid-Ops Mind Service - ReDoc"

/-- A page begins with an empty line. -/
def text (p : Page) : String :=
  String.intercalate "\n"
    ["", "    <!DOCTYPE html>", "    <html>", "    <head>", s!"    <title>{p.title}</title>",
     "    </head>", "    <body>", "    </body>", "    </html>", "    "]

end Page

end DecisionGate.Web
