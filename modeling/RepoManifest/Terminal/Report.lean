import RepoManifest.Terminal.Style
import RepoManifest.Validation.FieldError

/-!
# Error reports

A failed command reports its failure on the error output: one line, or a heading with one indented
line per problem. Every line is styled by itself.
-/

namespace RepoManifest

/-- A failure as it is reported. -/
inductive Report where
  | config (message : String) (errors : List String)
  | invalid (object : InvalidObject)
  | other (message : String)
  deriving Repr

namespace Report

open Terminal

/-- The lines of a report. A configuration's problems stand under a heading if there are several. -/
def lines : Report → List String
  | config message errors =>
    if 1 < errors.length then "Configuration error:" :: errors.map ("  - " ++ ·)
    else ["Configuration error: " ++ message]
  | invalid object =>
    ("Validation failed for " ++ object.name ++ ":") :: object.errors.map ("  - " ++ ·)
  | other message => ["Error: " ++ message]

/-- The style of a report's lines. Without colour it is a style all the same and ends in a reset. -/
def style (colour : Bool) : Style := { colour := if colour then some .red else none }

/-- The text of a report, each line with its style. -/
def render (r : Report) (colour : Bool) : String :=
  String.join (r.lines.map fun line ↦ (style colour).apply line ++ "\n")

end Report

/-- Text for an output: one that is no terminal gets it without styles. -/
def Terminal.echo (terminal : Bool) (text : String) : String :=
  if terminal then text else stripStyles text

end RepoManifest
