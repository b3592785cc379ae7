import CallAtlas.Report.Dot
import CallAtlas.Report.Graph
import CallAtlas.Report.Markdown

/-!
The formats a report can be written in.
-/

namespace CallAtlas

inductive Format where
  | markdown
  | json
  | dot
  deriving DecidableEq

namespace Format

def ofWord? : String → Option Format
  | "markdown" => some .markdown
  | "json" => some .json
  | "dot" => some .dot
  | _ => none

def word : Format → String
  | .markdown => "markdown"
  | .json => "json"
  | .dot => "dot"

end Format

def Report.render (r : Report) : Format → String
  | .markdown => r.markdown
  | .json => r.json
  | .dot => r.dot

end CallAtlas
