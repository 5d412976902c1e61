import SlaveLink.Cli.Invocation
import SlaveLink.Json.Value
import SlaveLink.Text.Table

/-! # Reports
The result of a command: a full record for programs, and rows of fields and values for people. -/

namespace SlaveLink.Cli

structure Report where
  /-- Names the kind of record. -/
  schema : String
  members : List (String × Json)
  rows : List (String × String)
deriving Repr, Inhabited

namespace Report

def lines (format : OutputFormat) (r : Report) : List String :=
  match format with
  | .json => [(Json.object (("schema_id", .text r.schema) :: r.members)).compact]
  | .table => Text.tableLines ["FIELD", "VALUE"] (r.rows.map fun (field, value) => [field, value])
  | .pretty => r.rows.map fun (field, value) => field ++ "=" ++ value

def render (format : OutputFormat) (r : Report) : String :=
  String.join ((r.lines format).map (· ++ "\n"))

end Report
end SlaveLink.Cli
