import RouteTrim.Graph.Report
import RouteTrim.Json.Reader
import RouteTrim.Notice
import RouteTrim.Path.Spelling
import RouteTrim.Store.Disk

/-!
# Loading a dependency report

A report is a JSON file. A file that cannot be opened and one that is not JSON are faults of the
report. Bytes that are no text, and a text beyond the limits of the reader, are not taken for such a
fault, so no command reports them.
-/

set_option autoImplicit false

namespace RouteTrim.Report

open RouteTrim.Path (WorkingFolder)

def readFile [WorkingFolder] [Json.Host] (disk : Disk) (path : String) : Except Failure Value :=
  match disk.readText (Path.tidy path) with
  | .ok text =>
    match Json.read text with
    | .ok value => .ok value
    | .error .malformed => .error (.invalidGraphJson path)
    | .error .beyondLimits => .error (.beyondLimits path)
  | .error failure => .error (if failure.isDiskFault then .unreadableGraph path else failure)

/-- The graph of a report on disk. -/
def load [WorkingFolder] [Json.Host] (disk : Disk) (path : String) : Noted ImportGraph := do
  let graph ← read (← readFile disk path)
  Noted.tell (.reportLoaded graph.size path)
  return graph

end RouteTrim.Report
