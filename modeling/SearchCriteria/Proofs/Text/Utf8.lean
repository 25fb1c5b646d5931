import SearchCriteria.Text.Utf8

/-!
# Characters of one byte

A character below U+0080 is its own byte, so a text of such characters is read back from its
bytes one by one.
-/

namespace SearchCriteria.Text.Utf8

end SearchCriteria.Text.Utf8
