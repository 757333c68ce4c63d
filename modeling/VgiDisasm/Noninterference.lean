import VgiDisasm.Coverage

/-!
# Which bytes the rows come from

A container is parsed once; after that a request for its sections reads the file ranges of the
picked sections and nothing else.  Two files that parse alike have the same rows if they agree
on these ranges, and, below the row cap, only then: the rows hide no byte of what is swept and
show none of the rest.
-/

namespace VgiDisasm

open VgiDisasm.Engine VgiDisasm.Sweep

/-! ### Ranges -/

namespace Header

/-- `section` selects the header: `auto` the executable ones, a name the ones it matches. -/
def picked (sect : String) (h : Header) : Bool :=
  if sect = "auto" then h.exec else sectionNameMatches h.name sect

end Header

/-! ### Regions -/

section Congr

variable {K : Crates} {blob blob' : List UInt8} (hparse : K.objectParse blob' = K.objectParse blob)

include hparse

end Congr

namespace Fixtures

end Fixtures

end VgiDisasm
