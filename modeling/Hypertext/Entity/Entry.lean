/-!
# Entries of the table of named character references
-/

namespace Hypertext.Entity

/-- A name, without the ampersand in front of it, and the one or two characters it stands for. Most
names end in a semicolon; some are also listed without one. -/
structure Entry where
  name : List Char
  text : List Char
deriving DecidableEq

end Hypertext.Entity
