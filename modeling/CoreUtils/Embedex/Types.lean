import CoreUtils.Library.OrderedMap
import CoreUtils.Library.Text

/-!
# Sources and destinations

The records that `embedex` passes between its phases. Texts are lists of characters: every index
the program computes lies next to an ASCII character or at a line boundary, so it never separates
the two code units of a character. Paths of files are those that `path.resolve` or an absolute
glob returns, which are not empty.
-/

namespace CoreUtils.Embedex

/-- The text of a file, or of a part of one. -/
abbrev Text := List Char

/-- An absolute path of a file. -/
structure ResolvedPath where
  text : Text
  nonempty : text ≠ []
  deriving DecidableEq

/-- A source: its text below the marker line, and the files it is to be embedded in. -/
structure Source where
  content : Text
  destinations : List ResolvedPath

/-- A destination: its text, and the sources that name it. -/
structure Destination where
  content : Text
  sources : OrderedSet ResolvedPath

/-- The sources by path. -/
abbrev SourceMap := OrderedMap ResolvedPath Source

/-- The destinations by path. -/
abbrev DestinationMap := OrderedMap ResolvedPath Destination

end CoreUtils.Embedex
