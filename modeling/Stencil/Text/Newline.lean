namespace Stencil.Text

/-! # Ends of lines

A line ends with a line feed, a carriage return, or both.
-/

/-- A text with one line feed for each end of a line. -/
def normalizeNewlines : List Char → List Char
  | [] => []
  | '\r' :: '\n' :: rest => '\n' :: normalizeNewlines rest
  | '\r' :: rest => '\n' :: normalizeNewlines rest
  | c :: rest => c :: normalizeNewlines rest

/-- A text without the line feed at its very start, and without a carriage return before that. -/
def dropNewline : List Char → List Char
  | '\r' :: '\n' :: rest => rest
  | '\n' :: rest => rest
  | cs => cs

end Stencil.Text
