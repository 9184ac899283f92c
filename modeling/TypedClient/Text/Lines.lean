/-!
# Lines of a text

A line ends at a line feed, and a carriage return just before the line feed
belongs to the ending. A text that ends with a line ending has no further, empty
line after it.
-/

namespace TypedClient.Text

/-- The lines of a text, without their endings. -/
def lines : List Char → List (List Char)
  | [] => []
  | '\n' :: rest => [] :: lines rest
  | '\r' :: '\n' :: rest => [] :: lines rest
  | c :: rest =>
      match lines rest with
      | [] => [[c]]
      | first :: others => (c :: first) :: others

end TypedClient.Text
