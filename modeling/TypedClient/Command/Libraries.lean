import TypedClient.Command.CamelCase
import TypedClient.Command.Transliteration
import TypedClient.MediaType
import TypedClient.Text.Conversions

/-!
# The libraries of the program

Converting text and splitting media types are left to libraries, which all else takes as a
parameter. What is proved holds with any of them; these are the ones that the program is
linked with.
-/

namespace TypedClient.Command

/-- Texts become ASCII as far as the renderings of their characters are known. -/
instance linkedConversions : Text.Conversions where
  toAscii := transliterate
  toCamelCase := camelCase

instance linkedMediaTypes : MediaTypeParser :=
  .ofGrammar

end TypedClient.Command
