import MuseumRecord.Text.Blank
import MuseumRecord.Text.Piece

/-!
# Sanitized text

Document text without comments and without processing instructions.  Comments are taken out first,
so that the text around a comment may join to an instruction; what is left is trimmed.
-/

namespace MuseumRecord
namespace Markup

open Text

/-- The text without its comments. -/
def withoutComments (text : List Char) : List Char :=
  withoutEnclosed "<!--".toList "-->".toList text

/-- The text without its processing instructions, the declaration among them. -/
def withoutInstructions (text : List Char) : List Char :=
  withoutEnclosed "<?".toList "?>".toList text

/-- The text without comments, instructions and surrounding blanks. -/
def sanitized (text : List Char) : List Char :=
  trim (withoutInstructions (withoutComments text))

/-- The sanitized form of a string. -/
def sanitize (text : String) : String :=
  String.ofList (sanitized text.toList)

end Markup
end MuseumRecord
