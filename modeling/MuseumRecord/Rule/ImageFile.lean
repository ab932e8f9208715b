import MuseumRecord.Exhibit
import MuseumRecord.Rule.Violation
import MuseumRecord.Text.LowerCase

/-!
# Image files

At most one image is the main one, and every image is a file of a known kind with a name of
bounded length.
-/

namespace MuseumRecord
namespace Rule

/-- The endings of image files. -/
def imageEndings : List String :=
  [".jpg", ".jpeg", ".png", ".gif", ".bmp", ".tiff", ".webp"]

/-- Whether a file name has the ending of an image file, in whatever case. -/
def hasImageEnding (fileName : String) : Bool :=
  imageEndings.any fun ending => ending.toList.isSuffixOf (Text.lowerAscii fileName.toList)

/-- A file that is no image file. -/
def endingViolation (fileName : Option String) : Option Violation :=
  match fileName with
  | some name => if hasImageEnding name then none else some (.notAnImageFile name)
  | none => none

/-- The first violation of an image. -/
def imageViolation (image : Image) : Option Violation :=
  blankField "Image" "FileName" image.fileName <|>
  endingViolation image.fileName <|>
  overlong "FileName" image.fileName

/-- Several main images. -/
def primaryViolation (images : List Image) : Option Violation :=
  let count := images.countP Image.isPrimary
  if 1 < count then some (.severalPrimaryImages count) else none

/-- The first violation of the group of media. -/
def mediaViolation (exhibit : Exhibit) : Option Violation :=
  exhibit.media.bind fun media =>
    primaryViolation media.images <|> media.images.findSome? imageViolation

end Rule
end MuseumRecord
