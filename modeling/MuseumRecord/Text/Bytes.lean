/-!
# Sizes in bytes

Places in a document are counted in bytes of its UTF-8 form.
-/

namespace MuseumRecord
namespace Text

/-- The number of bytes of a text in UTF-8. -/
def byteSize : List Char → Nat
  | [] => 0
  | character :: rest => character.utf8Size + byteSize rest

/-- The bytes read when a text has been read up to a remainder of it. -/
def bytesRead (text remainder : List Char) : Nat :=
  byteSize text - byteSize remainder

theorem byteSize_append (left right : List Char) :
    byteSize (left ++ right) = byteSize left + byteSize right := by
  induction left with
  | nil => simp [byteSize]
  | cons character rest inductionHypothesis =>
    simp only [List.cons_append, byteSize, inductionHypothesis]
    omega

/-- Reading a part and stopping before the remainder counts the bytes of that part. -/
theorem bytesRead_append (part remainder : List Char) :
    bytesRead (part ++ remainder) remainder = byteSize part := by
  unfold bytesRead
  rw [byteSize_append]
  omega

end Text
end MuseumRecord
