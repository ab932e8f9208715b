import MuseumRecord.Markup.Element

/-!
# Exhibits

The parts of an exhibit record that the curatorial rules read.  Elements are found by local name
alone, the first of a name counts, and every part may be absent.
-/

namespace MuseumRecord

open Markup (Element)

/-- What the object is. -/
structure BasicInfo where
  /-- The title. -/
  title : Option String := none
  /-- The kind of object. -/
  category : Option String := none
  /-- The historical date of its making. -/
  dateCreated : Option String := none
deriving DecidableEq, Repr

/-- The measurements of the object. -/
structure Dimensions where
  /-- The unit of length. -/
  unit : Option String := none
  /-- The height. -/
  height : Option String := none
  /-- The width. -/
  width : Option String := none
  /-- The depth. -/
  depth : Option String := none
  /-- The diameter. -/
  diameter : Option String := none
deriving DecidableEq, Repr

/-- What the object is made of and how it is preserved. -/
structure Technical where
  /-- The measurements. -/
  dimensions : Option Dimensions := none
  /-- The state of preservation. -/
  condition : Option String := none
deriving DecidableEq, Repr

/-- Where the object is. -/
structure Location where
  /-- Whether it is on display. -/
  onDisplay : Option String := none
  /-- The building. -/
  building : Option String := none
  /-- The room. -/
  room : Option String := none
  /-- The display case. -/
  display : Option String := none
deriving DecidableEq, Repr

/-- How the object was acquired. -/
structure Acquisition where
  /-- The day. -/
  date : Option String := none
  /-- The price paid. -/
  price : Option String := none
deriving DecidableEq, Repr

/-- One exhibition. -/
structure Exhibition where
  /-- The first day. -/
  startDate : Option String := none
  /-- The last day. -/
  endDate : Option String := none
deriving DecidableEq, Repr

/-- What happened to the object. -/
structure History where
  /-- The acquisition. -/
  acquisition : Option Acquisition := none
  /-- The exhibitions, in written order. -/
  exhibitions : List Exhibition := []
deriving DecidableEq, Repr

/-- One image. -/
structure Image where
  /-- Whether it is the main one. -/
  primary : Option String := none
  /-- The name of its file. -/
  fileName : Option String := none
deriving DecidableEq, Repr

/-- Images of the object. -/
structure Media where
  /-- The images, in written order. -/
  images : List Image := []
deriving DecidableEq, Repr

/-- An exhibit record. -/
structure Exhibit where
  /-- The identifier. -/
  id : Option String := none
  /-- Where the exhibit stands in its life. -/
  status : Option String := none
  /-- What the object is. -/
  basicInfo : Option BasicInfo := none
  /-- What it is made of. -/
  technical : Option Technical := none
  /-- Where it is. -/
  location : Option Location := none
  /-- What happened to it. -/
  history : Option History := none
  /-- Images of it. -/
  media : Option Media := none
deriving DecidableEq, Repr

/-- The basic information in an element. -/
def BasicInfo.ofElement (element : Element) : BasicInfo where
  title := element.childText? "Title"
  category := element.childText? "Category"
  dateCreated := element.childText? "DateCreated"

namespace Dimensions

/-- The measurements in an element. -/
def ofElement (element : Element) : Dimensions where
  unit := element.attribute? "unit"
  height := element.childText? "Height"
  width := element.childText? "Width"
  depth := element.childText? "Depth"
  diameter := element.childText? "Diameter"

/-- Every measurement with its name. -/
def measurements (dimensions : Dimensions) : List (String × Option String) :=
  [("Height", dimensions.height), ("Width", dimensions.width), ("Depth", dimensions.depth),
    ("Diameter", dimensions.diameter)]

end Dimensions

/-- The technical part in an element. -/
def Technical.ofElement (element : Element) : Technical where
  dimensions := (element.child? "Dimensions").map Dimensions.ofElement
  condition := element.childText? "Condition"

/-- The location in an element. -/
def Location.ofElement (element : Element) : Location where
  onDisplay := element.attribute? "onDisplay"
  building := element.childText? "Building"
  room := element.childText? "Room"
  display := element.childText? "Display"

/-- The acquisition in an element. -/
def Acquisition.ofElement (element : Element) : Acquisition where
  date := element.childText? "Date"
  price := element.childText? "Price"

/-- The exhibition in an element. -/
def Exhibition.ofElement (element : Element) : Exhibition where
  startDate := element.childText? "StartDate"
  endDate := element.childText? "EndDate"

/-- The history in an element. -/
def History.ofElement (element : Element) : History where
  acquisition := (element.child? "Acquisition").map Acquisition.ofElement
  exhibitions :=
    match element.child? "Exhibitions" with
    | some exhibitions => (exhibitions.childrenNamed "Exhibition").map Exhibition.ofElement
    | none => []

namespace Image

/-- The image in an element. -/
def ofElement (element : Element) : Image where
  primary := element.attribute? "primary"
  fileName := element.childText? "FileName"

/-- Whether the image is the main one.  Other spellings of truth do not count. -/
def isPrimary (image : Image) : Bool :=
  image.primary == some "true"

end Image

/-- The images in an element. -/
def Media.ofElement (element : Element) : Media where
  images := (element.childrenNamed "Image").map Image.ofElement

/-- The exhibit in the root element of a document. -/
def Exhibit.ofElement (root : Element) : Exhibit where
  id := root.attribute? "id"
  status := root.attribute? "status"
  basicInfo := (root.child? "BasicInfo").map BasicInfo.ofElement
  technical := (root.child? "Technical").map Technical.ofElement
  location := (root.child? "Location").map Location.ofElement
  history := (root.child? "History").map History.ofElement
  media := (root.child? "Media").map Media.ofElement

end MuseumRecord
