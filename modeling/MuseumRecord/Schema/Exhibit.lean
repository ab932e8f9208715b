import MuseumRecord.Schema.Declaration

/-!
# The exhibit schema

The schema of an exhibit record.
-/

namespace MuseumRecord
namespace Schema
namespace Exhibit

/-- The namespace of exhibit records. -/
def namespaceName : String := "http://museum.example.com/exhibit"

/-- Kinds of objects. -/
def category : Enumeration :=
  ⟨"Category",
    ["Painting", "Sculpture", "Pottery", "Jewelry", "Textile", "Weapon", "Tool", "Coin",
      "Manuscript", "Photograph", "Other"]⟩

/-- Where an exhibit stands in its life. -/
def status : Enumeration :=
  ⟨"Status", ["Active", "OnLoan", "InConservation", "Deaccessioned", "Missing"]⟩

/-- States of preservation. -/
def condition : Enumeration :=
  ⟨"Condition", ["Excellent", "Good", "Fair", "Poor", "Critical"]⟩

/-- Units of length. -/
def unit : Enumeration :=
  ⟨"Unit", ["cm", "mm", "m", "in", "ft"]⟩

/-- How an exhibit came into the collection. -/
def acquisitionMethod : Enumeration :=
  ⟨"AcquisitionMethod", ["Purchase", "Donation", "Bequest", "Exchange", "Transfer", "Found"]⟩

/-- The enumerations of the schema. -/
def enumerations : List Enumeration :=
  [category, status, condition, unit, acquisitionMethod]

/-- What the object is. -/
def basicInfo : Declaration :=
  .complex "BasicInfo" .once "BasicInfoType" []
    [.free "Title" .once,
      .simple "Category" .once (.enumeration category),
      .free "SubCategory" .optional,
      .free "Creator" .optional,
      .free "DateCreated" .optional,
      .free "Period" .optional,
      .free "Culture" .optional]

/-- Key words. -/
def tags : Declaration :=
  .complex "Tags" .optional "TagsType" [] [.free "Tag" .repeated]

/-- What is told about the object. -/
def description : Declaration :=
  .complex "Description" .once "DescriptionType" []
    [.free "ShortDescription" .once,
      .free "DetailedDescription" .optional,
      .free "Significance" .optional,
      tags]

/-- The measurements of the object. -/
def dimensions : Declaration :=
  .complex "Dimensions" .optional "DimensionsType" [⟨"unit", .enumeration unit, true⟩]
    [.simple "Height" .optional .double,
      .simple "Width" .optional .double,
      .simple "Depth" .optional .double,
      .simple "Diameter" .optional .double]

/-- What the object is made of and how it is preserved. -/
def technical : Declaration :=
  .complex "Technical" .once "TechnicalType" []
    [dimensions,
      .free "Weight" .optional,
      .free "Material" .repeated,
      .free "Technique" .optional,
      .simple "Condition" .once (.enumeration condition),
      .free "ConservationNotes" .optional]

/-- Where the object is. -/
def location : Declaration :=
  .complex "Location" .once "LocationType" [⟨"onDisplay", .boolean, true⟩]
    [.free "Building" .once,
      .free "Floor" .optional,
      .free "Room" .once,
      .free "Display" .optional,
      .free "StorageLocation" .optional]

/-- How the object was acquired. -/
def acquisition : Declaration :=
  .complex "Acquisition" .optional "AcquisitionType" []
    [.simple "Date" .once .date,
      .simple "Method" .once (.enumeration acquisitionMethod),
      .free "Source" .once,
      .simple "Price" .optional .decimal,
      .free "Currency" .optional]

/-- One exhibition. -/
def exhibition : Declaration :=
  .complex "Exhibition" .repeated "ExhibitionType" []
    [.free "Name" .once,
      .free "Location" .once,
      .simple "StartDate" .once .date,
      .simple "EndDate" .once .date]

/-- Where the object was shown. -/
def exhibitions : Declaration :=
  .complex "Exhibitions" .optional "ExhibitionsType" [] [exhibition]

/-- What happened to the object. -/
def history : Declaration :=
  .complex "History" .optional "HistoryType" []
    [acquisition, .free "Provenance" .optional, exhibitions]

/-- One image. -/
def image : Declaration :=
  .complex "Image" .any "ImageType" [⟨"primary", .boolean, false⟩]
    [.free "FileName" .once, .free "Description" .optional]

/-- Images of the object. -/
def media : Declaration :=
  .complex "Media" .optional "MediaType" [] [image]

/-- The record. -/
def record : Declaration :=
  .complex "Exhibit" .once "ExhibitType"
    [⟨"id", .string, true⟩, ⟨"status", .enumeration status, true⟩]
    [basicInfo, description, technical, location, history, media]

end Exhibit

/-- The schema every exhibit record is checked against. -/
def exhibit : Schema :=
  ⟨Exhibit.namespaceName, Exhibit.record⟩

end Schema
end MuseumRecord
