import Alerting.Event

/-!
# Detections

The sound analysis reports every species it recognises. Detections become events, so that rules can
react to them.
-/

namespace Alerting

structure Detection where
  speciesName : String
  scientificName : String
  confidence : Number
  location : String
  isNewSpecies : Bool
deriving DecidableEq, Repr

namespace Detection

def event (detection : Detection) : Event :=
  (Event.occurrence ObjectType.detection
      (if detection.isNewSpecies then EventName.newSpecies else EventName.detectionOccurred))
    |>.withProperty PropertyName.speciesName (.text detection.speciesName)
    |>.withProperty PropertyName.scientificName (.text detection.scientificName)
    |>.withProperty PropertyName.confidence (.number detection.confidence)
    |>.withProperty PropertyName.location (.text detection.location)

def toJson (detection : Detection) : Json :=
  .object
    [("species_name", .string detection.speciesName),
     ("scientific_name", .string detection.scientificName),
     ("confidence", .float detection.confidence),
     ("location", .string detection.location),
     ("is_new_species", .bool detection.isNewSpecies)]

def ofJson? (json : Json) : Option Detection := do
  let [speciesName, scientificName, confidence, location, isNewSpecies] ←
    json.fields? ["species_name", "scientific_name", "confidence", "location", "is_new_species"]
    | none
  some
    { speciesName := ← Json.required Json.string? speciesName
      scientificName := ← Json.required Json.string? scientificName
      confidence := ← Json.required Json.number? confidence
      location := ← Json.defaulted "" Json.string? location
      isNewSpecies := ← Json.defaulted false Json.bool? isNewSpecies }

end Detection

end Alerting
