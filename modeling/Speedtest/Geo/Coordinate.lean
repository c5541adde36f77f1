import Speedtest.Decimal.Number
import Speedtest.Text.Blank

/-!
# Coordinates

A place on the globe in degrees. A location is the text `lat,lon`: two decimal numbers with one comma
between them and perhaps blanks around each.
-/
namespace Speedtest.Geo

/-- Latitude and longitude in degrees. -/
structure Coordinate where
  lat : Float
  lon : Float

/-- Why a location names no coordinate. -/
inductive LocationError where
  /-- There are not exactly two fields. -/
  | format (text : String)
  /-- A field is no number; it is reported as it stands, with its blanks. -/
  | number (field : String)
  deriving DecidableEq

def LocationError.message : LocationError → String
  | .format text => "unknown location format: " ++ text
  | .number field => "invalid coordinate value: " ++ field

namespace Coordinate

/-- The place that stands for an unknown one. -/
def origin : Coordinate := ⟨0, 0⟩

/-- Whether both numbers are zero, of either sign. -/
def isZero (c : Coordinate) : Bool := c.lat == 0 && c.lon == 0

def readField (field : List Char) : Except LocationError Float :=
  match Decimal.read? (Text.trim field) with
  | some r => .ok r.toFloat
  | none => .error (.number (String.ofList field))

/-- The coordinate of a location. The latitude is read first. -/
def ofLocation (text : List Char) : Except LocationError Coordinate :=
  match text.splitOn ',' with
  | [lat, lon] => do
    let lat ← readField lat
    let lon ← readField lon
    return ⟨lat, lon⟩
  | _ => .error (.format (String.ofList text))

end Coordinate
end Speedtest.Geo
