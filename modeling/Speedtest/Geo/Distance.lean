import Speedtest.Decimal.Fixed
import Speedtest.Geo.Coordinate

/-!
# Distances

The length of the great circle between two coordinates by the haversine formula, on a sphere whose
radius is given in statute miles and in kilometres. Nautical miles are made from kilometres.
-/
namespace Speedtest.Geo

/-- The radius of the sphere in statute miles. -/
def radiusMiles : Float := 3958

/-- The radius of the sphere in kilometres. -/
def radiusKilometers : Float := 6371

/-- Nautical miles in a kilometre. -/
def nauticalPerKilometer : Float := 0.539957

/-- The double nearest to the ratio of a circle to its diameter. -/
def pi : Float := 3.141592653589793

def radians (degrees : Float) : Float := degrees * (pi / 180)

/-- The square of the sine of half an angle. -/
def haversine (angle : Float) : Float :=
  let s := (angle / 2).sin
  s * s

def centralAngle (p q : Coordinate) : Float :=
  let lat := radians p.lat
  let lat' := radians q.lat
  let h := haversine (lat' - lat) + lat.cos * lat'.cos * haversine (radians (q.lon - p.lon))
  2 * Float.atan2 h.sqrt (1 - h).sqrt

/-- A unit of length. -/
inductive LengthUnit where
  | miles
  | kilometers
  | nauticalMiles
  deriving DecidableEq, Repr

namespace LengthUnit

/-- The unit that a query asks for: `km`, `NM`, and miles for anything else or for nothing. -/
def ofQuery (name : Option String) : LengthUnit :=
  if name = some "km" then .kilometers
  else if name = some "NM" then .nauticalMiles
  else .miles

def symbol : LengthUnit → String
  | .miles => "mi"
  | .kilometers => "km"
  | .nauticalMiles => "NM"

end LengthUnit

/-- A length in a unit. -/
structure Distance where
  value : Float
  unit : LengthUnit

namespace Distance

def between (p q : Coordinate) (unit : LengthUnit) : Distance :=
  let angle := centralAngle p q
  match unit with
  | .miles => ⟨angle * radiusMiles, .miles⟩
  | .kilometers => ⟨angle * radiusKilometers, .kilometers⟩
  | .nauticalMiles => ⟨angle * radiusKilometers * nauticalPerKilometer, .nauticalMiles⟩

def text (d : Distance) : String := Decimal.Fixed.render 2 d.value ++ " " ++ d.unit.symbol

def ofLocation (location : String) (place : Coordinate) (unit : LengthUnit) :
    Except LocationError Distance :=
  (Coordinate.ofLocation location.toList).map fun c => between c place unit

end Distance
end Speedtest.Geo
