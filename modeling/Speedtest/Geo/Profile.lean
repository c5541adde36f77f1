import Speedtest.Geo.Distance
import Speedtest.Json.Record
import Speedtest.Text.Digit

/-!
# What is known of an address

A profile is the record that a lookup service keeps of an address. Every field may be missing, which
is the same as empty. The summary names the provider, its country and its distance; a location that is
no coordinate costs the distance and nothing else.
-/
namespace Speedtest.Geo

/-- The record of an address. -/
structure Profile where
  ip : String := ""
  hostname : String := ""
  city : String := ""
  region : String := ""
  country : String := ""
  location : String := ""
  organization : String := ""
  postal : String := ""
  timezone : String := ""
  readme : String := ""
  deriving DecidableEq, Inhabited

namespace Profile

/-- The names of the fields, in order. -/
def fieldNames : List String :=
  ["ip", "hostname", "city", "region", "country", "loc", "org", "postal", "timezone", "readme"]

def ofFields (fields : List (String × String)) : Profile :=
  let field (name : String) : String := (fields.lookup name).getD ""
  ⟨field "ip", field "hostname", field "city", field "region", field "country", field "loc",
    field "org", field "postal", field "timezone", field "readme"⟩

def ofJson? (v : Json) : Option Profile := (v.readFields? fieldNames).map ofFields

/-- The profile as a document. An empty `readme` is left out. -/
def toJson (p : Profile) : Json :=
  .ofFields <|
    [("ip", p.ip), ("hostname", p.hostname), ("city", p.city), ("region", p.region),
      ("country", p.country), ("loc", p.location), ("org", p.organization), ("postal", p.postal),
      ("timezone", p.timezone)] ++
    if p.readme = "" then [] else [("readme", p.readme)]

/-- The text behind the number of a network at the front: `AS`, digits and one blank. -/
def afterNetworkNumber? : List Char → Option (List Char)
  | 'A' :: 'S' :: s =>
    match s.takeWhile Text.isDigit, s.dropWhile Text.isDigit with
    | _ :: _, c :: rest => if Text.isBlank c then some rest else none
    | _, _ => none
  | _ => none

/-- Passing over the number of a network takes characters away. -/
theorem afterNetworkNumber?_length {s rest : List Char} (h : afterNetworkNumber? s = some rest) :
    rest.length < s.length := by
  unfold afterNetworkNumber? at h
  split at h
  · rename_i t
    split at h
    · rename_i c rest' _ hdrop
      split at h
      · obtain rfl := Option.some.inj h
        have := (List.dropWhile_suffix (p := Text.isDigit) (l := t)).length_le
        simp [hdrop] at this ⊢
        omega
      · simp at h
    · simp at h
  · simp at h

/-- A text without the numbers of networks in it. -/
def withoutNetworkNumbers (s : List Char) : List Char :=
  match s with
  | [] => []
  | c :: t =>
    match _h : afterNetworkNumber? (c :: t) with
    | some rest => withoutNetworkNumbers rest
    | none => c :: withoutNetworkNumbers t
termination_by s.length
decreasing_by
  · exact afterNetworkNumber?_length _h
  · simp

def provider (p : Profile) : String :=
  let name := String.ofList (withoutNetworkNumbers p.organization.toList)
  if name = "" then "Unknown ISP" else name

/-- Provider, country and distance to the server, as far as they are known. -/
def summary (p : Profile) (server : Coordinate) (unit : LengthUnit) : String :=
  let country := if p.country = "" then "" else ", " ++ p.country
  let distance :=
    if p.location = "" then ""
    else match Distance.ofLocation p.location server unit with
      | .ok d => " (" ++ d.text ++ ")"
      | .error _ => ""
  p.provider ++ country ++ distance

end Profile
end Speedtest.Geo
