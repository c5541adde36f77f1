import Speedtest.Address.Reach
import Speedtest.Service.Basic

/-!
# Telling clients their address

A client is told its address, and with it what kind of address it is or who provides it. The lookup service is
asked for public addresses alone, and only when the client wants its provider told.
-/
namespace Speedtest.Service

/-- What a client is told. -/
structure Whereabouts where
  summary : String
  profile : Geo.Profile
  deriving DecidableEq

namespace Whereabouts

def toJson (w : Whereabouts) : Json :=
  .object [(Json.Lexeme.encode "processedString", .ofText w.summary),
    (Json.Lexeme.encode "rawIspInfo", w.profile.toJson)]

/-- The answer that a document holds; both of its parts have to be there. -/
def ofJson? (v : Json) : Option Whereabouts := do
  let members ← v.readMembers? some ["processedString", "rawIspInfo"]
  let summary ← (← members.lookup "processedString").text?
  let profile ← Geo.Profile.ofJson? (← members.lookup "rawIspInfo")
  return ⟨summary, profile⟩

end Whereabouts

def wantsProvider (r : Http.Request) : Bool := Form.first? r.target.queryBytes "isp" == some "true"

def unitAsked (r : Http.Request) : Geo.LengthUnit :=
  .ofQuery (Form.first? r.target.queryBytes "distance")

/-- What a client with an address is told, and what the lookup service was asked for. -/
def whereabouts (s : Service) (reply : Http.Reply) (client : String) (r : Http.Request) :
    Geo.Lookup.Asked Whereabouts :=
  let written := Address.bareText client.toList
  let address := String.ofList written
  match (Address.Reach.ofText written).note? with
  | some note => ⟨⟨address ++ " - " ++ note, {}⟩, []⟩
  | none =>
    if wantsProvider r then
      let asked := s.lookup.profile reply address
      let summary := asked.result.summary s.coordinate (unitAsked r)
      ⟨⟨address ++ " - " ++ summary, asked.result⟩, asked.requests⟩
    else ⟨⟨address, {}⟩, []⟩

def tellAddress (s : Service) (m : Moment) (client : String) (r : Http.Request) (st : State) :
    Handled :=
  let asked := whereabouts s m.reply client r
  { st.respond (.json asked.result.toJson) with lookups := asked.requests }

end Speedtest.Service
