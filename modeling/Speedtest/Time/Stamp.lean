import Speedtest.Time.Instant

/-!
# Dates of messages

Messages carry the date on which they were sent, with the names of the day and the month in three letters, in
universal time to the second.
-/
namespace Speedtest.Time

/-- The names of the days of a week, from that of 1 January 1970 on. -/
def dayNames : List String := ["Thu", "Fri", "Sat", "Sun", "Mon", "Tue", "Wed"]

def monthNames : List String :=
  ["Jan", "Feb", "Mar", "Apr", "May", "Jun", "Jul", "Aug", "Sep", "Oct", "Nov", "Dec"]

/-- The date as a message carries it. -/
def Instant.stamp (t : Instant) : String :=
  let d := t.date
  let ofDay := (t.seconds % 86400).toNat
  let day := dayNames.getD ((t.seconds / 86400) % 7).toNat ""
  let month := monthNames.getD (d.month - 1) ""
  let clock := two (ofDay / 3600) ++ [':'] ++ two (ofDay / 60 % 60) ++ [':'] ++ two (ofDay % 60)
  day ++ ", " ++ String.ofList (two d.day) ++ " " ++ month ++ " " ++
    String.ofList (yearText d.year) ++ " " ++ String.ofList clock ++ " GMT"

end Speedtest.Time
