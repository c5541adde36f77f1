import Speedtest.Service.Endpoint
import Speedtest.Text.Numeral

/-!
# Counters

What the service counts. A counter that nothing was ever added to has no value, which is not the same as
zero: adding zero gives it one.
-/
namespace Speedtest.Service

/-- Something that is counted. -/
inductive Counter where
  /-- Requests that an endpoint handled. -/
  | requests (e : Endpoint)
  /-- Bytes that clients sent to be thrown away. -/
  | uploaded
  /-- Bytes of downloads that went out. -/
  | downloaded
  /-- Records that were, or were not, put into the store. -/
  | inserts (done : Bool)
  /-- Connections that were dropped for the header in front of them. -/
  | badHeaders
  deriving DecidableEq

namespace Counter

def all : List Counter :=
  Endpoint.all.map .requests ++ [.uploaded, .downloaded, .inserts true, .inserts false, .badHeaders]

def labelled (name label value : String) : String :=
  name ++ "\x7b" ++ label ++ "=\"" ++ value ++ "\"\x7d"

def name : Counter → String
  | .requests e => labelled "speedtest_requests_total" "endpoint" e.label
  | .uploaded => "speedtest_upload_bytes_total"
  | .downloaded => "speedtest_download_bytes_total"
  | .inserts true => labelled "speedtest_telemetry_inserts_total" "outcome" "ok"
  | .inserts false => labelled "speedtest_telemetry_inserts_total" "outcome" "error"
  | .badHeaders => "speedtest_proxy_header_rejected_total"

end Counter

/-- The values of the counters that have one. -/
structure Counters where
  values : List (Counter × Nat)
  deriving DecidableEq

namespace Counters

def start : Counters := ⟨[]⟩

/-- The value of a counter, if it has one. -/
def value? (cs : Counters) (c : Counter) : Option Nat := cs.values.lookup c

/-- Values after something was added to one of them. -/
def raise (c : Counter) (n : Nat) : List (Counter × Nat) → List (Counter × Nat)
  | [] => [(c, n)]
  | (d, m) :: rest => if c = d then (d, m + n) :: rest else (d, m) :: raise c n rest

def add (cs : Counters) (c : Counter) (n : Nat) : Counters := ⟨raise c n cs.values⟩

def published (cs : Counters) : List (String × Nat) :=
  Counter.all.filterMap fun c => (cs.value? c).map fun n => (c.name, n)

/-- The counters as they are published: a line for each of them. -/
def text (cs : Counters) : String :=
  String.join (cs.published.map fun (name, n) => name ++ " " ++ String.ofList (Text.decimal n) ++ "\n")

theorem lookup_raise_same (c : Counter) (n : Nat) (vs : List (Counter × Nat)) :
    (raise c n vs).lookup c = some ((vs.lookup c).getD 0 + n) := by
  induction vs with
  | nil => simp [raise]
  | cons v vs ih =>
    obtain ⟨d, m⟩ := v
    by_cases h : c = d
    · subst h
      simp [raise]
    · have hb : (c == d) = false := by simpa using h
      simp [raise, h, List.lookup_cons, hb, ih]

theorem lookup_raise_other {c d : Counter} (n : Nat) (h : d ≠ c) (vs : List (Counter × Nat)) :
    (raise c n vs).lookup d = vs.lookup d := by
  have hb : (d == c) = false := by simpa using h
  induction vs with
  | nil => simp [raise, List.lookup_cons, hb]
  | cons v vs ih =>
    obtain ⟨e, m⟩ := v
    by_cases he : c = e
    · subst he
      simp [raise, List.lookup_cons, hb]
    · simp [raise, he, List.lookup_cons, ih]

@[simp] theorem value?_add_same (cs : Counters) (c : Counter) (n : Nat) :
    (cs.add c n).value? c = some ((cs.value? c).getD 0 + n) := lookup_raise_same c n cs.values

theorem value?_add_other (cs : Counters) {c d : Counter} (n : Nat) (h : d ≠ c) :
    (cs.add c n).value? d = cs.value? d := lookup_raise_other n h cs.values

end Counters
end Speedtest.Service
