import Speedtest.Geo.Distance
import Speedtest.Geo.Lookup
import Speedtest.Proofs.Decimal.Notation
import Speedtest.Proofs.Decimal.Rounding

/-!
# Where a location is

A location is to be two decimal numbers with one comma between them. Fields are counted first; then the first field that
is no number is reported as it stands. The reader of numbers takes more than decimal numbers of finite value: it also
takes the names of infinity and of what is no number, and numbers so large that their doubles are infinite. Whether such
a field is met is all that stands between the locations that are taken and those that name a place on the globe.
-/
namespace Speedtest.Geo

variable {text lat lon lat' lon' field : List Char}

/-! ## Fields -/

/-- A text has exactly two fields with a comma between them. -/
def HasFields (text lat lon : List Char) : Prop := text = lat ++ ',' :: lon ∧ ',' ∉ lat ∧ ',' ∉ lon

/-- Splitting at commas gives a pair exactly where there are two fields. -/
theorem splitOn_eq_pair_iff : text.splitOn ',' = [lat, lon] ↔ HasFields text lat lon := by
  constructor
  · intro h
    have hcomma : ',' ∈ text := by
      by_contra hnone
      rw [List.splitOn_eq_singleton hnone] at h
      exact nomatch (List.cons.inj h).2
    obtain ⟨front, back, rfl, hfront⟩ := List.eq_append_cons_of_mem hcomma
    rw [List.splitOn_append_cons_self_of_not_mem hfront] at h
    obtain ⟨rfl, hback⟩ := List.cons.inj h
    by_cases hmore : ',' ∈ back
    · obtain ⟨mid, rest, rfl, hmid⟩ := List.eq_append_cons_of_mem hmore
      rw [List.splitOn_append_cons_self_of_not_mem hmid] at hback
      exact absurd (List.cons.inj hback).2 (List.splitOn_ne_nil _ _)
    · rw [List.splitOn_eq_singleton hmore] at hback
      obtain rfl := (List.cons.inj hback).1
      exact ⟨rfl, hfront, hmore⟩
  · rintro ⟨rfl, hlat, hlon⟩
    rw [List.splitOn_append_cons_self_of_not_mem hlat, List.splitOn_eq_singleton hlon]

theorem HasFields.unique (h : HasFields text lat lon) (h' : HasFields text lat' lon') : lat = lat' ∧ lon = lon' := by
  have hpair := (splitOn_eq_pair_iff.2 h).symm.trans (splitOn_eq_pair_iff.2 h')
  obtain ⟨hlat, hrest⟩ := List.cons.inj hpair
  exact ⟨hlat, (List.cons.inj hrest).1⟩

/-! ## Laws for locations -/

/-- What a field says without the blanks around it. -/
def Says (field : List Char) (r : Decimal.Reading) : Prop := Decimal.Writes (Text.trim field) r

/-- A field is a decimal number of finite value. -/
def IsDegrees (field : List Char) : Prop := ∃ x, Says field (.number x) ∧ x.IsFinite

/-- A field is a number of any size, or a name that the reader of numbers knows. -/
def IsTaken (field : List Char) : Prop := ∃ r, Says field r

/-- What is to become of a location when its fields have to be good: it fails unless there are two fields, it fails with
the first of them that is not good, as that stands, and otherwise it succeeds. -/
inductive Judged {α : Type} (good : List Char → Prop) : List Char → Except LocationError α → Prop where
  | format {text : List Char} (hfields : ¬ ∃ lat lon, HasFields text lat lon) :
      Judged good text (.error (.format (String.ofList text)))
  | lat {text lat lon : List Char} (hfields : HasFields text lat lon) (hlat : ¬ good lat) :
      Judged good text (.error (.number (String.ofList lat)))
  | lon {text lat lon : List Char} (hfields : HasFields text lat lon) (hlat : good lat) (hlon : ¬ good lon) :
      Judged good text (.error (.number (String.ofList lon)))
  | place {text lat lon : List Char} {a : α} (hfields : HasFields text lat lon) (hlat : good lat) (hlon : good lon) :
      Judged good text (.ok a)

/-- A field that is taken though it is not a decimal number of finite value: a name, or a number that is too large. -/
def IsOdd (field : List Char) : Prop :=
  (∃ negative, Says field (.infinite negative)) ∨ Says field .nan ∨ ∃ x, Says field (.number x) ∧ ¬ x.IsFinite

/-- The first field that is not a decimal number of finite value is taken all the same. -/
def Slips (text : List Char) : Prop :=
  ∃ lat lon, HasFields text lat lon ∧ (IsOdd lat ∨ IsDegrees lat ∧ IsOdd lon)

theorem says_unique {r r' : Decimal.Reading} (h : Says field r) (h' : Says field r') : r = r' :=
  Option.some.inj ((Decimal.read?_eq_some_iff.2 h).symm.trans (Decimal.read?_eq_some_iff.2 h'))

theorem isTaken_iff : IsTaken field ↔ IsDegrees field ∨ IsOdd field := by
  constructor
  · rintro ⟨x | negative | _, hread⟩
    · by_cases hfinite : x.IsFinite
      · exact .inl ⟨x, hread, hfinite⟩
      · exact .inr (.inr (.inr ⟨x, hread, hfinite⟩))
    · exact .inr (.inl ⟨negative, hread⟩)
    · exact .inr (.inr (.inl hread))
  · rintro (⟨x, hread, -⟩ | ⟨negative, hread⟩ | hread | ⟨x, hread, -⟩) <;> exact ⟨_, hread⟩

theorem IsDegrees.not_isOdd (h : IsDegrees field) : ¬ IsOdd field := by
  obtain ⟨x, hread, hfinite⟩ := h
  rintro (⟨negative, hread'⟩ | hread' | ⟨x', hread', hinfinite⟩)
  · exact nomatch says_unique hread hread'
  · exact nomatch says_unique hread hread'
  · obtain rfl := Decimal.Reading.number.inj (says_unique hread hread')
    exact hinfinite hfinite

/-- A field becomes a finite double exactly where it is a decimal number of finite value. -/
theorem isDegrees_iff {r : Decimal.Reading} (hread : Says field r) : IsDegrees field ↔ r.toFloat.isFinite = true := by
  rw [r.isFinite_toFloat]
  constructor
  · rintro ⟨x, hx, hfinite⟩
    exact ⟨x, says_unique hread hx, hfinite⟩
  · rintro ⟨x, rfl, hfinite⟩
    exact ⟨x, hread, hfinite⟩

theorem IsTaken.isOdd_iff (h : IsTaken field) : IsOdd field ↔ ¬ IsDegrees field :=
  ⟨fun hodd hdegrees => hdegrees.not_isOdd hodd, (isTaken_iff.1 h).resolve_left⟩

theorem slips_iff (h : HasFields text lat lon) : Slips text ↔ IsOdd lat ∨ IsDegrees lat ∧ IsOdd lon := by
  constructor
  · rintro ⟨lat', lon', hfields, hodd⟩
    obtain ⟨rfl, rfl⟩ := h.unique hfields
    exact hodd
  · exact fun hodd => ⟨lat, lon, h, hodd⟩

theorem not_slips_iff (h : HasFields text lat lon) (hlat : IsTaken lat) (hlon : IsTaken lon) :
    ¬ Slips text ↔ IsDegrees lat ∧ IsDegrees lon := by
  rw [slips_iff h, hlat.isOdd_iff, hlon.isOdd_iff]
  tauto

namespace Judged

variable {α β : Type} {good : List Char → Prop} {outcome : Except LocationError α}

/-- Where there are two fields, the judgement hangs on these alone. -/
theorem iff_of_hasFields (h : HasFields text lat lon) :
    Judged good text outcome ↔
      ¬ good lat ∧ outcome = .error (.number (String.ofList lat)) ∨
      good lat ∧ ¬ good lon ∧ outcome = .error (.number (String.ofList lon)) ∨
      good lat ∧ good lon ∧ ∃ a, outcome = .ok a := by
  constructor
  · intro hjudged
    cases hjudged with
    | format hfields => exact absurd ⟨lat, lon, h⟩ hfields
    | lat hfields hlat =>
      obtain ⟨rfl, rfl⟩ := h.unique hfields
      exact .inl ⟨hlat, rfl⟩
    | lon hfields hlat hlon =>
      obtain ⟨rfl, rfl⟩ := h.unique hfields
      exact .inr (.inl ⟨hlat, hlon, rfl⟩)
    | place hfields hlat hlon =>
      obtain ⟨rfl, rfl⟩ := h.unique hfields
      exact .inr (.inr ⟨hlat, hlon, _, rfl⟩)
  · rintro (⟨hlat, rfl⟩ | ⟨hlat, hlon, rfl⟩ | ⟨hlat, hlon, a, rfl⟩)
    · exact .lat h hlat
    · exact .lon h hlat hlon
    · exact .place h hlat hlon

theorem map (h : Judged good text outcome) (f : α → β) : Judged good text (outcome.map f) := by
  cases h with
  | format hfields => exact .format hfields
  | lat hfields hlat => exact .lat hfields hlat
  | lon hfields hlat hlon => exact .lon hfields hlat hlon
  | place hfields hlat hlon => exact .place hfields hlat hlon

/-- What takes the fields that the reader takes obeys the law of decimal numbers exactly where no location slips through. -/
theorem degrees_iff (h : Judged IsTaken text outcome) : Judged IsDegrees text outcome ↔ ¬ Slips text := by
  cases h with
  | format hfields =>
    refine iff_of_true (.format hfields) ?_
    rintro ⟨lat, lon, h, -⟩
    exact hfields ⟨lat, lon, h⟩
  | lat hfields hlat =>
    rw [isTaken_iff, not_or] at hlat
    rw [slips_iff hfields]
    exact iff_of_true (.lat hfields hlat.1) fun hodd => hodd.elim hlat.2 fun hdegrees => hlat.1 hdegrees.1
  | @lon lat lon hfields hlat hlon =>
    have hbad : ¬ IsDegrees lon ∧ ¬ IsOdd lon := by rwa [isTaken_iff, not_or] at hlon
    rw [slips_iff hfields, iff_of_hasFields hfields, hlat.isOdd_iff]
    -- the failure names the second field, which is not the first one
    have hother : ¬ (.error (.number (String.ofList lon)) : Except LocationError α) =
        .error (.number (String.ofList lat)) := by
      rw [Except.error.injEq, LocationError.number.injEq, String.ofList_inj]
      rintro rfl
      exact hlon hlat
    simp [hother, hbad]
  | place hfields hlat hlon =>
    rw [not_slips_iff hfields hlat hlon, iff_of_hasFields hfields]
    simp

end Judged

/-! ## Locations -/

theorem readField_eq_ok_iff {v : Float} : Coordinate.readField field = .ok v ↔ ∃ r, Says field r ∧ r.toFloat = v := by
  unfold Coordinate.readField Says
  cases hread : Decimal.read? (Text.trim field) with
  | none => simp [← Decimal.read?_eq_some_iff, hread]
  | some r => simp [← Decimal.read?_eq_some_iff, hread]

theorem readField_of_not_isTaken (hfield : ¬ IsTaken field) :
    Coordinate.readField field = .error (.number (String.ofList field)) := by
  unfold Coordinate.readField
  cases hread : Decimal.read? (Text.trim field) with
  | none => rfl
  | some r => exact absurd ⟨r, Decimal.read?_eq_some_iff.1 hread⟩ hfield

theorem ofLocation_of_hasFields (h : HasFields text lat lon) :
    Coordinate.ofLocation text =
      (Coordinate.readField lat).bind fun x => (Coordinate.readField lon).bind fun y => .ok ⟨x, y⟩ := by
  rw [Coordinate.ofLocation, splitOn_eq_pair_iff.2 h]
  rfl

/-- A location is judged by what the reader of numbers takes. -/
theorem judged_ofLocation (text : List Char) : Judged IsTaken text (Coordinate.ofLocation text) := by
  by_cases hfields : ∃ lat lon, HasFields text lat lon
  · obtain ⟨lat, lon, h⟩ := hfields
    rw [ofLocation_of_hasFields h]
    by_cases hlat : IsTaken lat
    · obtain ⟨x, hx⟩ : ∃ x, Coordinate.readField lat = .ok x := by
        obtain ⟨r, hr⟩ := hlat
        exact ⟨_, readField_eq_ok_iff.2 ⟨r, hr, rfl⟩⟩
      by_cases hlon : IsTaken lon
      · obtain ⟨y, hy⟩ : ∃ y, Coordinate.readField lon = .ok y := by
          obtain ⟨r, hr⟩ := hlon
          exact ⟨_, readField_eq_ok_iff.2 ⟨r, hr, rfl⟩⟩
        rw [hx, hy]
        exact .place h hlat hlon
      · rw [hx, readField_of_not_isTaken hlon]
        exact .lon h hlat hlon
    · rw [readField_of_not_isTaken hlat]
      exact .lat h hlat
  · have herror : Coordinate.ofLocation text = .error (.format (String.ofList text)) := by
      unfold Coordinate.ofLocation
      split
      case h_1 lat lon hsplit => exact absurd ⟨lat, lon, splitOn_eq_pair_iff.1 hsplit⟩ hfields
      case h_2 => rfl
    rw [herror]
    exact .format hfields

theorem ofLocation_of_readings {r r' : Decimal.Reading} (h : HasFields text lat lon) (hlat : Says lat r) (hlon : Says lon r') :
    Coordinate.ofLocation text = .ok ⟨r.toFloat, r'.toFloat⟩ := by
  rw [ofLocation_of_hasFields h, readField_eq_ok_iff.2 ⟨r, hlat, rfl⟩, readField_eq_ok_iff.2 ⟨r', hlon, rfl⟩]
  rfl

/-- The numbers of a coordinate are finite exactly where the location does not slip through. -/
theorem isFinite_ofLocation {c : Coordinate} (hc : Coordinate.ofLocation text = .ok c) :
    (c.lat.isFinite = true ∧ c.lon.isFinite = true) ↔ ¬ Slips text := by
  have hjudged := judged_ofLocation text
  rw [hc] at hjudged
  cases hjudged with
  | @place lat lon _ hfields hlat hlon =>
    obtain ⟨r, hr⟩ := hlat
    obtain ⟨r', hr'⟩ := hlon
    rw [ofLocation_of_readings hfields hr hr'] at hc
    obtain rfl := Except.ok.inj hc
    rw [not_slips_iff hfields ⟨r, hr⟩ ⟨r', hr'⟩, isDegrees_iff hr, isDegrees_iff hr']

/-- A server that is told its location by the lookup service is where that says, or nowhere in particular when it names
no place. -/
theorem serverCoordinate_of_told {l : Lookup} {reply : Http.Reply} {configured : Coordinate} {p : Profile}
    (hzero : configured.isZero = true) (htold : (l.ask reply none).result = some p) :
    (l.serverCoordinate reply configured).result = (Coordinate.ofLocation p.location.toList).toOption.getD .origin := by
  rw [Lookup.serverCoordinate, if_pos hzero]
  simp only [htold, Option.map_some]
  cases Coordinate.ofLocation p.location.toList <;> rfl

/-- A location is judged by its fields, of which the reader of numbers takes some that are no decimal numbers of finite
value. Unless such a field is the first that is at fault, the location is judged as if only decimal numbers of finite
value were taken, and so is the distance from it; where it is, and only there, a coordinate comes out that is not finite,
which the server takes for its own when the lookup service tells it. -/
theorem judged_unless_slips (text : String) :
    let place := Coordinate.ofLocation text.toList
    Judged IsTaken text.toList place ∧
    (Judged IsDegrees text.toList place ↔ ¬ Slips text.toList) ∧
    (∀ c, place = .ok c → (c.lat.isFinite = true ∧ c.lon.isFinite = true ↔ ¬ Slips text.toList)) ∧
    (∀ server unit, Judged IsTaken text.toList (Distance.ofLocation text server unit) ∧
      (Judged IsDegrees text.toList (Distance.ofLocation text server unit) ↔ ¬ Slips text.toList)) ∧
    (∀ (l : Lookup) (reply : Http.Reply) (configured : Coordinate) (p : Profile), configured.isZero = true →
      (l.ask reply none).result = some p → p.location = text →
      (l.serverCoordinate reply configured).result = place.toOption.getD .origin) := by
  have hjudged := judged_ofLocation text.toList
  refine ⟨hjudged, hjudged.degrees_iff, fun c hc => isFinite_ofLocation hc, fun server unit => ?_, ?_⟩
  · have hdistance := hjudged.map fun c => Distance.between c server unit
    exact ⟨hdistance, hdistance.degrees_iff⟩
  · rintro l reply configured p hzero htold rfl
    exact serverCoordinate_of_told hzero htold

/-- A lookup service that knows of a location so far north that its latitude is infinite. -/
theorem judged_unless_slips_infinite :
    let l : Lookup := ⟨⟨"http".toList, some ⟨[], .name "lookup.test".toList, none⟩, .segments [[]], none, none⟩, none⟩
    let reply : Http.Reply := .answer 200 (Bytes.ofAscii "\x7b\"loc\":\"1e999,2\"\x7d") true
    let server := (l.serverCoordinate reply .origin).result
    Slips "1e999,2".toList ∧ Coordinate.ofLocation "1e999,2".toList = .ok server ∧
      ¬ (server.lat.isFinite = true ∧ server.lon.isFinite = true) := by
  intro l reply server
  have hfields : HasFields "1e999,2".toList "1e999".toList "2".toList := ⟨rfl, by decide, by decide⟩
  have hlat : Says "1e999".toList (.number ⟨false, 1, 999⟩) := Decimal.read?_eq_some_iff.1 (by decide)
  have hlon : Says "2".toList (.number ⟨false, 2, 0⟩) := Decimal.read?_eq_some_iff.1 (by decide)
  have hlarge : ¬ Decimal.Number.IsFinite ⟨false, 1, 999⟩ := by
    rw [← Decimal.Number.magnitude_lt_infinity_iff]
    decide
  have hslips : Slips "1e999,2".toList := ⟨_, _, hfields, .inl (.inr (.inr ⟨_, hlat, hlarge⟩))⟩
  have htold : (l.ask reply none).result = some { location := "1e999,2" } := by decide +kernel
  have hplace := ofLocation_of_readings hfields hlat hlon
  obtain ⟨-, -, hfinite, -, hserver⟩ := judged_unless_slips "1e999,2"
  have hcoordinate : Coordinate.ofLocation "1e999,2".toList = .ok server := by
    have htaken := hserver l reply .origin _ (by decide) htold rfl
    rw [hplace] at htaken ⊢
    exact congrArg Except.ok htaken.symm
  exact ⟨hslips, hcoordinate, fun h => (hfinite server hcoordinate).1 h hslips⟩

/-- What is no number is taken for a latitude, and distances are computed from it. -/
theorem nan_taken : ¬ Judged IsDegrees "nan,1".toList (Coordinate.ofLocation "nan,1".toList) ∧
    (∃ c, Coordinate.ofLocation "nan,1".toList = .ok c ∧ c.lat.isNaN = true) ∧
    ¬ Judged IsDegrees "nan,1".toList (Distance.ofLocation "nan,1" .origin .kilometers) := by
  have hfields : HasFields "nan,1".toList "nan".toList "1".toList := ⟨rfl, by decide, by decide⟩
  have hlat : Says "nan".toList .nan := Decimal.read?_eq_some_iff.1 (by decide)
  have hlon : Says "1".toList (.number ⟨false, 1, 0⟩) := Decimal.read?_eq_some_iff.1 (by decide)
  have hslips : Slips "nan,1".toList := ⟨_, _, hfields, .inl (.inr (.inl hlat))⟩
  have hjudged := judged_ofLocation "nan,1".toList
  refine ⟨fun h => hjudged.degrees_iff.1 h hslips, ⟨_, ofLocation_of_readings hfields hlat hlon, by decide⟩, fun h => ?_⟩
  exact (hjudged.map fun c => Distance.between c .origin .kilometers).degrees_iff.1 h hslips

end Speedtest.Geo
