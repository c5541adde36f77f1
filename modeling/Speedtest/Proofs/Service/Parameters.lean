import Speedtest.Proofs.Form.Decoding
import Speedtest.Proofs.Service.Storing

/-!
# The value of a parameter

Two endpoints look a parameter up in the query, and two collect the parameters of a body and of the query behind it.
They agree on what a query says. Where a body is collected first, its fields stand whatever the query is: the query
only adds the values of other names.
-/
namespace Speedtest

def Http.Request.asking (r : Http.Request) (query : String) : Http.Request :=
  { r with target := { r.target with query := some query } }

namespace Service

/-- Looking a name up in the query is looking it up in what is collected from the query. -/
theorem first?_eq_lookup_withQuery (r : Http.Request) (name : String) :
    Form.first? r.target.queryBytes name = (withQuery [] r).lookup name := by
  unfold withQuery
  cases r.target.queryBytes with
  | none => rfl
  | some query => exact Form.first?_eq_lookup_collect query name

theorem merged_withQuery (known : Form.Pairs) (r : Http.Request) (query : String) :
    Form.Merged known (Text.Utf8.encode query.toList) (withQuery known (r.asking query)) :=
  Form.merged_collect known _

/-- The fields of a body stand, whatever the query is. -/
structure BodyStands (r : Http.Request) : Prop where
  login (body : Bytes) (kind : hasContentType r "application/x-www-form-urlencoded" = true)
    (whole : r.body.gather loginLimit = .ok body) (query : String) :
    ∃ params, loginParameters (r.asking query) = .ok params ∧
      Form.Merged (Form.collect [] body) (Text.Utf8.encode query.toList) params
  encoded (body : Bytes) (kind : isInParts r = false) (whole : r.body.gather formLimit = .ok body) (query : String) :
    ∃ form, readForm (r.asking query) = .ok form ∧
      Form.Merged (Form.collect [] body) (Text.Utf8.encode query.toList) form
  inParts (fields : Form.Pairs) (kind : isInParts r = true) (read : readParts r = .ok fields) (query : String) :
    ∃ form, readForm (r.asking query) = .ok form ∧ Form.Merged fields (Text.Utf8.encode query.toList) form

/-- Neither the kind of a body nor its bytes depend on the query. -/
theorem bodyStands (r : Http.Request) : BodyStands r := by
  constructor
  case login =>
    intro body kind whole query
    refine ⟨withQuery (Form.collect [] body) (r.asking query), ?_, merged_withQuery _ r query⟩
    have hkind : hasContentType (r.asking query) "application/x-www-form-urlencoded" = true := kind
    have hwhole : (r.asking query).body.gather loginLimit = .ok body := whole
    rw [loginParameters, hkind, hwhole]
    rfl
  case encoded =>
    intro body kind whole query
    refine ⟨withQuery (Form.collect [] body) (r.asking query), ?_, merged_withQuery _ r query⟩
    have hkind : isInParts (r.asking query) = false := kind
    have hread : readEncoded (r.asking query) = .ok (Form.collect [] body) := by
      show readEncoded r = _
      rw [readEncoded, whole]
    rw [readForm, hkind, if_neg Bool.false_ne_true, hread]
    rfl
  case inParts =>
    intro fields kind read query
    refine ⟨withQuery fields (r.asking query), ?_, merged_withQuery _ r query⟩
    have hkind : isInParts (r.asking query) = true := kind
    have hread : readParts (r.asking query) = .ok fields := read
    rw [readForm, hkind, if_pos rfl, hread]
    rfl

/-- A parameter has the value of the first piece that says it, however it is looked up: in one form or in what was
collected from it, and in forms one after the other or joined. What is known beforehand, as the fields of a body are
before the query, keeps its value. -/
theorem parameters_agree (known : Form.Pairs) (a b : Bytes) (name : String) (r : Http.Request) :
    Form.first? (some b) name = (Form.collect [] b).lookup name ∧
    (∀ value, Form.first? (some b) name = some value ↔ Form.FirstSays b name value) ∧
    Form.first? r.target.queryBytes name = (withQuery [] r).lookup name ∧
    Form.collect (Form.collect known a) b = Form.collect known (a ++ 0x26 :: b) ∧
    Form.Merged known b (Form.collect known b) ∧
    BodyStands r :=
  ⟨Form.first?_eq_lookup_collect b name, fun _ => Form.first?_eq_some_iff, first?_eq_lookup_withQuery r name,
    Form.collect_collect known a b, Form.merged_collect known b, bodyStands r⟩

/-- A login whose body writes a name in two ways and leaves another one to the query. -/
def disguisedLogin : Http.Request where
  method := "POST"
  target := ⟨"/stats", none⟩
  headers := [Http.Headers.ascii "content-type" "application/x-www-form-urlencoded"]
  body := .ofBytes (Bytes.ofAscii "&%69d=L100&id=other&p%61ss+word=%zz&password=wrong")
  peer := none

/-- The query says the same names once more, one of them disguised. -/
theorem parameters_agree_disguised :
    ∃ params, loginParameters (disguisedLogin.asking "pass%77ord=right&id=query&unit=km") = .ok params ∧
      params.lookup "id" = some "L100" ∧ params.lookup "password" = some "wrong" ∧
      params.lookup "pass word" = some "%zz" ∧ params.lookup "unit" = some "km" := by
  obtain ⟨-, -, -, -, -, hstands⟩ := parameters_agree [] [] [] "id" disguisedLogin
  obtain ⟨params, hparams, hmerged⟩ := hstands.login _ (by decide +kernel) rfl "pass%77ord=right&id=query&unit=km"
  have hunit : Form.FirstSays (Text.Utf8.encode "pass%77ord=right&id=query&unit=km".toList) "unit" "km" :=
    Form.first?_eq_some_iff.1 (by decide +kernel)
  refine ⟨params, hparams, hmerged.kept _ _ ?_, hmerged.kept _ _ ?_, hmerged.kept _ _ ?_, ?_⟩
  · decide +kernel
  · decide +kernel
  · decide +kernel
  · exact (hmerged.added _ _ (by decide +kernel)).2 hunit

end Service
end Speedtest
