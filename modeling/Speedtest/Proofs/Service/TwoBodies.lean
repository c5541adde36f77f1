import Speedtest.Proofs.Form
import Speedtest.Proofs.Http.Multipart
import Speedtest.Proofs.Service.Submissions

/-!
# One form in two kinds of bodies

A form is posted either encoded like a query or in parts. The two bodies have hardly a byte in common and are read by
different means, but the form that comes out is the same: the pairs as they were written, with the query behind them.
So the records of the two posts differ only in what the moment gives to them.
-/
namespace Speedtest.Service

/-! ## Posts that carry a form -/

/-- The body of a request is one of the bodies that pairs are written to. -/
inductive Carries (pairs : Form.Pairs) (r : Http.Request) : Prop where
  | encoded (kind : isInParts r = false) (written : Form.Writes pairs r.body.frames.flatten)
  | inParts {boundary : String} (kind : isInParts r = true)
    (told : (r.headers.text? "content-type").bind Http.Multipart.boundary? = some boundary)
    (writable : ∀ p ∈ pairs, Http.Multipart.Writable boundary p)
    (written : r.body.frames.flatten = Http.Multipart.write boundary pairs)

/-- A post of pairs to a service, whose body arrives whole and keeps within the limit. -/
structure Posts (s : Service) (pairs : Form.Pairs) (r : Http.Request) : Prop where
  post : isPost s r = true
  carries : Carries pairs r
  whole : r.body.failure = none
  within : r.body.received ≤ formLimit

def bodyFields : List String := ["content-type", "content-length", "transfer-encoding"]

/-- Two requests that have the same query, connection and fields, those apart that tell about their bodies. -/
structure AlikeButBody (r r' : Http.Request) : Prop where
  query : r'.target.query = r.target.query
  peer : r'.peer = r.peer
  fields : ∀ name ∉ bodyFields, r'.headers.first? name = r.headers.first? name

/-! ## Reading -/

variable {s : Service} {pairs : Form.Pairs} {r r' : Http.Request}

theorem gather_eq_of_whole {body : Http.Body} {limit : Nat} (hwhole : body.failure = none)
    (hwithin : body.received ≤ limit) : body.gather limit = .ok body.frames.flatten := by
  have hfits : body.fits limit = true := decide_eq_true hwithin
  rw [Http.Body.gather, hfits, hwhole]
  rfl

theorem filterMap_partOf (h : ∀ p ∈ pairs, p.2.toList.head? ≠ some (Char.ofNat 0xFEFF)) :
    ((pairs.map Http.Multipart.partOf).filterMap fun part => part.name.map fun name => (name, part.text)) = pairs := by
  induction pairs with
  | nil => rfl
  | cons p pairs ih =>
    have htext := Http.Multipart.text_partOf (h p List.mem_cons_self)
    have hrest := ih fun q hq => h q (List.mem_cons_of_mem p hq)
    show (p.1, (Http.Multipart.partOf p).text) :: (pairs.map Http.Multipart.partOf).filterMap _ = p :: pairs
    rw [htext, hrest]

/-- A body that is whole and keeps within the limit is read as the pairs that it carries. -/
theorem readBody_of_posts (h : Posts s pairs r) :
    (∃ fields, (if isInParts r then readParts r else readEncoded r) = .ok fields) ∧ bodyTexts r = pairs := by
  have hgather := gather_eq_of_whole h.whole h.within
  cases h.carries with
  | encoded kind written =>
    rw [bodyTexts, kind, if_neg Bool.false_ne_true, if_neg Bool.false_ne_true, readEncoded, hgather]
    exact ⟨⟨_, rfl⟩, Form.read_of_writes written⟩
  | @inParts boundary kind told writable written =>
    obtain ⟨contentType, -, hboundary⟩ := Option.bind_eq_some_iff.1 told
    have hparts := Http.Multipart.read_write (Http.Multipart.isBoundary_of_boundary? hboundary) writable
    rw [bodyTexts, kind, if_pos rfl, if_pos rfl, readParts, told, hgather, written]
    dsimp only
    rw [Option.bind_some, hparts]
    exact ⟨⟨_, rfl⟩, filterMap_partOf fun p hp => (writable p hp).unmarked⟩

/-- The form of a post has the first text that its pairs give to a name, and what the query gives to other names. -/
theorem readForm_of_posts (h : Posts s pairs r) :
    ∃ form, readForm r = .ok form ∧
      ∀ name, form.lookup name = (pairs.lookup name).or (Form.first? r.target.queryBytes name) := by
  obtain ⟨⟨fields, hfields⟩, hpairs⟩ := readBody_of_posts h
  have hform : readForm r = .ok (withQuery fields r) := by
    rw [readForm, hfields]
    rfl
  refine ⟨withQuery fields r, hform, fun name => ?_⟩
  rw [lookup_readForm hform, texts, hpairs, List.lookup_append]
  cases r.target.queryBytes with
  | none => rfl
  | some query => rfl

/-! ## Records -/

theorem text?_eq_of_alike (h : AlikeButBody r r') {name : String} (hname : name ∉ bodyFields) :
    r'.headers.text? name = r.headers.text? name := by
  rw [Http.Headers.text?, Http.Headers.text?, h.fields name hname]

theorem clientText?_eq_of_alike (h : AlikeButBody r r') : s.clientText? r' = s.clientText? r := by
  have hforwarded : Http.ClientAddress.forwarded? r'.headers = Http.ClientAddress.forwarded? r.headers := by
    have hnamed (name : String) (hname : name ∉ bodyFields) (part : List Char → List Char) :
        Http.ClientAddress.named? r'.headers name part = Http.ClientAddress.named? r.headers name part := by
      rw [Http.ClientAddress.named?, text?_eq_of_alike h hname]
      rfl
    rw [Http.ClientAddress.forwarded?, hnamed _ (by decide), hnamed _ (by decide), hnamed _ (by decide)]
    rfl
  simp only [clientText?, h.peer, Http.ClientAddress.text, Http.ClientAddress.resolve, hforwarded]

/-- What a record takes from a request besides the form are two fields that do not tell about the body. -/
theorem record_eq_of_alike (h : AlikeButBody r r') (m m' : Moment) (client : String) {form form' : Form.Pairs}
    (hform : ∀ name, form'.lookup name = form.lookup name) :
    record s m' client r' form' =
      { record s m client r form with timestamp := m'.time, uuid := m'.recordId } := by
  have hagent : fieldText r' "user-agent" = fieldText r "user-agent" := by
    rw [fieldText, text?_eq_of_alike h (by decide)]
    rfl
  have hlanguage : fieldText r' "accept-language" = fieldText r "accept-language" := by
    rw [fieldText, text?_eq_of_alike h (by decide)]
    rfl
  simp only [record, hform, hagent, hlanguage]

theorem submitted?_of_readForm {client : String} {form : Form.Pairs} (hpost : isPost s r = true)
    (hclient : s.clientText? r = some client) (hform : readForm r = .ok form) (m : Moment) :
    submitted? s m r = some (record s m client r form) := by
  rw [submitted?, if_pos hpost, hclient, hform]
  rfl

theorem store_of_submitted {m : Moment} {rec : Telemetry.Record} (h : submitted? s m r = some rec) (st : State) :
    (s.exchange m r st).2.store = storing st.store rec := by
  rw [store_exchange, h]
  rfl

/-- What two posts of pairs leave: forms that give to each name the first text of the pairs, or else that of the query,
and records that are the same in everything but the time and the identifier, each of which goes into the store. -/
structure LeaveAlike (s : Service) (pairs : Form.Pairs) (a a' : Arrival) : Prop where
  forms : ∃ form form', readForm a.2 = .ok form ∧ readForm a'.2 = .ok form' ∧ ∀ name,
    form.lookup name = (pairs.lookup name).or (Form.first? a.2.target.queryBytes name) ∧
    form'.lookup name = (pairs.lookup name).or (Form.first? a.2.target.queryBytes name)
  records : ∃ rec rec' : Telemetry.Record,
    rec' = { rec with timestamp := a'.1.time, uuid := a'.1.recordId } ∧
    submitted? s a.1 a.2 = some rec ∧ (∀ st, (s.exchange a.1 a.2 st).2.store = storing st.store rec) ∧
    submitted? s a'.1 a'.2 = some rec' ∧ ∀ st, (s.exchange a'.1 a'.2 st).2.store = storing st.store rec'

/-- However pairs are posted over a known connection, the same is left. -/
theorem posts_leaveAlike (s : Service) (pairs : Form.Pairs) (a a' : Arrival) (h : Posts s pairs a.2)
    (h' : Posts s pairs a'.2) (halike : AlikeButBody a.2 a'.2) (hknown : a.2.peer.isSome = true) :
    LeaveAlike s pairs a a' := by
  obtain ⟨form, hform, hlookup⟩ := readForm_of_posts h
  obtain ⟨form', hform', hlookup'⟩ := readForm_of_posts h'
  have hquery : a'.2.target.queryBytes = a.2.target.queryBytes := by
    rw [Http.Target.queryBytes, halike.query]
    rfl
  rw [hquery] at hlookup'
  obtain ⟨peer, hpeer⟩ := Option.isSome_iff_exists.1 hknown
  obtain ⟨client, hclient⟩ : ∃ client, s.clientText? a.2 = some client := by
    rw [clientText?, hpeer]
    exact ⟨_, rfl⟩
  have hclient' := (clientText?_eq_of_alike halike).trans hclient
  have hrecord := submitted?_of_readForm h.post hclient hform a.1
  have hrecord' := submitted?_of_readForm h'.post hclient' hform' a'.1
  constructor
  · exact ⟨form, form', hform, hform', fun name => ⟨hlookup name, hlookup' name⟩⟩
  · refine ⟨_, _, ?_, hrecord, store_of_submitted hrecord, hrecord', store_of_submitted hrecord'⟩
    exact record_eq_of_alike halike a.1 a'.1 client fun name => (hlookup' name).trans (hlookup name).symm

/-- Texts that have in them what the one kind of body or the other uses between names and texts. -/
def entangled : Form.Pairs :=
  [("dl", "a&b=c%2B+ d\r\n--X"), ("dl", "2"), ("log", "\r\n--\r\n"), ("it's", "é"), ("ul", "")]

def postOf (contentType : String) (body : Http.Body) : Http.Request where
  method := "POST"
  target := ⟨"/results/telemetry", some "dl=9&ul=8&ping=7"⟩
  headers := [Http.Headers.ascii "content-type" contentType, Http.Headers.ascii "user-agent" "probe"]
  body := body
  peer := some (.v4 ⟨192, 0, 2, 1⟩ 51000)

def postEncoded : Arrival :=
  (⟨.epoch, "first", "request", .refused⟩,
    postOf "application/x-www-form-urlencoded" (.ofBytes (Form.bytes (Form.write entangled))))

def postInParts : Arrival :=
  (⟨.epoch, "second", "request", .refused⟩,
    postOf "multipart/form-data; boundary=XY" (.ofBytes (Http.Multipart.write "XY" entangled)))

/-- Content types are none of the other fields. -/
theorem postOf_alike (contentType contentType' : String) (body body' : Http.Body) :
    AlikeButBody (postOf contentType body) (postOf contentType' body') := by
  refine ⟨rfl, rfl, fun name hname => ?_⟩
  have hother : (name == "content-type") = false := by
    rw [beq_eq_false_iff_ne]
    rintro rfl
    exact hname (by decide)
  simp only [postOf, Http.Headers.ascii, Http.Headers.first?, List.lookup_cons, hother]

theorem posts_leaveAlike_entangled :
    Posts (plain "secret") entangled postEncoded.2 ∧ Posts (plain "secret") entangled postInParts.2 ∧
      AlikeButBody postEncoded.2 postInParts.2 ∧ postEncoded.2.peer.isSome = true ∧
      LeaveAlike (plain "secret") entangled postEncoded postInParts := by
  have hencoded : Carries entangled postEncoded.2 := by
    have hbytes : postEncoded.2.body.frames.flatten = Form.bytes (Form.write entangled) := List.append_nil _
    refine .encoded (by decide +kernel) ?_
    rw [hbytes]
    exact Form.writes_write entangled
  have hparts : Carries entangled postInParts.2 := by
    have hwritable : ∀ p ∈ entangled, Http.Multipart.Writable "XY" p := by
      intro p hp
      simp only [entangled, List.mem_cons, List.not_mem_nil, or_false] at hp
      rcases hp with rfl | rfl | rfl | rfl | rfl <;>
        exact ⟨List.all_eq_true.1 (by decide +kernel), by decide +kernel, by decide +kernel⟩
    exact .inParts (by decide +kernel) (by decide +kernel) hwritable (List.append_nil _)
  have hfirst : Posts (plain "secret") entangled postEncoded.2 :=
    ⟨by decide +kernel, hencoded, rfl, by decide +kernel⟩
  have hsecond : Posts (plain "secret") entangled postInParts.2 :=
    ⟨by decide +kernel, hparts, rfl, by decide +kernel⟩
  have halike : AlikeButBody postEncoded.2 postInParts.2 := postOf_alike _ _ _ _
  exact ⟨hfirst, hsecond, halike, rfl,
    posts_leaveAlike (plain "secret") entangled postEncoded postInParts hfirst hsecond halike rfl⟩

end Speedtest.Service
