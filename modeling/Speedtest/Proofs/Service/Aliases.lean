import Speedtest.Proofs.Http.Mounting
import Speedtest.Service.Answer

/-!
# One endpoint behind all its paths

Under a plain base an endpoint is reached on its four paths behind the place of the base and on no other path. A
request is led by its path to an endpoint and never looks at the path again, nor at the mount point, so all the paths
of an endpoint, under whatever base, give the same response and leave the same state.
-/
namespace Speedtest

def Http.Request.atPath (r : Http.Request) (path : String) : Http.Request :=
  { r with target := { r.target with path } }

namespace Service

def mountedAt (s : Service) (mount : Http.Mount) : Service := { s with mount }

/-! ## Paths -/

/-- No path belongs to two endpoints. -/
theorem ofPath?_eq_some_iff {path : String} {e : Endpoint} :
    Endpoint.ofPath? path = some e ↔ path ∈ Http.Paths.aliases e.path := by
  have hdistinct : ∀ e ∈ Endpoint.all, ∀ own ∈ Http.Paths.aliases e.path,
      Endpoint.ofPath? own = some e := by decide +kernel
  have hall : e ∈ Endpoint.all := by cases e <;> decide
  constructor
  · intro h
    simpa using List.find?_some h
  · exact hdistinct e hall path

theorem find?_ofPlace {place path : String} {e : Endpoint} :
    Endpoint.find? (.ofPlace place) path = some e ↔
      ∃ own ∈ Http.Paths.aliases e.path, path = place ++ own := by
  simp only [Endpoint.find?, Option.bind_eq_some_iff, Http.Mount.under?_ofPlace, ofPath?_eq_some_iff]
  constructor
  · rintro ⟨own, hpath, hown⟩
    exact ⟨own, hown, hpath⟩
  · rintro ⟨own, hown, hpath⟩
    exact ⟨own, hpath, hown⟩

theorem status_of_find?_eq_none {s : Service} {r : Http.Request}
    (hfind : Endpoint.find? s.mount r.target.path = none) (hmethod : r.method ≠ "OPTIONS") (m : Moment)
    (st : State) : (s.exchange m r st).1.response.status = 404 := by
  simp [exchange, answer, route, hfind, hmethod, Http.Response.bare]

/-- A base is mounted at its place: an endpoint is reached on its own paths behind that place, and whatever else is
asked for is not found. -/
structure Mounted (base place : String) (mount : Http.Mount) : Prop where
  isPlace : Http.IsPlace base place
  ofBase : Http.Mount.ofBase? base = some mount
  selected : ∀ path e, Endpoint.find? mount path = some e ↔
    ∃ own ∈ Http.Paths.aliases e.path, path = place ++ own
  notFound : ∀ (s : Service) (m : Moment) (r : Http.Request) (st : State), s.mount = mount →
    (∀ e : Endpoint, ∀ own ∈ Http.Paths.aliases e.path, r.target.path ≠ place ++ own) →
    r.method ≠ "OPTIONS" → (s.exchange m r st).1.response.status = 404

theorem mounted_of_plain {base : String} (h : Http.PlainBase base) :
    ∃ place mount, Mounted base place mount := by
  obtain ⟨place, hplace, hbase⟩ := Http.Mount.ofBase?_of_plain h
  refine ⟨place, .ofPlace place, hplace, hbase, fun _ _ => find?_ofPlace, ?_⟩
  intro s m r st hmount hother hmethod
  apply status_of_find?_eq_none _ hmethod
  rw [hmount, Option.eq_none_iff_forall_ne_some]
  intro e he
  obtain ⟨own, hown, hpath⟩ := find?_ofPlace.1 he
  exact hother e own hown hpath

/-! ## Exchanges -/

/-- No handler looks at the path or at the mount point. -/
theorem handle_elsewhere (s : Service) (m : Moment) (e : Endpoint) (r : Http.Request) (st : State)
    (mount : Http.Mount) (path : String) :
    handle (s.mountedAt mount) m e (r.atPath path) st = handle s m e r st := by
  cases e <;> rfl

/-- Where a request is led to the same endpoint it is answered the same way. -/
theorem exchange_elsewhere {s : Service} {r : Http.Request} {mount : Http.Mount} {path : String}
    (h : Endpoint.find? mount path = Endpoint.find? s.mount r.target.path) (m : Moment) (st : State) :
    (s.mountedAt mount).exchange m (r.atPath path) st = s.exchange m r st := by
  have hroute : route (s.mountedAt mount) m (r.atPath path) st = route s m r st := by
    have hfind : Endpoint.find? (s.mountedAt mount).mount (r.atPath path).target.path =
        Endpoint.find? s.mount r.target.path := h
    have hmethod : (r.atPath path).method = r.method := rfl
    simp only [route, hfind, hmethod, handle_elsewhere]
  simp only [exchange, answer, hroute]
  rfl

/-- Whichever path leads a request to an endpoint, under whichever of two mount points, the response and the state
after it are the same. -/
def AnsweredAlike (place place' : String) (mount mount' : Http.Mount) : Prop :=
  ∀ (s : Service) (m : Moment) (r : Http.Request) (st : State) (e : Endpoint),
    ∀ own ∈ Http.Paths.aliases e.path, ∀ own' ∈ Http.Paths.aliases e.path,
      (s.mountedAt mount).exchange m (r.atPath (place ++ own)) st =
        (s.mountedAt mount').exchange m (r.atPath (place' ++ own')) st

theorem answeredAlike_of_mounted {base base' place place' : String} {mount mount' : Http.Mount}
    (h : Mounted base place mount) (h' : Mounted base' place' mount') :
    AnsweredAlike place place' mount mount' := by
  intro s m r st e own hown own' hown'
  have hfind := (h.selected _ e).2 ⟨own, hown, rfl⟩
  have hfind' := (h'.selected _ e).2 ⟨own', hown', rfl⟩
  exact exchange_elsewhere (s := s.mountedAt mount') (r := r.atPath (place' ++ own'))
    (hfind.trans hfind'.symm) m st

/-- Two plain bases are mounted, each at its place, and a request for an endpoint is answered alike on all of its
paths under both. -/
theorem bases_answer_alike (base base' : String) (h : Http.PlainBase base) (h' : Http.PlainBase base') :
    ∃ place place' mount mount', Mounted base place mount ∧ Mounted base' place' mount' ∧
      AnsweredAlike place place' mount mount' := by
  obtain ⟨place, mount, hmounted⟩ := mounted_of_plain h
  obtain ⟨place', mount', hmounted'⟩ := mounted_of_plain h'
  exact ⟨place, place', mount, mount', hmounted, hmounted', answeredAlike_of_mounted hmounted hmounted'⟩

/-- A base that is the prefix of older frontends does not get in the way of the paths behind it. -/
theorem bases_answer_alike_backend :
    Http.PlainBase "//backend/" ∧ Http.PlainBase "" ∧
    ∃ place place' mount mount', Mounted "//backend/" place mount ∧ Mounted "" place' mount' ∧
      AnsweredAlike place place' mount mount' := by
  have hbackend : Http.PlainBase "//backend/" := by decide
  have hroot : Http.PlainBase "" := by decide
  exact ⟨hbackend, hroot, bases_answer_alike "//backend/" "" hbackend hroot⟩

end Service
end Speedtest
