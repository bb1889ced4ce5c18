import Mathlib.Data.List.Basic

/-!
# Routers built from routes, layers and merges

A router hands a request to the first route that accepts it.  A layer wraps the
services that are in the router when it is added, and no route that comes later:
what is merged in afterwards keeps its own layers only (`serviceFor_layer_merge`).
-/

namespace LayeredRouter

/-- A path with what answers there. -/
structure Route (Req Resp : Type) where
  accepts : Req → Bool
  service : Req → Resp

structure Router (Req Resp : Type) where
  routes : List (Route Req Resp)

namespace Router

variable {Req Resp : Type}

/-- No routes yet. -/
def new : Router Req Resp :=
  ⟨[]⟩

def route (r : Router Req Resp) (accepts : Req → Bool) (service : Req → Resp) :
    Router Req Resp :=
  ⟨r.routes ++ [⟨accepts, service⟩]⟩

/-- Wrap what is there. -/
def layer (r : Router Req Resp) (wrap : (Req → Resp) → Req → Resp) : Router Req Resp :=
  ⟨r.routes.map fun route => { route with service := wrap route.service }⟩

/-- Take over the routes of another router. -/
def merge (r other : Router Req Resp) : Router Req Resp :=
  ⟨r.routes ++ other.routes⟩

/-- The service a request is handed to, if some route accepts it. -/
def serviceFor (r : Router Req Resp) (req : Req) : Option (Req → Resp) :=
  (r.routes.find? (·.accepts req)).map Route.service

/-- What the router answers, `notFound` being the answer where it has no route. -/
def dispatch (r : Router Req Resp) (notFound : Req → Resp) (req : Req) : Resp :=
  (r.serviceFor req).getD notFound req

/-- Some route accepts the request. -/
def Handles (r : Router Req Resp) (req : Req) : Prop :=
  ∃ route ∈ r.routes, route.accepts req = true

section Laws

variable {r other : Router Req Resp} {req : Req} {wrap : (Req → Resp) → Req → Resp}
  {accepts : Req → Bool} {service : Req → Resp}

@[simp] theorem not_handles_new : ¬ (new : Router Req Resp).Handles req := by
  rintro ⟨route, hroute, _⟩
  cases hroute

@[simp] theorem handles_route :
    (r.route accepts service).Handles req ↔ r.Handles req ∨ accepts req = true := by
  simp [Handles, route, or_and_right, exists_or]

/-- A layer adds no route. -/
@[simp] theorem handles_layer : (r.layer wrap).Handles req ↔ r.Handles req := by
  simp [Handles, layer]

theorem find?_eq_none_of_not_handles (h : ¬ r.Handles req) :
    r.routes.find? (·.accepts req) = none := by
  rw [List.find?_eq_none]
  intro route hroute haccepts
  exact h ⟨route, hroute, haccepts⟩

theorem exists_find?_of_handles (h : r.Handles req) :
    ∃ route, r.routes.find? (·.accepts req) = some route := by
  obtain ⟨route, hroute, haccepts⟩ := h
  have hsome : (r.routes.find? (·.accepts req)).isSome = true :=
    List.find?_isSome.mpr ⟨route, hroute, haccepts⟩
  exact Option.isSome_iff_exists.mp hsome

/-- A merged router answers for its own routes. -/
theorem serviceFor_merge (hleft : ¬ r.Handles req) :
    (r.merge other).serviceFor req = other.serviceFor req := by
  have hfind : (r.merge other).routes.find? (·.accepts req) =
      other.routes.find? (·.accepts req) := by
    rw [merge, List.find?_append, find?_eq_none_of_not_handles hleft]
    rfl
  rw [serviceFor, serviceFor, hfind]

/-- **A layer does not cover what is merged in after it.** -/
theorem serviceFor_layer_merge (hleft : ¬ r.Handles req) :
    ((r.layer wrap).merge other).serviceFor req = other.serviceFor req :=
  serviceFor_merge fun h => hleft (handles_layer.mp h)

/-- A route answers what it accepts, unless an earlier one does. -/
theorem serviceFor_route (hnone : ¬ r.Handles req) (haccepts : accepts req = true) :
    (r.route accepts service).serviceFor req = some service := by
  have hfind : (r.route accepts service).routes.find? (·.accepts req) =
      some ⟨accepts, service⟩ := by
    rw [route, List.find?_append, find?_eq_none_of_not_handles hnone]
    simp [haccepts]
  rw [serviceFor, hfind]
  rfl

/-- An earlier route keeps its requests. -/
theorem serviceFor_route_of_handles (h : r.Handles req) :
    (r.route accepts service).serviceFor req = r.serviceFor req := by
  obtain ⟨found, hfound⟩ := exists_find?_of_handles h
  have hfind : (r.route accepts service).routes.find? (·.accepts req) = some found := by
    rw [route, List.find?_append, hfound]
    rfl
  rw [serviceFor, serviceFor, hfind, hfound]

end Laws

end Router

end LayeredRouter
