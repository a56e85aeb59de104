import LiveDiagram.Http.Gateway

/-!
# Routes

`Route.table` is the reference for routing: a method with a path is found in it, or it is not, and
then it matters whether the path is.  What stands behind the question mark is no part of the path.

## Main results

* `Request.route_eq`: routing is looking the table up.
* `Gateway.handle_congr`: only a download depends on more than method, path and body.
* `Gateway.snd_handle`: all that requests can change.
-/

namespace LiveDiagram

/-! ## Routing -/

/-- What every method asks for at every path. -/
def Route.table : List ((String × String) × Route) :=
  [(("GET", "/api/diagram"), .readDocument), (("PUT", "/api/diagram"), .writeDocument),
    (("GET", "/api/events"), .listen), (("GET", "/api/preferences"), .readPreferences),
    (("PUT", "/api/preferences"), .writePreferences), (("POST", "/api/download"), .download),
    (("POST", "/api/quit"), .quit)]

/-- The paths at which something can be asked for. -/
def Route.paths : List String :=
  Route.table.map (·.1.2)

theorem Route.lookup_table_eq_none {key : String × String} (h : key ∉ Route.table.map (·.1)) :
    Route.table.lookup key = none := by
  rw [List.lookup_eq_none_iff]
  intro entry hentry
  rw [bne_iff_ne]
  rintro rfl
  exact h (List.mem_map_of_mem (f := (·.1)) hentry)

theorem Route.lookup_table_eq_none_of_path {path : String} (h : path ∉ Route.paths)
    (method : String) : Route.table.lookup (method, path) = none := by
  apply Route.lookup_table_eq_none
  intro hkey
  obtain ⟨entry, hentry, heq⟩ := List.mem_map.mp hkey
  have hpath : entry.1.2 = path := congrArg Prod.snd heq
  exact h (hpath ▸ List.mem_map_of_mem (f := fun e => e.1.2) hentry)

theorem Route.lookup_table_eq_some_iff {key : String × String} {x : Route} :
    Route.table.lookup key = some x ↔ (key, x) ∈ Route.table := by
  constructor
  · intro h
    obtain ⟨before, after, hsplit, -⟩ := List.lookup_eq_some_iff.mp h
    rw [hsplit]
    exact List.mem_append_right _ List.mem_cons_self
  · intro h
    simp only [Route.table, List.mem_cons, Prod.mk.injEq, List.not_mem_nil, or_false] at h
    rcases h with ⟨rfl, rfl⟩ | ⟨rfl, rfl⟩ | ⟨rfl, rfl⟩ | ⟨rfl, rfl⟩ | ⟨rfl, rfl⟩ | ⟨rfl, rfl⟩ |
      ⟨rfl, rfl⟩ <;> decide

/-- Routing is looking the table up. -/
theorem Request.route_eq (r : Request) :
    r.route = (Route.table.lookup (r.method, r.path)).getD
      (if r.path ∈ Route.paths then .wrongMethod else .unknown) := by
  have hpair : ∀ a b c d : String, ((a, b) == (c, d)) = (a == c && b == d) := fun _ _ _ _ => rfl
  unfold Request.route Route.ofPath?
  generalize r.method = method
  generalize r.path = path
  by_cases h : path ∈ Route.paths
  · simp only [Route.paths, Route.table, List.map_cons, List.map_nil, List.mem_cons,
      List.not_mem_nil, or_false] at h
    rcases h with rfl | rfl | rfl | rfl | rfl | rfl | rfl <;>
      simp [Route.paths, Route.table, List.lookup_cons, hpair]
  · rw [if_neg h, Route.lookup_table_eq_none_of_path h]
    simp only [Route.paths, Route.table, List.map_cons, List.map_nil, List.mem_cons,
      List.not_mem_nil, or_false, not_or] at h
    simp [h]

theorem Request.route_eq_iff {r : Request} {x : Route} (hx : x ≠ .wrongMethod ∧ x ≠ .unknown) :
    r.route = x ↔ ((r.method, r.path), x) ∈ Route.table := by
  rw [r.route_eq, ← Route.lookup_table_eq_some_iff]
  cases Route.table.lookup (r.method, r.path) with
  | some y => simp
  | none =>
      by_cases hpath : r.path ∈ Route.paths
      · simp [hpath, Ne.symm hx.1]
      · simp [hpath, Ne.symm hx.2]

theorem Request.route_eq_unknown {r : Request} (h : r.path ∉ Route.paths) :
    r.route = .unknown := by
  rw [r.route_eq, Route.lookup_table_eq_none_of_path h, if_neg h]
  rfl

theorem Request.route_eq_wrongMethod {r : Request} (h : r.path ∈ Route.paths)
    (hmethod : (r.method, r.path) ∉ Route.table.map (·.1)) : r.route = .wrongMethod := by
  rw [r.route_eq, Route.lookup_table_eq_none hmethod, if_pos h]
  rfl

theorem Request.route_eq_writeDocument_iff {r : Request} :
    r.route = .writeDocument ↔ r.method = "PUT" ∧ r.path = "/api/diagram" := by
  rw [r.route_eq_iff (by decide)]
  simp [Route.table]

theorem Request.route_eq_writePreferences_iff {r : Request} :
    r.route = .writePreferences ↔ r.method = "PUT" ∧ r.path = "/api/preferences" := by
  rw [r.route_eq_iff (by decide)]
  simp [Route.table]

theorem Request.route_eq_readPreferences_iff {r : Request} :
    r.route = .readPreferences ↔ r.method = "GET" ∧ r.path = "/api/preferences" := by
  rw [r.route_eq_iff (by decide)]
  simp [Route.table]

theorem Request.route_eq_quit_iff {r : Request} :
    r.route = .quit ↔ r.method = "POST" ∧ r.path = "/api/quit" := by
  rw [r.route_eq_iff (by decide)]
  simp [Route.table]

theorem Request.route_eq_download_iff {r : Request} :
    r.route = .download ↔ r.method = "POST" ∧ r.path = "/api/download" := by
  rw [r.route_eq_iff (by decide)]
  simp [Route.table]

theorem Request.route_eq_listen_iff {r : Request} :
    r.route = .listen ↔ r.method = "GET" ∧ r.path = "/api/events" := by
  rw [r.route_eq_iff (by decide)]
  simp [Route.table]

theorem Request.route_eq_readDocument_iff {r : Request} :
    r.route = .readDocument ↔ r.method = "GET" ∧ r.path = "/api/diagram" := by
  rw [r.route_eq_iff (by decide)]
  simp [Route.table]

namespace Gateway

/-! ## What a request changes -/

/-- All that requests can change: most leave the gateway as it is. -/
theorem snd_handle {g : Gateway} (hopen : g.triggered = false) (r : Request) :
    (g.handle r).2 =
      match r.route with
      | .writeDocument => (g.writeDocument r.body).2
      | .listen => { g with store := g.store.subscribe.2 }
      | .writePreferences => (g.writePreferences r.body).2
      | .quit => { g with triggered := true }
      | _ => g := by
  unfold handle
  cases r.route <;> simp [hopen]

theorem handle_writeDocument {g : Gateway} {r : Request} (hopen : g.triggered = false)
    (hroute : r.route = .writeDocument) :
    g.handle r = (.response (g.writeDocument r.body).1, (g.writeDocument r.body).2) := by
  simp [handle, hopen, hroute]

theorem handle_listen {g : Gateway} {r : Request} (hopen : g.triggered = false)
    (hroute : r.route = .listen) :
    g.handle r = (.stream g.store.subscribe.1, { g with store := g.store.subscribe.2 }) := by
  simp [handle, hopen, hroute]

theorem handle_writePreferences {g : Gateway} {r : Request} (hopen : g.triggered = false)
    (hroute : r.route = .writePreferences) :
    g.handle r = (.response (g.writePreferences r.body).1, (g.writePreferences r.body).2) := by
  simp [handle, hopen, hroute]

theorem handle_readPreferences {g : Gateway} {r : Request} (hopen : g.triggered = false)
    (hroute : r.route = .readPreferences) : g.handle r = (.response g.readPreferences, g) := by
  simp [handle, hopen, hroute]

/-- Only a download looks at what stands behind the question mark. -/
theorem handle_congr (g : Gateway) {r r' : Request} (hmethod : r'.method = r.method)
    (hpath : r'.path = r.path) (hbody : r'.body = r.body)
    (hdownload : ¬ (r.method = "POST" ∧ r.path = "/api/download")) : g.handle r' = g.handle r := by
  have hroute : r'.route = r.route := by rw [r'.route_eq, r.route_eq, hmethod, hpath]
  have hother : r.route ≠ .download := fun h => hdownload (Request.route_eq_download_iff.mp h)
  unfold handle
  rw [hroute, hbody]
  split
  · rfl
  · split <;> first | rfl | skip
    next hcase => exact absurd hcase hother

end Gateway

end LiveDiagram
