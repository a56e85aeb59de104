import LiveDiagram.Proofs.Document.Wire
import LiveDiagram.Proofs.Document.Writes
import LiveDiagram.Proofs.Http.Exchange

/-!
# Runs of the gateway

Requests come one after another, and between them the streams that were opened so far go on by steps of
their own.  Text and version are settled by the writes alone, however many streams are served: a stream
only takes events out of its queue and, at its end, its entry out of the registry.

## Main results

* `Run.step_moves`: all that can happen to a gateway with its streams.
* `Run.exists_counts`: the writes of a run, with their receipts and what they make of the document.
* `run_law`: the law of all runs.
-/

namespace LiveDiagram

namespace Gateway

open EventStream (Connection Does Stage Surroundings)

/-- What can happen next. -/
inductive Happening where
  /-- A request arrives, over this connection. -/
  | request (r : Request) (connection : Connection)
  /-- The stream with this number makes a step.  If it looks for what is ready, this says whether
  cancellation is served first. -/
  | stream (number : Nat) (cancelFirst : Bool)

/-- What came of it. -/
inductive Outcome where
  | answered (x : Exchange)
  | streamed (y : EventStream.Step)

/-- A gateway with the streams that it has opened, and with what happened, newest first. -/
structure Run where
  gateway : Gateway
  streams : List (Stage × Connection)
  history : List Outcome

namespace Run

/-- A gateway to which nothing has happened. -/
def start (g : Gateway) : Run := ⟨g, [], []⟩

/-- One thing that happens.  A request for the stream opens one, which goes on by its own steps. -/
def step (x : Run) : Happening → Run
  | .request r connection =>
    let (answer, gateway) := x.gateway.handle r
    ⟨gateway, x.streams ++ answer.opened.map (·, connection), .answered (r, answer) :: x.history⟩
  | .stream number cancelFirst =>
    match x.streams[number]? with
    | none => x
    | some (stage, connection) =>
      match (stage.perform (Surroundings.host cancelFirst)).run
          ⟨x.gateway.store, connection, x.gateway.triggered⟩ with
      | (none, _) => x
      | (some y, s) =>
        ⟨{ x.gateway with store := s.store }, x.streams.set number (stage.after y, s.connection),
          .streamed y :: x.history⟩

/-- All that can happen, with what came of it. -/
inductive Moves : Run → Outcome → Run → Prop where
  | answered (x : Run) (r : Request) (connection : Connection) :
      Moves x (.answered (r, (x.gateway.handle r).1))
        ⟨(x.gateway.handle r).2, x.streams ++ (x.gateway.handle r).1.opened.map (·, connection),
          .answered (r, (x.gateway.handle r).1) :: x.history⟩
  | streamed {x : Run} {number : Nat} {stage stage' : Stage} {connection : Connection}
      {y : EventStream.Step} {s : Surroundings}
      (opened : x.streams[number]? = some (stage, connection))
      (does : Does ⟨x.gateway.store, connection, x.gateway.triggered⟩ stage y s stage') :
      Moves x (.streamed y)
        ⟨{ x.gateway with store := s.store }, x.streams.set number (stage', s.connection),
          .streamed y :: x.history⟩

theorem step_moves (x : Run) (a : Happening) : x.step a = x ∨ ∃ y, Moves x y (x.step a) := by
  cases a with
  | request r connection => exact Or.inr ⟨_, .answered x r connection⟩
  | stream number cancelFirst =>
      simp only [step]
      split
      · exact Or.inl rfl
      · next hopened =>
          split
          · exact Or.inl rfl
          · next hperform =>
              exact Or.inr ⟨_, .streamed hopened (EventStream.does_of_perform hperform)⟩

/-- Gateways with their streams as systems that remember their moves. -/
def recorder : Recorder Run Happening Outcome where
  step := step
  history := history
  Moves := Moves
  step_moves := step_moves
  history_eq := by
    intro x y x' h
    cases h <;> rfl

/-- The states that a gateway can come to. -/
def Reachable (g : Gateway) (x : Run) : Prop :=
  recorder.Reachable (start g) x

/-! ## What a history tells -/

end Run

/-- The exchange that came of it, if a request did. -/
def Outcome.exchange? : Outcome → Option Exchange
  | .answered x => some x
  | .streamed _ => none

/-- What it leaves of the store. -/
def Outcome.leaves (s : Store) : Outcome → Store
  | .answered x => x.leaves s
  | .streamed y => y.leaves s

/-- The request that it is, if it is one. -/
def Happening.request? : Happening → Option Request
  | .request r _ => some r
  | .stream _ _ => none

namespace Run

/-- The requests so far, with their answers, in order. -/
def exchanges (h : List Outcome) : List Exchange :=
  h.reverse.filterMap Outcome.exchange?

/-- The writes that were carried out so far. -/
def written (h : List Outcome) : List Exchange :=
  (exchanges h).filter Exchange.isWrite

theorem exchanges_answered (x : Exchange) (h : List Outcome) :
    exchanges (.answered x :: h) = exchanges h ++ [x] := by
  rw [exchanges, List.reverse_cons, List.filterMap_append]
  rfl

theorem exchanges_streamed (y : EventStream.Step) (h : List Outcome) :
    exchanges (.streamed y :: h) = exchanges h := by
  rw [exchanges, List.reverse_cons, List.filterMap_append]
  exact List.append_nil _

theorem written_answered (x : Exchange) (h : List Outcome) :
    written (.answered x :: h) = if x.isWrite then written h ++ [x] else written h := by
  rw [written, exchanges_answered, List.filter_append, List.filter_singleton]
  cases x.isWrite <;> simp [written]

theorem written_streamed (y : EventStream.Step) (h : List Outcome) :
    written (.streamed y :: h) = written h := by
  rw [written, exchanges_streamed, written]

/-- Streams answer no requests. -/
theorem exchanges_step_stream (x : Run) (number : Nat) (cancelFirst : Bool) :
    exchanges (x.step (.stream number cancelFirst)).history = exchanges x.history := by
  simp only [step]
  split
  · rfl
  · split
    · rfl
    · exact exchanges_streamed _ _

/-- Every request is answered. -/
theorem requests_foldl (g : Gateway) (happenings : List Happening) :
    (exchanges (happenings.foldl step (start g)).history).map (·.1) =
      happenings.filterMap Happening.request? := by
  induction happenings using List.reverseRecOn with
  | nil => rfl
  | append_singleton past a ih =>
      rw [List.foldl_append, List.filterMap_append, ← ih]
      cases a with
      | request r connection =>
          rw [List.foldl_cons, List.foldl_nil, step, exchanges_answered, List.map_append]
          rfl
      | stream number cancelFirst =>
          rw [List.foldl_cons, List.foldl_nil, exchanges_step_stream]
          exact (List.append_nil _).symm

variable {g : Gateway} {x : Run}

theorem store_of_reachable (hx : Reachable g x) :
    x.gateway.store = x.history.foldr (fun y s => y.leaves s) g.store := by
  refine Recorder.run_induction (R := recorder)
    (P := fun x => x.gateway.store = x.history.foldr (fun y s => y.leaves s) g.store) rfl ?_ hx
  intro x y x' _ _ ih hmove
  cases hmove with
  | answered r connection =>
      rw [List.foldr_cons, ← ih]
      exact x.gateway.store_handle r
  | streamed opened does =>
      rw [List.foldr_cons, ← ih]
      exact does.store_eq

theorem triggered_of_reachable (hx : Reachable g x) :
    x.gateway.triggered = true ↔ g.triggered = true ∨
      ∃ q ∈ (exchanges x.history).map (·.1), q.method = "POST" ∧ q.path = "/api/quit" := by
  refine Recorder.run_induction (R := recorder)
    (P := fun x => x.gateway.triggered = true ↔ g.triggered = true ∨
      ∃ q ∈ (exchanges x.history).map (·.1), q.method = "POST" ∧ q.path = "/api/quit") ?_ ?_ hx
  · simp [start, exchanges]
  · intro x y x' _ _ ih hmove
    cases hmove with
    | answered r connection =>
        rw [triggered_handle, ih, exchanges_answered, or_assoc]
        simp [or_and_right, exists_or]
    | streamed opened does =>
        rw [exchanges_streamed]
        exact ih

/-- A step of a stream changes neither the document nor the files. -/
theorem frame_step_stream (x : Run) (number : Nat) (cancelFirst : Bool) :
    x.gateway.store.Unfed (x.step (.stream number cancelFirst)).gateway.store ∧
      (x.step (.stream number cancelFirst)).gateway.files = x.gateway.files ∧
      (x.step (.stream number cancelFirst)).gateway.triggered = x.gateway.triggered := by
  simp only [step]
  split
  · exact ⟨.refl _, rfl, rfl⟩
  · split
    · exact ⟨.refl _, rfl, rfl⟩
    · next hperform =>
        refine ⟨?_, rfl, rfl⟩
        rw [(EventStream.does_of_perform hperform).store_eq]
        exact EventStream.Step.unfed_leaves _ _

/-- The writes of a run, in order, and what they make of the document. -/
structure Counts (s : Store) (n : Nat) (x : Run) (ws : List WriteRequest) : Prop where
  bodies : (written x.history).map (fun e => WriteRequest.parse e.1.body) = ws.map .ok
  receipts : (written x.history).map (·.2) = (List.range ws.length).map
    (fun k => .response (.json (WriteReceipt.write ⟨Version.after (n + k + 1)⟩)))
  version : x.gateway.store.version = Version.after (n + ws.length)
  content : x.gateway.store.content = (ws.getLast?.map (·.content)).getD s.content
  /-- As long as no stream is opened, the store is these writes and nothing else. -/
  store : x.streams = [] → x.gateway.store = ws.foldl (fun s w => (s.apply w).2) s

/-- A request that writes counts. -/
theorem Counts.write {s : Store} {n : Nat} {ws : List WriteRequest} (h : Counts s n x ws)
    {r : Request} (connection : Connection)
    (hwrite : Exchange.isWrite (r, (x.gateway.handle r).1) = true) :
    ∃ w, Counts s n (x.step (.request r connection)) (ws ++ [w]) := by
  obtain ⟨w, hw, hreceipt, hstore⟩ := receipt_of_isWrite hwrite
  have hnext : x.gateway.store.version.next = Version.after (n + ws.length + 1) := by
    rw [h.version, Version.next_after]
  refine ⟨w, ?_, ?_, ?_, ?_, ?_⟩
  · rw [step, written_answered, if_pos hwrite, List.map_append, List.map_append, h.bodies]
    exact congrArg (ws.map .ok ++ [·]) hw
  · rw [step, written_answered, if_pos hwrite, List.map_append, h.receipts, List.length_append,
      List.length_singleton, List.range_succ, List.map_append, List.map_singleton, hreceipt, hnext]
    rfl
  · rw [step, hstore, List.length_append]
    exact hnext
  · rw [step, hstore, List.getLast?_append]
    rfl
  · intro hstreams
    rw [step, hstore, List.foldl_append, ← h.store (List.append_eq_nil_iff.mp hstreams).1]
    rfl

/-- What does not write counts for nothing. -/
theorem Counts.unfed {s : Store} {n : Nat} {ws : List WriteRequest} (h : Counts s n x ws) {x' : Run}
    (hwritten : written x'.history = written x.history)
    (hsnapshot : x'.gateway.store.snapshot = x.gateway.store.snapshot)
    (hstreams : x'.streams = [] → x.streams = [] ∧ x'.gateway.store = x.gateway.store) :
    Counts s n x' ws := by
  obtain ⟨hcontent, hversion⟩ := Snapshot.mk.inj hsnapshot
  refine ⟨?_, ?_, hversion.trans h.version, hcontent.trans h.content, ?_⟩
  · rw [hwritten]
    exact h.bodies
  · rw [hwritten]
    exact h.receipts
  · intro hnone
    obtain ⟨hbefore, hsame⟩ := hstreams hnone
    exact hsame.trans (h.store hbefore)

theorem exists_counts {n : Nat} (hversion : g.store.version = Version.after n)
    (hx : Reachable g x) : ∃ ws, Counts g.store n x ws := by
  refine Recorder.run_induction (R := recorder) (P := fun x => ∃ ws, Counts g.store n x ws) ?_ ?_ hx
  · exact ⟨[], rfl, rfl, hversion, rfl, fun _ => rfl⟩
  · rintro x y x' - - ⟨ws, hws⟩ hmove
    cases hmove with
    | answered r connection =>
        cases hwrite : Exchange.isWrite (r, (x.gateway.handle r).1)
        · refine ⟨ws, hws.unfed ?_ ?_ ?_⟩
          · rw [written_answered, hwrite]
            rfl
          · rw [store_handle]
            exact (Exchange.unfed_leaves _ hwrite).1
          · intro hnone
            obtain ⟨hbefore, hopened⟩ := List.append_eq_nil_iff.mp hnone
            refine ⟨hbefore, ?_⟩
            rw [store_handle]
            exact Exchange.leaves_eq_self _ hwrite (List.map_eq_nil_iff.mp hopened)
        · obtain ⟨w, hw⟩ := hws.write connection hwrite
          exact ⟨ws ++ [w], hw⟩
    | streamed opened does =>
        refine ⟨ws, hws.unfed (written_streamed _ _) ?_ ?_⟩
        · rw [does.store_eq]
          exact (EventStream.Step.unfed_leaves _ _).1
        · intro hnone
          rw [List.set_eq_nil_iff] at hnone
          rw [hnone] at opened
          cases opened

end Run

/-- Reading the document gives a text that holds its content and its version. -/
theorem handle_readDocument {g : Gateway} {r : Request} (hopen : g.triggered = false)
    (hroute : r.route = .readDocument) :
    (g.handle r).1 = .response (.json g.store.snapshot.write) := by
  simp [handle, hopen, hroute]

/-- Only a request for the stream opens one. -/
theorem opened_handle {g : Gateway} {r : Request}
    (h : ¬ (r.method = "GET" ∧ r.path = "/api/events")) : (g.handle r).1.opened = [] := by
  rw [← Request.route_eq_listen_iff] at h
  cases hopen : g.triggered
  · cases hroute : r.route with
    | listen => exact absurd hroute h
    | _ => simp [handle, hopen, hroute, Answer.opened]
  · rw [handle_triggered hopen]
    rfl

/-- **The law of all runs** of a gateway that was started with a text nobody wrote yet, with
whatever registry and whatever files, and to which whatever has happened:

* every request was answered;
* the writes that were answered as carried out have bodies that ask for a write; the text is that of
  the last of them, or the one at the start; and if no stream was opened, the store is these writes and
  nothing else;
* the version counts them, and each was answered with the version it gave;
* the store is what the exchanges and the steps of streams leave of it, one after the other;
* the gateway was told to stop exactly if one of the requests said so.

And whatever request comes next:

* once the gateway was told to stop, it is turned away and changes nothing;
* reading the document gives a text that reads as the content and the version of the moment;
* a request for the stream opens one, over a new subscription with an empty queue;
* a path that is not in the table is not found, and a method that is not in the table for its path
  is not allowed;
* a request that is not answered as a write carried out leaves text and version as they are and feeds
  no queue, and unless it opens a stream it leaves the whole store as it is; one that is answered so is
  one write;
* a request that is not answered as a save done changes no file;
* the answer, and all that the request changes, depend on the method, the path and the body alone,
  unless it is a download.

Whatever step a stream makes next, it leaves text, version and files as they are, and feeds no queue. -/
theorem run_law (initial : String) (registry : Registry) (files : FileTree) (directory : Path)
    (happenings : List Happening) :
    let start := Gateway.new ⟨initial, .initial, registry⟩ files directory
    let run := happenings.foldl Run.step (.start start)
    let g := run.gateway
    let written := Run.written run.history
    (Run.exchanges run.history).map (·.1) = happenings.filterMap Happening.request? ∧
    (∃ ws : List WriteRequest,
      written.map (fun e => WriteRequest.parse e.1.body) = ws.map .ok ∧
      g.store.content = (ws.getLast?.map (·.content)).getD initial ∧
      (run.streams = [] → g.store = ws.foldl (fun s w => (s.apply w).2) start.store)) ∧
    g.store.version = Version.after written.length ∧
    written.map (·.2) = (List.range written.length).map
      (fun k => .response (.json (WriteReceipt.write ⟨Version.after (k + 1)⟩))) ∧
    (written.length + 1 < UInt64.size →
      ∀ k ≤ written.length, (Version.after k).number.toNat = k + 1) ∧
    g.store = run.history.foldr (fun y s => y.leaves s) start.store ∧
    (g.triggered = true ↔ ∃ q ∈ happenings.filterMap Happening.request?,
      q.method = "POST" ∧ q.path = "/api/quit") ∧
    (∀ r : Request,
      let x := (g.handle r).1
      let g' := (g.handle r).2
      (g.triggered = true → x = .response (.ofStatus 503) ∧ g' = g) ∧
      (g.triggered = false →
        (r.method = "GET" → r.path = "/api/diagram" →
          x = .response (.json g.store.snapshot.write) ∧
          Json.Value.parse g.store.snapshot.write = .ok (.object
            [("content", .string g.store.content),
              ("version", .number (.integer g.store.version.number.toNat))])) ∧
        (r.method = "GET" → r.path = "/api/events" →
          x = .stream g.store.registry.nextId ∧ g'.store.registry.subscriptions =
            g.store.registry.subscriptions ++ [⟨g.store.registry.nextId, true, true, true, []⟩]) ∧
        (r.path ∉ Route.paths → x = .response (.text 404 "404 Not Found")) ∧
        (r.path ∈ Route.paths → (r.method, r.path) ∉ Route.table.map (·.1) →
          x = .response (.text 405 "405 Method Not Allowed"))) ∧
      (Exchange.isWrite (r, x) = false → g.store.Unfed g'.store) ∧
      (Exchange.isWrite (r, x) = false → ¬ (r.method = "GET" ∧ r.path = "/api/events") →
        g'.store = g.store) ∧
      (Exchange.isWrite (r, x) = true → ∃ w, WriteRequest.parse r.body = .ok w ∧
        g'.store = (g.store.apply w).2) ∧
      (Exchange.isSave (r, x) = false → g'.files.contents = g.files.contents) ∧
      (∀ r', r'.method = r.method → r'.path = r.path → r'.body = r.body →
        ¬ (r.method = "POST" ∧ r.path = "/api/download") → g.handle r' = g.handle r)) ∧
    (∀ number cancelFirst,
      let g' := (run.step (.stream number cancelFirst)).gateway
      g.store.Unfed g'.store ∧ g'.files = g.files ∧ g'.triggered = g.triggered) := by
  intro start run g written
  have hreachable : Run.Reachable start run := ⟨happenings, rfl⟩
  have hopen : start.triggered = false := rfl
  obtain ⟨ws, hws⟩ := Run.exists_counts (n := 0) Version.after_zero.symm hreachable
  have hlength : written.length = ws.length := by
    simpa using congrArg List.length hws.bodies
  have hrequests := Run.requests_foldl start happenings
  have htriggered := Run.triggered_of_reachable hreachable
  rw [hopen, hrequests] at htriggered
  refine ⟨hrequests, ⟨ws, hws.bodies, hws.content, hws.store⟩, ?_, ?_, ?_,
    Run.store_of_reachable hreachable, by simpa using htriggered, ?_, ?_⟩
  · rw [hlength]
    simpa using hws.version
  · rw [hlength]
    simpa using hws.receipts
  · intro hfits k hk
    exact Version.toNat_after (by omega)
  · intro r x g'
    refine ⟨?_, ?_, ?_, ?_, ?_, contents_handle, ?_⟩
    · intro hstopped
      simp only [x, g', handle_triggered hstopped, and_self]
    · intro hopen
      refine ⟨?_, ?_, ?_, ?_⟩
      · intro hmethod hpath
        exact ⟨handle_readDocument hopen (Request.route_eq_readDocument_iff.mpr ⟨hmethod, hpath⟩),
          Snapshot.parse_write g.store.snapshot⟩
      · intro hmethod hpath
        have hlisten := handle_listen hopen (Request.route_eq_listen_iff.mpr ⟨hmethod, hpath⟩)
        simp only [x, g', hlisten]
        exact ⟨rfl, rfl⟩
      · intro hpath
        simp [x, handle, hopen, Request.route_eq_unknown hpath]
      · intro hpath hmethod
        simp [x, handle, hopen, Request.route_eq_wrongMethod hpath hmethod]
    · intro hwrite
      simp only [g', store_handle]
      exact Exchange.unfed_leaves _ hwrite
    · intro hwrite hlisten
      simp only [g', store_handle]
      exact Exchange.leaves_eq_self _ hwrite (opened_handle hlisten)
    · intro hwrite
      obtain ⟨w, hw, -, hset⟩ := receipt_of_isWrite hwrite
      exact ⟨w, hw, hset⟩
    · intro r' hmethod hpath hbody hdownload
      exact g.handle_congr hmethod hpath hbody hdownload
  · exact fun number cancelFirst => run.frame_step_stream number cancelFirst

/-- A write, a listener, another write, and what the listener's stream does until it waits again. -/
def listenerSession : List Happening :=
  let client : Connection := ⟨none, fun _ => none, fun _ => false, [], 0, 0⟩
  let put (body : String) : Happening := .request ⟨"PUT", "/api/diagram", Utf8.encode body⟩ client
  let go : Happening := .stream 0 false
  [put "\x7b\"content\": \"a\"\x7d", .request ⟨"GET", "/api/events?from=1", []⟩ client,
    put "\x7b\"content\": \"b\"\x7d", go, go, go, go, go]

/-- Where that leads, with room for sixteen events. -/
def withListener : Run :=
  listenerSession.foldl Run.step (.start (.new (.new "" 16) .empty ⟨["", "state"]⟩))

/-- Two writes and a listener between them, who is sent the second; reading gives what that left. -/
theorem run_law_with_listener :
    (Run.exchanges withListener.history).map (·.2) =
      [.response (.json (Utf8.encode "\x7b\"version\":2\x7d")), .stream 1,
        .response (.json (Utf8.encode "\x7b\"version\":3\x7d"))] ∧
    withListener.streams.map (·.2.received) = [Utf8.encode
      ("HTTP/1.1 200 OK\r\nContent-Type: text/event-stream\r\n" ++
        "Cache-Control: no-cache\r\nConnection: close\r\n\r\n" ++
        "data: \x7b\"content\":\"b\",\"source\":\"api\",\"version\":3\x7d\n\n")] ∧
    withListener.gateway.store.version = Version.after 2 ∧
    (∃ text, (withListener.gateway.handle ⟨"GET", "/api/diagram?again", []⟩).1 = .response (.json text) ∧
      Json.Value.parse text = .ok (.object
        [("content", .string "b"), ("version", .number (.integer 3))])) ∧
    (withListener.gateway.handle ⟨"GET", "/api/diagrams", []⟩).1 =
      .response (.text 404 "404 Not Found") ∧
    withListener.gateway.store.Unfed (withListener.step (.stream 0 false)).gateway.store := by
  obtain ⟨-, -, hcount, -, -, -, -, hnext, hstream⟩ :=
    run_law "" (.empty 16) .empty ⟨["", "state"]⟩ listenerSession
  have hopen : withListener.gateway.triggered = false := by decide +kernel
  have hcontent : withListener.gateway.store.content = "b" := by decide +kernel
  have hwritten : (Run.written withListener.history).length = 2 := by decide +kernel
  have hversion : withListener.gateway.store.version = Version.after 2 :=
    hcount.trans (congrArg Version.after hwritten)
  have hread := (hnext ⟨"GET", "/api/diagram?again", []⟩).2.1 hopen
  obtain ⟨hanswer, hparse⟩ := hread.1 rfl (by decide +kernel)
  have hthird : (withListener.gateway.store.version.number.toNat : Int) = 3 := by
    rw [hversion]
    decide
  have hother := (hnext ⟨"GET", "/api/diagrams", []⟩).2.1 hopen
  refine ⟨by decide +kernel, by decide +kernel, hversion, ⟨_, hanswer, ?_⟩,
    hother.2.2.1 (by decide +kernel), (hstream 0 false).1⟩
  rw [← hcontent, ← hthird]
  exact hparse

end Gateway

end LiveDiagram
