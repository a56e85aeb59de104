import LiveDiagram.Proofs.Http.Run
import LiveDiagram.Proofs.Stream.Course

/-!
# The streams of a gateway

To each of its streams, all else that a gateway does is what others do around it: requests write and
subscribe, and the other streams use their own handles.  So a stream that a gateway opens is a
stream as `EventStream.Serving` has it, from the store that it was opened on, and the account of its
bytes and its events is the one given there.

This rests on ids being given once, so that no stream uses another's handle.  And since no request
takes an entry out of the registry, the entries are those of the streams that are open, one each,
and no stream is ever dismissed.

## Main results

* `EventStream.Does.exists_command`: a step of one stream, as the others see it.
* `Gateway.Run.attends_step`: what one request, or one step of a stream, keeps of all streams.
* `Gateway.Run.attends_of_reachable`: the streams of a gateway, and the registry they share.
* `Gateway.Run.count_of_reachable`: there are as many entries as open streams.
-/

namespace LiveDiagram

/-! ## A registry of handles that are held -/

/-- It has its entry and its handle, which go together. -/
def Subscription.Whole (s : Subscription) : Prop :=
  s.tied = true ∧ s.registered = true ∧ s.held = true

namespace Registry

/-- These are the subscriptions, in order, and all of them are whole. -/
structure Staffed (r : Registry) (ids : List SubscriptionId) : Prop where
  ids_eq : r.subscriptions.map (·.id) = ids
  whole : ∀ s ∈ r.subscriptions, s.Whole

variable {r : Registry} {ids : List SubscriptionId}

theorem Staffed.change (h : r.Staffed ids) {f : Subscription → Subscription}
    (hf : ∀ s : Subscription, s.Whole → (f s).id = s.id ∧ (f s).Whole) :
    (r.change f).Staffed ids := by
  have hsubscriptions : (r.change f).subscriptions = r.subscriptions.map f := by
    refine List.filter_eq_self.mpr fun t ht => ?_
    obtain ⟨s, hs, rfl⟩ := List.mem_map.mp ht
    rw [Subscription.isLive, (hf s (h.whole s hs)).2.2.1]
    rfl
  constructor
  · rw [hsubscriptions, List.map_map, ← h.ids_eq]
    exact List.map_congr_left fun s hs => (hf s (h.whole s hs)).1
  · rw [hsubscriptions]
    intro t ht
    obtain ⟨s, hs, rfl⟩ := List.mem_map.mp ht
    exact (hf s (h.whole s hs)).2

theorem Staffed.subscribe (h : r.Staffed ids) :
    (r.subscribe true).2.Staffed (ids ++ [r.nextId]) where
  ids_eq := by
    rw [← h.ids_eq]
    exact List.map_append
  whole s hs := by
    rcases List.mem_append.mp hs with hold | hnew
    · exact h.whole s hold
    · rw [List.mem_singleton.mp hnew]
      exact ⟨rfl, rfl, rfl⟩

theorem Staffed.broadcast (h : r.Staffed ids) (e : ChangeEvent) :
    (r.broadcast e).2.Staffed ids := by
  refine h.change fun s ⟨htied, hregistered, hheld⟩ => ?_
  unfold Subscription.afterOffer Subscription.offer
  by_cases hroom : s.queue.length < r.capacity <;>
    simp [Subscription.Whole, htied, hregistered, hheld, hroom]

theorem Staffed.receive (h : r.Staffed ids) (id : SubscriptionId) :
    (r.receive id).2.Staffed ids := by
  cases hfind : r.find? id with
  | none => rwa [receive_of_none hfind]
  | some s =>
      cases hqueue : s.queue with
      | nil => rwa [receive_of_nil hfind hqueue]
      | cons e rest =>
          rw [receive_of_cons hfind hqueue]
          refine h.change fun s hs => ?_
          split
          · exact ⟨rfl, hs⟩
          · exact ⟨rfl, hs⟩

/-- A subscription goes with its handle. -/
theorem Staffed.discard (h : r.Staffed ids) (id : SubscriptionId) :
    (r.discard id).Staffed (ids.filter (· ≠ id)) := by
  have hlive : ∀ s ∈ r.subscriptions,
      (if s.id = id then s.discard else s).isLive = decide (s.id ≠ id) := by
    intro s hs
    obtain ⟨htied, hregistered, -⟩ := h.whole s hs
    by_cases hid : s.id = id
    · simp [hid, Subscription.discard, Subscription.isLive, htied]
    · simp [hid, Subscription.isLive, hregistered]
  have hsubscriptions : (r.discard id).subscriptions = r.subscriptions.filter (·.id ≠ id) := by
    simp only [Registry.discard, changeAt, Registry.change, List.filter_map]
    refine (congrArg _ (List.filter_congr hlive)).trans ?_
    refine (List.map_congr_left fun s hs => ?_).trans (List.map_id _)
    exact if_neg (by simpa using (List.mem_filter.mp hs).2)
  constructor
  · rw [hsubscriptions, ← h.ids_eq, List.filter_map]
    rfl
  · rw [hsubscriptions]
    exact fun s hs => h.whole s (List.mem_of_mem_filter hs)

/-- Every one of these handles is found, with its entry. -/
theorem Staffed.exists_find? (h : r.Staffed ids) {id : SubscriptionId} (hid : id ∈ ids) :
    ∃ s, r.find? id = some s ∧ s.registered = true := by
  rw [← h.ids_eq] at hid
  obtain ⟨t, ht, rfl⟩ := List.mem_map.mp hid
  have hsome : (r.find? t.id).isSome := by
    rw [Registry.find?, List.find?_isSome]
    exact ⟨t, ht, by simp [(h.whole t ht).2.2]⟩
  obtain ⟨s, hs⟩ := Option.isSome_iff_exists.mp hsome
  exact ⟨s, hs, (h.whole s (List.mem_of_find?_eq_some hs)).2.1⟩

theorem Staffed.count_eq (h : r.Staffed ids) : r.count = ids.length := by
  rw [← h.ids_eq, List.length_map]
  exact List.countP_eq_length.mpr fun s hs => (h.whole s hs).2.1

end Registry

/-! ## A stream and all else -/

namespace EventStream

/-- The handle that a stream holds. -/
def Stage.holds? : Stage → Option SubscriptionId
  | .opening | .ended _ _ => none
  | .sending id _ | .waiting id | .leaving id _ => some id

/-- This is how far a stream can have come, among these surroundings. -/
def Stage.Served (stage : Stage) (s : Surroundings) : Prop :=
  ∃ store connection history, store.registry.WellFormed ∧
    Serving.Reachable store connection false ⟨s, stage, history⟩

section

variable {s s' : Surroundings} {stage stage' : Stage}

theorem served_opened {store : Store} (h : store.registry.WellFormed) (connection : Connection) :
    (Stage.opening.after (.subscribed store.registry.nextId)).Served
      ⟨store.subscribe.2, connection, false⟩ :=
  ⟨store, connection, _, h, [.stream false], rfl⟩

theorem Stage.Served.next (h : stage.Served s) {a : Serving.Request}
    (hstep : ∀ history, ∃ history', Serving.step ⟨s, stage, history⟩ a = ⟨s', stage', history'⟩) :
    stage'.Served s' := by
  obtain ⟨store, connection, history, hr, hreach⟩ := h
  obtain ⟨history', hnext⟩ := hstep history
  refine ⟨store, connection, history', hr, ?_⟩
  rw [← hnext]
  exact hreach.foldl [a]

theorem Stage.Served.others (h : stage.Served s) {c : Store.Command}
    (hspares : ∀ id ∈ stage.id?, c.Spares id) :
    stage.Served { s with store := (s.store.perform c).2 } :=
  h.next (a := .others c) fun _ => ⟨_, if_pos hspares⟩

theorem Stage.Served.cancelled (h : stage.Served s) {cancelled : Bool}
    (hcancelled : s.cancelled = true → cancelled = true) : stage.Served { s with cancelled } := by
  cases cancelled with
  | true => exact h.next (a := .cancel) fun _ => ⟨_, rfl⟩
  | false =>
      have hnot : s.cancelled = false := by simpa using hcancelled
      rw [← hnot]
      exact h

theorem Stage.Served.own (h : stage.Served s) {cancelFirst : Bool} {y : Step}
    (hperform : (stage.perform (Surroundings.host cancelFirst)).run s = (some y, s')) :
    (stage.after y).Served s' :=
  h.next (a := .stream cancelFirst) fun history =>
    ⟨.own y :: history, by simp only [Serving.step, hperform]⟩

/-- To others, a step of a stream is a command that uses the stream's handle only. -/
theorem Does.exists_command {y : Step} {id : SubscriptionId} (does : Does s stage y s' stage')
    (hid : stage.id? = some id)
    (hheld : stage.holds? = some id → (s.store.registry.find? id).isSome) :
    stage'.id? = some id ∧ ∃ c : Store.Command,
      (∀ other ≠ id, c.Spares other) ∧ s'.store = (s.store.perform c).2 := by
  have hstore := does.store_eq
  cases does with
  | subscribed => cases hid
  | @took own cancelFirst e store hlook =>
      obtain rfl : own = id := Option.some.inj hid
      refine ⟨rfl, .listen (.receive own), ?_, hstore⟩
      intro other hother
      simpa [Store.Command.Spares, Registry.Command.Spares] using Ne.symm hother
  | @released own why =>
      obtain rfl : own = id := Option.some.inj hid
      refine ⟨rfl, .listen (.discard own), ?_, ?_⟩
      · intro other hother
        simpa [Store.Command.Spares, Registry.Command.Spares] using Ne.symm hother
      · rw [hstore, Store.perform, Registry.perform, if_pos (hheld rfl)]
        rfl
  | _ => exact ⟨hid, .get, fun _ _ => trivial, hstore⟩

theorem Stage.id?_of_holds? {id : SubscriptionId} (h : stage.holds? = some id) :
    stage.id? = some id := by
  cases stage <;> first | exact h | cases h

theorem Does.cancelled_eq {y : Step} (does : Does s stage y s' stage') :
    s'.cancelled = s.cancelled := by
  cases does <;> rfl

/-- A stream keeps its handle until it releases it, and then its entry goes too. -/
theorem Does.staffed {y : Step} {ids : List SubscriptionId} (does : Does s stage y s' stage')
    (hopening : stage ≠ .opening) (h : s.store.registry.Staffed ids) :
    stage'.holds? = stage.holds? ∧ s'.store.registry.Staffed ids ∨
      ∃ id, stage.holds? = some id ∧ stage'.holds? = none ∧
        s'.store.registry.Staffed (ids.filter (· ≠ id)) := by
  have hstore := does.store_eq
  cases does with
  | subscribed => exact absurd rfl hopening
  | @took id cancelFirst e store hlook =>
      refine Or.inl ⟨rfl, ?_⟩
      rw [hstore]
      exact h.receive id
  | @released id why => exact Or.inr ⟨id, rfl, rfl, h.discard id⟩
  | _ =>
      refine Or.inl ⟨rfl, ?_⟩
      rw [hstore]
      exact h

/-- Who has an entry is not dismissed. -/
theorem look_ne_unsubscribed {store : Store} {id : SubscriptionId}
    (h : ∃ t, store.registry.find? id = some t ∧ t.registered = true)
    (cancelled cancelFirst : Bool) : (look store id cancelled cancelFirst).1 ≠ .unsubscribed := by
  obtain ⟨t, hfind, hregistered⟩ := h
  unfold look
  cases cancelled && cancelFirst
  · cases hqueue : t.queue with
    | nil =>
        rw [Registry.receive_of_nil hfind hqueue, hregistered]
        cases cancelled <;> simp
    | cons e rest =>
        rw [Registry.receive_of_cons hfind hqueue]
        simp
  · simp

theorem Does.end?_ne_unsubscribed {y : Step} (does : Does s stage y s' stage')
    (hentry : ∀ id, stage.holds? = some id →
      ∃ t, s.store.registry.find? id = some t ∧ t.registered = true)
    (h : stage.end? ≠ some .unsubscribed) : stage'.end? ≠ some .unsubscribed := by
  cases does with
  | @dismissed id cancelFirst store hlook =>
      have hkept := look_ne_unsubscribed (hentry id rfl) s.cancelled cancelFirst
      rw [hlook] at hkept
      exact absurd rfl hkept
  | released => exact h
  | _ => simp

end

end EventStream

theorem Store.wellFormed_perform {s : Store} (h : s.registry.WellFormed) (c : Store.Command) :
    (s.perform c).2.registry.WellFormed := by
  rw [registry_perform]
  exact Registry.wellFormed_performAll h _

theorem Store.nextId_le_perform (s : Store) (c : Store.Command) :
    s.registry.nextId ≤ (s.perform c).2.registry.nextId := by
  rw [registry_perform]
  exact Registry.nextId_le_performAll _ _

/-! ## All streams of a gateway -/

namespace Gateway

open EventStream (Connection Does Stage Surroundings)

/-- A request opens a stream, or to the store it is a write or nothing. -/
theorem handle_cases (g : Gateway) (r : Request) :
    (g.triggered = false ∧
      g.handle r = (.stream g.store.subscribe.1, { g with store := g.store.subscribe.2 })) ∨
    ((g.handle r).1.opened = [] ∧ ∃ c, (c = .get ∨ c = .write r.body) ∧
      (g.handle r).2.store = (g.store.perform c).2) := by
  by_cases hlisten : g.triggered = false ∧ r.route = .listen
  · exact Or.inl ⟨hlisten.1, handle_listen hlisten.1 hlisten.2⟩
  · have hopened : (g.handle r).1.opened = [] := by
      cases hopen : g.triggered
      · exact opened_handle fun h => hlisten ⟨hopen, Request.route_eq_listen_iff.mpr h⟩
      · rw [handle_triggered hopen]
        rfl
    refine Or.inr ⟨hopened, ?_⟩
    rw [store_handle]
    cases hwrite : Exchange.isWrite (r, (g.handle r).1)
    · exact ⟨.get, Or.inl rfl, Exchange.leaves_eq_self _ hwrite hopened⟩
    · refine ⟨.write r.body, Or.inr rfl, ?_⟩
      rw [Exchange.leaves, if_pos hwrite]

/-- What a gateway with these streams has. -/
structure Attends (g : Gateway) (streams : List (Stage × Connection)) : Prop where
  wellFormed : g.store.registry.WellFormed
  /-- The subscriptions are the handles that streams hold. -/
  staffed : g.store.registry.Staffed (streams.filterMap (·.1.holds?))
  issued : ∀ p ∈ streams, ∃ id, p.1.id? = some id ∧ id < g.store.registry.nextId
  distinct : (streams.map (·.1.id?)).Nodup
  served : ∀ p ∈ streams, p.1.Served ⟨g.store, p.2, g.triggered⟩
  /-- Nobody takes their entries out. -/
  kept : ∀ p ∈ streams, p.1.end? ≠ some .unsubscribed

section

variable {g : Gateway} {streams front back : List (Stage × Connection)}

theorem Attends.issued_perform (h : g.Attends streams) (c : Store.Command) :
    ∀ p ∈ streams, ∃ id, p.1.id? = some id ∧ id < (g.store.perform c).2.registry.nextId := by
  intro p hp
  obtain ⟨id, hid, hissued⟩ := h.issued p hp
  exact ⟨id, hid, Nat.lt_of_lt_of_le hissued (g.store.nextId_le_perform c)⟩

/-- A stream is opened. -/
theorem Attends.opened (h : g.Attends streams) (hopen : g.triggered = false)
    (connection : Connection) :
    Attends { g with store := g.store.subscribe.2 }
      (streams ++ [(Stage.opening.after (.subscribed g.store.subscribe.1), connection)]) where
  wellFormed := Registry.wellFormed_subscribe h.wellFormed true
  staffed := by
    rw [List.filterMap_append]
    exact h.staffed.subscribe
  issued := by
    intro p hp
    rcases List.mem_append.mp hp with hold | hnew
    · exact h.issued_perform (.listen (.subscribe true)) p hold
    · rw [List.mem_singleton.mp hnew]
      exact ⟨_, rfl, Nat.lt_succ_self _⟩
  distinct := by
    rw [List.map_append, List.map_singleton, List.nodup_append]
    refine ⟨h.distinct, List.nodup_singleton _, ?_⟩
    rintro _ hold _ hnew rfl
    obtain ⟨p, hp, hid⟩ := List.mem_map.mp hold
    obtain ⟨id, hid', hissued⟩ := h.issued p hp
    rw [hid', List.mem_singleton.mp hnew] at hid
    obtain rfl := Option.some.inj hid
    exact absurd hissued (Nat.lt_irrefl _)
  served := by
    intro p hp
    rcases List.mem_append.mp hp with hold | hnew
    · exact (h.served p hold).others (c := .listen (.subscribe true)) fun id _ => by
        simp [Store.Command.Spares, Registry.Command.Spares]
    · rw [List.mem_singleton.mp hnew, hopen]
      exact EventStream.served_opened h.wellFormed connection
  kept := by
    intro p hp
    rcases List.mem_append.mp hp with hold | hnew
    · exact h.kept p hold
    · rw [List.mem_singleton.mp hnew]
      simp [Stage.after]

/-- Any other request leaves the streams where they are. -/
theorem Attends.answered (h : g.Attends streams) {c : Store.Command} {body : Bytes}
    (hc : c = .get ∨ c = .write body) {g' : Gateway}
    (hstore : g'.store = (g.store.perform c).2)
    (htriggered : g.triggered = true → g'.triggered = true) : g'.Attends streams where
  wellFormed := by
    rw [hstore]
    exact Store.wellFormed_perform h.wellFormed c
  staffed := by
    rw [hstore]
    rcases hc with rfl | rfl
    · exact h.staffed
    · simp only [Store.perform]
      cases WriteRequest.parse body with
      | error cause => exact h.staffed
      | ok w => exact h.staffed.broadcast _
  issued := by
    rw [hstore]
    exact h.issued_perform c
  distinct := h.distinct
  served := by
    intro p hp
    have hspares : ∀ id ∈ p.1.id?, c.Spares id := by
      rcases hc with rfl | rfl <;> exact fun _ _ => trivial
    rw [hstore]
    exact ((h.served p hp).others hspares).cancelled htriggered
  kept := h.kept

theorem mem_middle_iff {p a : Stage × Connection} :
    p ∈ front ++ a :: back ↔ p = a ∨ p ∈ front ++ back :=
  List.perm_middle.mem_iff.trans List.mem_cons

/-- Who else is served has another id. -/
theorem Attends.ne_of_mem {stage : Stage} {connection : Connection} {id : SubscriptionId}
    (h : g.Attends (front ++ (stage, connection) :: back)) (hid : stage.id? = some id)
    {p : Stage × Connection} (hp : p ∈ front ++ back) : p.1.id? ≠ some id := by
  have hdistinct := h.distinct
  rw [List.map_append, List.map_cons, List.nodup_middle, List.nodup_cons,
    ← List.map_append] at hdistinct
  exact fun hsame => hdistinct.1 (List.mem_map.mpr ⟨p, hp, hsame.trans hid.symm⟩)

/-- The handles that are held after a stream has made a step. -/
theorem Attends.staffed_streamed {stage stage' : Stage} {connection : Connection}
    {y : EventStream.Step} {s : Surroundings}
    (h : g.Attends (front ++ (stage, connection) :: back)) (hopening : stage ≠ .opening)
    (does : Does ⟨g.store, connection, g.triggered⟩ stage y s stage') :
    s.store.registry.Staffed
      ((front ++ (stage', s.connection) :: back).filterMap (·.1.holds?)) := by
  rcases does.staffed hopening h.staffed with ⟨hholds, hstaffed⟩ | ⟨id, hholds, hnone, hstaffed⟩
  · rw [List.filterMap_append, List.filterMap_cons] at hstaffed ⊢
    rw [hholds]
    exact hstaffed
  · have hothers : ∀ l ⊆ front ++ back,
        (l.filterMap (·.1.holds?)).filter (· ≠ id) = l.filterMap (·.1.holds?) := by
      intro l hl
      refine List.filter_eq_self.mpr fun other hother => ?_
      obtain ⟨p, hp, hheld⟩ := List.mem_filterMap.mp hother
      have hne := h.ne_of_mem (EventStream.Stage.id?_of_holds? hholds) (hl hp)
      rw [EventStream.Stage.id?_of_holds? hheld] at hne
      simpa using hne
    rw [List.filterMap_append, List.filterMap_cons_some (a := (stage, connection)) hholds,
      List.filter_append, hothers front (List.subset_append_left _ _),
      List.filter_cons_of_neg (by simp), hothers back (List.subset_append_right _ _)] at hstaffed
    rw [List.filterMap_append, List.filterMap_cons_none (a := (stage', s.connection)) hnone]
    exact hstaffed

/-- A stream makes a step. -/
theorem Attends.streamed {stage : Stage} {connection : Connection} {cancelFirst : Bool}
    {y : EventStream.Step} {s : Surroundings}
    (h : g.Attends (front ++ (stage, connection) :: back))
    (hperform : (stage.perform (Surroundings.host cancelFirst)).run
      ⟨g.store, connection, g.triggered⟩ = (some y, s)) :
    Attends { g with store := s.store } (front ++ (stage.after y, s.connection) :: back) := by
  have does := EventStream.does_of_perform hperform
  have hown : (stage, connection) ∈ front ++ (stage, connection) :: back :=
    mem_middle_iff.mpr (Or.inl rfl)
  have hothers : ∀ p ∈ front ++ back, p ∈ front ++ (stage, connection) :: back := fun p hp =>
    mem_middle_iff.mpr (Or.inr hp)
  obtain ⟨id, hid, hissued⟩ := h.issued _ hown
  have hentry : ∀ i, stage.holds? = some i →
      ∃ t, g.store.registry.find? i = some t ∧ t.registered = true := fun i hholds =>
    h.staffed.exists_find? (List.mem_filterMap.mpr ⟨_, hown, hholds⟩)
  have hheld : stage.holds? = some id → (g.store.registry.find? id).isSome := by
    intro hholds
    obtain ⟨t, hfind, -⟩ := hentry id hholds
    rw [hfind]
    rfl
  obtain ⟨hid', c, hspares, hstore⟩ := does.exists_command hid hheld
  constructor
  case wellFormed =>
    rw [hstore]
    exact Store.wellFormed_perform h.wellFormed c
  case staffed =>
    refine h.staffed_streamed ?_ does
    rintro rfl
    cases hid
  case issued =>
    intro p hp
    rw [hstore]
    rcases mem_middle_iff.mp hp with rfl | hp
    · exact ⟨id, hid', Nat.lt_of_lt_of_le hissued (g.store.nextId_le_perform c)⟩
    · exact h.issued_perform c p (hothers p hp)
  case distinct =>
    have hdistinct := h.distinct
    rw [List.map_append, List.map_cons, hid] at hdistinct
    rw [List.map_append, List.map_cons, hid']
    exact hdistinct
  case served =>
    intro p hp
    rcases mem_middle_iff.mp hp with rfl | hp
    · have hcancelled : g.triggered = s.cancelled := does.cancelled_eq.symm
      rw [hcancelled]
      exact (h.served _ hown).own hperform
    · rw [hstore]
      refine (h.served p (hothers p hp)).others fun i hi => hspares i ?_
      rintro rfl
      exact h.ne_of_mem hid hp hi
  case kept =>
    intro p hp
    rcases mem_middle_iff.mp hp with rfl | hp
    · exact does.end?_ne_unsubscribed hentry (h.kept _ hown)
    · exact h.kept p (hothers p hp)

end

/-! ## Runs -/

theorem attends_new (initial : String) (buffer : Nat) (files : FileTree) (directory : Path) :
    (new (.new initial buffer) files directory).Attends [] := by
  constructor
  case wellFormed => exact Registry.wellFormed_empty buffer
  case staffed => exact ⟨rfl, fun _ hs => absurd hs List.not_mem_nil⟩
  case distinct => exact List.nodup_nil
  all_goals exact fun _ hp => absurd hp List.not_mem_nil

namespace Run

theorem exists_set_eq {streams : List (Stage × Connection)} {number : Nat} {p : Stage × Connection}
    (h : streams[number]? = some p) :
    ∃ front back, streams = front ++ p :: back ∧
      ∀ q, streams.set number q = front ++ q :: back := by
  obtain ⟨hlt, rfl⟩ := List.getElem?_eq_some_iff.mp h
  refine ⟨streams.take number, streams.drop (number + 1), ?_, fun q => ?_⟩
  · rw [List.getElem_cons_drop, List.take_append_drop]
  · rw [List.set_eq_take_append_cons_drop, if_pos hlt]

/-- Whatever happens keeps what a gateway has with its streams. -/
theorem attends_step {x : Run} (h : x.gateway.Attends x.streams) (a : Happening) :
    (x.step a).gateway.Attends (x.step a).streams := by
  cases a with
  | request r connection =>
      simp only [step]
      rcases x.gateway.handle_cases r with ⟨hopen, hhandle⟩ | ⟨hopened, c, hc, hstore⟩
      · rw [hhandle]
        exact h.opened hopen connection
      · rw [hopened, List.map_nil, List.append_nil]
        exact h.answered hc hstore fun htriggered =>
          (triggered_handle _ r).mpr (Or.inl htriggered)
  | stream number cancelFirst =>
      simp only [step]
      split
      · exact h
      · next stage connection hopened =>
          split
          · exact h
          · next y s hperform =>
              obtain ⟨front, back, hstreams, hset⟩ := exists_set_eq hopened
              rw [hset]
              rw [hstreams] at h
              exact h.streamed hperform

/-- **The streams of a gateway**, at any time after its start: each has come to where a stream can
come among others, holds a handle of its own until it has ended, and is never dismissed; and the
registry has one entry for each of these handles, and no other. -/
theorem attends_of_reachable {initial : String} {buffer : Nat} {files : FileTree} {directory : Path}
    {x : Run} (hx : Reachable (new (.new initial buffer) files directory) x) :
    x.gateway.Attends x.streams := by
  obtain ⟨schedule, rfl⟩ := hx
  induction schedule using List.reverseRecOn with
  | nil => exact attends_new initial buffer files directory
  | append_singleton past a ih =>
      rw [List.foldl_append]
      exact attends_step ih a

/-- There are as many entries as streams that have not ended. -/
theorem count_of_reachable {initial : String} {buffer : Nat} {files : FileTree} {directory : Path}
    {x : Run} (hx : Reachable (new (.new initial buffer) files directory) x) :
    x.gateway.store.registry.count = (x.streams.filterMap (·.1.holds?)).length :=
  (attends_of_reachable hx).staffed.count_eq

end Run

end Gateway

end LiveDiagram
