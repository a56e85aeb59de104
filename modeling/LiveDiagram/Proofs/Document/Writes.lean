import Mathlib.Data.List.Nodup
import LiveDiagram.Proofs.Document.Interleaving

/-!
# The writes of a history

Two invariants tie the state of a shared store to its whole history.  `Coherent` is about the text:
the writes are numbered in the order of their commits, the store holds the last of them, and every
read saw one of them or the text the store started with.  `Accounted` is about the sets: whatever was
committed has been announced once or is still underway.

Both hold whatever the number of writes.  Only the comparison of versions asks for less than a word
can count, since the version after the greatest word is zero again.

## Main results

* `coherent_of_reachable`, `accounted_of_reachable`: both hold after every schedule.
* `ordered_of_reachable`: a read never sees less than was known before it.
-/

namespace LiveDiagram

/-! ## Numbering -/

/-- The version after this many writes. -/
def Version.after (n : Nat) : Version := ⟨UInt64.ofNat (n + 1)⟩

theorem Version.after_zero : Version.after 0 = Version.initial := rfl

theorem Version.next_after (n : Nat) : (Version.after n).next = Version.after (n + 1) := by
  simp only [Version.after, Version.next, UInt64.ofNat_add]
  rfl

theorem Version.toNat_after {n : Nat} (hn : n + 1 < UInt64.size) :
    (Version.after n).number.toNat = n + 1 :=
  UInt64.toNat_ofNat_of_lt' hn

theorem Version.after_le_after {m n : Nat} (hmn : m ≤ n) (hn : n + 1 < UInt64.size) :
    (Version.after m).number ≤ (Version.after n).number := by
  rw [UInt64.le_iff_toNat_le, Version.toNat_after hn, Version.toNat_after (by omega)]
  exact Nat.succ_le_succ hmn

namespace Shared

/-! ## Reading a history -/

/-- The set that a step committed. -/
def Step.write? : Step → Option Write
  | .commit w => some w
  | _ => none

/-- The event that a step announced. -/
def Step.announced? : Step → Option ChangeEvent
  | .announce e _ => some e
  | _ => none

/-- The version that is known once a step is taken. -/
def Step.known? : Step → Option Version
  | .commit w => some w.version
  | .announce e _ => some e.version
  | .get seen => some seen.version
  | .version seen => some seen
  | .listen _ _ => none

/-- The version that a step read. -/
def Step.read? : Step → Option Version
  | .get seen => some seen.version
  | .version seen => some seen
  | _ => none

/-- The sets of a history, in the order of their commits. -/
def writes (h : History) : List Write :=
  h.filterMap fun y => y.2.write?

/-- The events announced in a history, in the order of their announcements; each ends its set. -/
def announced (h : History) : List ChangeEvent :=
  h.filterMap fun y => y.2.announced?

/-- What one thread did. -/
def ofThread (t : Thread) (h : History) : History :=
  h.filter fun y => y.1 = t

theorem Moves.writes_eq {x x' : Shared} {y : Thread × Step} (h : Moves x y x') :
    writes x'.history = writes x.history ++ y.2.write?.toList := by
  rw [h.history_eq, writes, List.filterMap_append]
  rfl

theorem Moves.announced_eq {x x' : Shared} {y : Thread × Step} (h : Moves x y x') :
    announced x'.history = announced x.history ++ y.2.announced?.toList := by
  rw [h.history_eq, announced, List.filterMap_append]
  rfl

theorem mem_writes_iff {h : History} {w : Write} :
    w ∈ writes h ↔ ∃ t, (t, Step.commit w) ∈ h := by
  rw [writes, List.mem_filterMap]
  constructor
  · rintro ⟨⟨t, y⟩, hy, hw⟩
    cases y <;> cases hw
    exact ⟨t, hy⟩
  · rintro ⟨t, ht⟩
    exact ⟨_, ht, rfl⟩

theorem mem_announced_iff {h : History} {e : ChangeEvent} :
    e ∈ announced h ↔ ∃ t offers, (t, Step.announce e offers) ∈ h := by
  rw [announced, List.mem_filterMap]
  constructor
  · rintro ⟨⟨t, y⟩, hy, he⟩
    cases y <;> cases he
    exact ⟨t, _, hy⟩
  · rintro ⟨t, offers, ht⟩
    exact ⟨_, ht, rfl⟩

/-! ## The text -/

/-- What the store holds once these writes are done. -/
def latest (initial : String) (ws : List Write) : Snapshot :=
  (ws.getLast?.map Write.snapshot).getD ⟨initial, .initial⟩

theorem latest_concat (initial : String) (ws : List Write) (w : Write) :
    latest initial (ws ++ [w]) = w.snapshot := by
  simp [latest]

/-- The last write, or what was there before any. -/
theorem latest_cases (initial : String) (ws : List Write) :
    ws = [] ∧ latest initial ws = ⟨initial, .initial⟩ ∨
      ∃ w ∈ ws, latest initial ws = w.snapshot := by
  cases hlast : ws.getLast? with
  | none => exact Or.inl ⟨List.getLast?_eq_none_iff.mp hlast, by simp [latest, hlast]⟩
  | some w => exact Or.inr ⟨w, List.mem_of_getLast? hlast, by simp [latest, hlast]⟩

/-- The text and its history agree. -/
structure Coherent (initial : String) (x : Shared) : Prop where
  version : x.store.version = .after (writes x.history).length
  versions : (writes x.history).map (·.version) =
    (List.range (writes x.history).length).map fun k => .after (k + 1)
  snapshot : x.store.snapshot = latest initial (writes x.history)
  seen : ∀ t s, (t, Step.get s) ∈ x.history →
    s = ⟨initial, .initial⟩ ∨ ∃ w ∈ writes x.history, s = w.snapshot

/-- A move that commits nothing leaves the text alone. -/
theorem Moves.document_eq {x x' : Shared} {y : Thread × Step} (h : Moves x y x')
    (hy : y.2.write? = none) :
    x'.store.version = x.store.version ∧ x'.store.snapshot = x.store.snapshot := by
  cases h with
  | commit => cases hy
  | _ => exact ⟨rfl, rfl⟩

theorem Coherent.move {initial : String} {x x' : Shared} {y : Thread × Step}
    (hc : Coherent initial x) (h : Moves x y x') : Coherent initial x' := by
  cases hw : y.2.write? with
  | some w =>
      have hwrites : writes x'.history = writes x.history ++ [w] := by rw [h.writes_eq, hw]; rfl
      cases h with
      | commit t content source idle =>
          cases hw
          have hversion : x.store.version.next = .after ((writes x.history).length + 1) := by
            rw [hc.version, Version.next_after]
          constructor
          · rw [hwrites, List.length_append]
            exact hversion
          · rw [hwrites, List.map_append, hc.versions, List.length_append, List.length_singleton,
              List.range_succ, List.map_append]
            exact congrArg _ (congrArg (· :: []) hversion)
          · rw [hwrites, latest_concat]
            rfl
          · intro s v hv
            rw [(Moves.commit x t content source idle).history_eq] at hv
            rcases List.mem_append.mp hv with hold | hnew
            · rw [hwrites]
              refine (hc.seen s v hold).imp_right ?_
              rintro ⟨w, hmem, rfl⟩
              exact ⟨w, List.mem_append_left _ hmem, rfl⟩
            · cases List.mem_singleton.mp hnew
      | _ => cases hw
  | none =>
      have hwrites : writes x'.history = writes x.history := by
        rw [h.writes_eq, hw]
        exact List.append_nil _
      obtain ⟨hversion, hsnapshot⟩ := h.document_eq hw
      constructor
      · rw [hversion, hwrites, hc.version]
      · rw [hwrites, hc.versions]
      · rw [hsnapshot, hwrites, hc.snapshot]
      · intro s v hv
        rw [hwrites]
        rw [h.history_eq] at hv
        rcases List.mem_append.mp hv with hold | hnew
        · exact hc.seen s v hold
        · obtain rfl := List.mem_singleton.mp hnew
          cases h with
          | get =>
              rw [hc.snapshot]
              exact (latest_cases initial (writes x.history)).imp_left And.right

theorem coherent_of_reachable {initial : String} {buffer : Nat} {x : Shared}
    (hx : Reachable initial buffer x) : Coherent initial x := by
  refine Recorder.run_induction (R := recorder) ?_ (fun x y x' _ _ hc h => hc.move h) hx
  exact ⟨rfl, rfl, rfl, fun t s h => by cases h⟩

/-! ## The sets -/

/-- Whatever was committed has been announced once or is still underway. -/
structure Accounted (x : Shared) : Prop where
  events : ((writes x.history).map Write.event).Perm
    (announced x.history ++ x.underway.map (·.2))
  threads : (x.underway.map (·.1)).Nodup
  calls : ∀ t, (writes (ofThread t x.history)).map Write.event =
    announced (ofThread t x.history) ++ (x.event? t).toList

/-- Taking a thread out of a list with one entry for each. -/
private theorem perm_cons_filter {l : List (Thread × ChangeEvent)} (h : (l.map (·.1)).Nodup)
    {t : Thread} {p : Thread × ChangeEvent} (hp : l.find? (fun q => q.1 = t) = some p) :
    l.Perm (p :: l.filter fun q => q.1 ≠ t) := by
  induction l with
  | nil => cases hp
  | cons q l ih =>
      obtain ⟨hfresh, hrest⟩ := List.nodup_cons.mp h
      by_cases hq : q.1 = t
      · have hothers : ∀ p ∈ l, decide (p.1 ≠ t) = true := by
          intro p hmem
          rw [decide_eq_true_eq]
          intro heq
          exact hfresh (List.mem_map.mpr ⟨p, hmem, heq.trans hq.symm⟩)
        rw [List.find?_cons_of_pos (by simpa using hq)] at hp
        rw [← Option.some.inj hp, List.filter_cons_of_neg (by simpa using hq),
          List.filter_eq_self.mpr hothers]
      · rw [List.find?_cons_of_neg (by simpa using hq)] at hp
        rw [List.filter_cons_of_pos (by simpa using hq)]
        exact ((ih hrest hp).cons q).trans (List.Perm.swap p q _)

/-- The thread of a step, and nobody else, sees it as its own. -/
theorem ofThread_append_singleton (t : Thread) (h : History) (y : Thread × Step) :
    ofThread t (h ++ [y]) = ofThread t h ++ if y.1 = t then [y] else [] := by
  rw [ofThread, List.filter_append]
  by_cases hy : y.1 = t <;> simp [ofThread, hy]

theorem Moves.writes_ofThread {x x' : Shared} {y : Thread × Step} (h : Moves x y x')
    (t : Thread) :
    writes (ofThread t x'.history) =
      writes (ofThread t x.history) ++ if y.1 = t then y.2.write?.toList else [] := by
  rw [h.history_eq, ofThread_append_singleton, writes, List.filterMap_append]
  by_cases hy : y.1 = t
  · rw [if_pos hy, if_pos hy]
    rfl
  · rw [if_neg hy, if_neg hy]
    rfl

theorem Moves.announced_ofThread {x x' : Shared} {y : Thread × Step} (h : Moves x y x')
    (t : Thread) :
    announced (ofThread t x'.history) =
      announced (ofThread t x.history) ++ if y.1 = t then y.2.announced?.toList else [] := by
  rw [h.history_eq, ofThread_append_singleton, announced, List.filterMap_append]
  by_cases hy : y.1 = t
  · rw [if_pos hy, if_pos hy]
    rfl
  · rw [if_neg hy, if_neg hy]
    rfl

theorem event?_commit_self (x : Shared) (t : Thread) (content source : String) :
    (x.commit t content source).event? t = some (x.store.commit content source).1 := by
  simp [event?, commit]

theorem event?_commit_ne (x : Shared) {t u : Thread} (hne : t ≠ u) (content source : String) :
    (x.commit t content source).event? u = x.event? u := by
  simp [event?, commit, hne]

theorem event?_announce_self (x : Shared) (t : Thread) (e : ChangeEvent) :
    (x.announce t e).event? t = none := by
  simp [event?, announce, List.find?_filter]

theorem event?_announce_ne (x : Shared) {t u : Thread} (hne : t ≠ u) (e : ChangeEvent) :
    (x.announce t e).event? u = x.event? u := by
  unfold event? announce
  rw [List.find?_filter]
  congr 2
  funext p
  by_cases hp : p.1 = u
  · simp [hp, Ne.symm hne]
  · simp [hp]

/-- What a thread has still to announce is underway. -/
theorem find?_of_event?_eq_some {x : Shared} {t : Thread} {e : ChangeEvent}
    (h : x.event? t = some e) : x.underway.find? (fun p => p.1 = t) = some (t, e) := by
  obtain ⟨⟨u, e'⟩, hfind, rfl⟩ := Option.map_eq_some_iff.mp h
  have hu : u = t := by simpa using List.find?_some hfind
  rw [hfind, hu]

theorem mem_underway_of_event?_eq_some {x : Shared} {t : Thread} {e : ChangeEvent}
    (h : x.event? t = some e) : (t, e) ∈ x.underway :=
  List.mem_of_find?_eq_some (find?_of_event?_eq_some h)

/-- A move that is no part of a set leaves the sets alone. -/
theorem Accounted.of_underway_eq {x x' : Shared} {y : Thread × Step} (ha : Accounted x)
    (h : Moves x y x') (hwrite : y.2.write? = none) (hannounced : y.2.announced? = none)
    (hunderway : x'.underway = x.underway) : Accounted x' where
  events := by
    rw [h.writes_eq, h.announced_eq, hwrite, hannounced, hunderway]
    simpa using ha.events
  threads := by
    rw [hunderway]
    exact ha.threads
  calls := by
    intro t
    have hevent : x'.event? t = x.event? t := by
      unfold event?
      rw [hunderway]
    rw [h.writes_ofThread, h.announced_ofThread, hwrite, hannounced, hevent]
    simpa using ha.calls t

theorem Accounted.commit {x : Shared} {t : Thread} (ha : Accounted x) (idle : x.event? t = none)
    (content source : String) : Accounted (x.commit t content source) where
  events := by
    have h := Moves.commit x t content source idle
    rw [h.writes_eq, h.announced_eq]
    simp only [Step.write?, Step.announced?, Option.toList_some, Option.toList_none,
      List.map_append, List.append_nil]
    have hnew : ((x.commit t content source).underway.map (·.2)).Perm
        (x.underway.map (·.2) ++ [(x.store.commit content source).1]) :=
      (List.perm_append_singleton _ _).symm
    refine (ha.events.append_right _).trans ?_
    rw [List.append_assoc]
    exact hnew.symm.append_left _
  threads := by
    refine List.nodup_cons.mpr ⟨?_, ha.threads⟩
    intro hmem
    obtain ⟨p, hp, hpt⟩ := List.mem_map.mp hmem
    rw [event?, Option.map_eq_none_iff, List.find?_eq_none] at idle
    exact idle p hp (by simpa using hpt)
  calls := by
    intro u
    have h := Moves.commit x t content source idle
    rw [h.writes_ofThread, h.announced_ofThread]
    by_cases hu : t = u
    · subst hu
      have hcalls := ha.calls t
      rw [idle] at hcalls
      simp only [if_true, Step.write?, Step.announced?, List.map_append, hcalls,
        event?_commit_self, Option.toList_none, Option.toList_some, List.append_nil]
      rfl
    · simp only [if_neg hu, List.append_nil, event?_commit_ne x hu]
      exact ha.calls u

theorem Accounted.announce {x : Shared} {t : Thread} {e : ChangeEvent} (ha : Accounted x)
    (busy : x.event? t = some e) : Accounted (x.announce t e) where
  events := by
    have h := Moves.announce x t e busy
    rw [h.writes_eq, h.announced_eq]
    simp only [Step.write?, Step.announced?, Option.toList_some, Option.toList_none,
      List.append_nil]
    have hold : (x.underway.map (·.2)).Perm (e :: (x.announce t e).underway.map (·.2)) :=
      (perm_cons_filter ha.threads (find?_of_event?_eq_some busy)).map (·.2)
    refine (ha.events.trans (hold.append_left _)).trans ?_
    rw [List.append_assoc]
    exact List.Perm.refl _
  threads := ha.threads.sublist (List.filter_sublist.map _)
  calls := by
    intro u
    have h := Moves.announce x t e busy
    rw [h.writes_ofThread, h.announced_ofThread]
    by_cases hu : t = u
    · subst hu
      have hcalls := ha.calls t
      rw [busy] at hcalls
      simp only [if_true, Step.write?, Step.announced?, hcalls, event?_announce_self,
        Option.toList_none, List.append_nil]
    · simp only [if_neg hu, List.append_nil, event?_announce_ne x hu]
      exact ha.calls u

theorem accounted_of_reachable {initial : String} {buffer : Nat} {x : Shared}
    (hx : Reachable initial buffer x) : Accounted x := by
  refine Recorder.run_induction (R := recorder) ?_ ?_ hx
  · exact ⟨List.Perm.refl _, List.nodup_nil, fun _ => rfl⟩
  · intro x y x' _ _ ha h
    cases h with
    | commit t content source idle => exact ha.commit idle content source
    | announce t e busy => exact ha.announce busy
    | get t => exact ha.of_underway_eq (.get x t) rfl rfl rfl
    | version t => exact ha.of_underway_eq (.version x t) rfl rfl rfl
    | listen t c quiet => exact ha.of_underway_eq (.listen x t c quiet) rfl rfl rfl

/-! ## The order of versions -/

/-- Every write of a history has its number. -/
theorem Coherent.version_of_mem {initial : String} {x : Shared} (hc : Coherent initial x)
    {w : Write} (hw : w ∈ writes x.history) :
    ∃ n, n ≤ (writes x.history).length ∧ w.version = .after n := by
  have hmem : w.version ∈ (writes x.history).map (·.version) := List.mem_map_of_mem hw
  rw [hc.versions] at hmem
  obtain ⟨k, hk, heq⟩ := List.mem_map.mp hmem
  exact ⟨k + 1, List.mem_range.mp hk, heq.symm⟩

/-- The versions count up from two. -/
theorem Coherent.versions_toNat {initial : String} {x : Shared} (hc : Coherent initial x)
    (hN : (writes x.history).length + 1 < UInt64.size) :
    (writes x.history).map (·.version.number.toNat) =
      List.range' 2 (writes x.history).length := by
  have hmap : (writes x.history).map (·.version.number.toNat) =
      ((writes x.history).map (·.version)).map (·.number.toNat) := by
    rw [List.map_map]
    rfl
  rw [hmap, hc.versions, List.map_map, List.range'_eq_map_range]
  apply List.map_congr_left
  intro k hk
  have hlt := List.mem_range.mp hk
  show (Version.after (k + 1)).number.toNat = 2 + k
  rw [Version.toNat_after (by omega)]
  omega

theorem Coherent.versions_increase {initial : String} {x : Shared} (hc : Coherent initial x)
    (hN : (writes x.history).length + 1 < UInt64.size) :
    ((writes x.history).map (·.version.number)).Pairwise (· < ·) := by
  have hall : ((writes x.history).map (·.version.number.toNat)).Pairwise (· < ·) := by
    rw [hc.versions_toNat hN]
    exact List.pairwise_lt_range'
  rw [List.pairwise_map] at hall ⊢
  exact hall.imp UInt64.lt_iff_toNat_lt.mpr

theorem Coherent.versions_nodup {initial : String} {x : Shared} (hc : Coherent initial x)
    (hN : (writes x.history).length + 1 < UInt64.size) :
    ((writes x.history).map (·.version)).Nodup := by
  apply List.Nodup.of_map (·.number.toNat)
  rw [List.map_map]
  exact (hc.versions_toNat hN) ▸ List.nodup_range'

/-- A version names one set. -/
theorem Coherent.eq_of_version_eq {initial : String} {x : Shared} (hc : Coherent initial x)
    (hN : (writes x.history).length + 1 < UInt64.size) {w w' : Write}
    (hw : w ∈ writes x.history) (hw' : w' ∈ writes x.history) (h : w.version = w'.version) :
    w = w' :=
  List.inj_on_of_nodup_map (hc.versions_nodup hN) hw hw' h

/-- No version is announced twice, and none that is underway has been announced. -/
theorem announced_nodup {initial : String} {x : Shared} (hc : Coherent initial x)
    (ha : Accounted x) (hN : (writes x.history).length + 1 < UInt64.size) :
    ((announced x.history ++ x.underway.map (·.2)).map (·.version)).Nodup := by
  rw [← (ha.events.map (·.version)).nodup_iff, List.map_map]
  exact hc.versions_nodup hN

/-- An event on its way is that of a write. -/
theorem Accounted.exists_write {x : Shared} (ha : Accounted x) {e : ChangeEvent}
    (he : e ∈ announced x.history ++ x.underway.map (·.2)) :
    ∃ w ∈ writes x.history, w.event = e := by
  obtain ⟨w, hw, rfl⟩ := List.mem_map.mp (ha.events.mem_iff.mpr he)
  exact ⟨w, hw, rfl⟩

theorem Moves.length_writes_le {x x' : Shared} {y : Thread × Step} (h : Moves x y x') :
    (writes x.history).length ≤ (writes x'.history).length := by
  rw [h.writes_eq, List.length_append]
  exact Nat.le_add_right _ _

/-- Whatever is known has a number, and the store is not behind it. -/
theorem exists_after_of_known {initial : String} {buffer : Nat} {x : Shared}
    (hx : Reachable initial buffer x) :
    ∀ y ∈ x.history, ∀ v, y.2.known? = some v →
      ∃ n, n ≤ (writes x.history).length ∧ v = .after n := by
  refine Recorder.run_induction (R := recorder) (P := fun x => ∀ y ∈ x.history, ∀ v, y.2.known? = some v →
    ∃ n, n ≤ (writes x.history).length ∧ v = .after n) ?_ ?_ hx
  · intro y hy
    cases hy
  · intro x y x' hreach _ ih h z hz v hv
    have hc := coherent_of_reachable hreach
    rw [h.history_eq] at hz
    rcases List.mem_append.mp hz with hold | hnew
    · obtain ⟨n, hn, rfl⟩ := ih z hold v hv
      exact ⟨n, Nat.le_trans hn h.length_writes_le, rfl⟩
    · obtain rfl := List.mem_singleton.mp hnew
      have hself : v = x.store.version →
          ∃ n, n ≤ (writes x'.history).length ∧ v = .after n := by
        rintro rfl
        exact ⟨_, h.length_writes_le, hc.version⟩
      cases h with
      | commit t content source idle =>
          cases hv
          refine ⟨(writes x.history).length + 1, ?_, ?_⟩
          · rw [(Moves.commit x t content source idle).writes_eq, List.length_append]
            exact Nat.le_refl _
          · rw [← Version.next_after, ← hc.version]
            rfl
      | announce t e busy =>
          cases hv
          obtain ⟨w, hw, rfl⟩ := (accounted_of_reachable hreach).exists_write
            (List.mem_append_right _
              (List.mem_map_of_mem (mem_underway_of_event?_eq_some busy)))
          obtain ⟨n, hn, hversion⟩ := hc.version_of_mem hw
          exact ⟨n, Nat.le_trans hn (Moves.announce x t _ busy).length_writes_le, hversion⟩
      | get t => exact hself (Option.some.inj hv).symm
      | version t => exact hself (Option.some.inj hv).symm
      | listen t c quiet => cases hv

/-- The store is never behind what is known. -/
theorem known_le_version {initial : String} {buffer : Nat} {x : Shared}
    (hx : Reachable initial buffer x) (hN : (writes x.history).length + 1 < UInt64.size)
    {y : Thread × Step} (hy : y ∈ x.history) {v : Version} (hv : y.2.known? = some v) :
    v.number ≤ x.store.version.number := by
  obtain ⟨n, hn, rfl⟩ := exists_after_of_known hx y hy v hv
  rw [(coherent_of_reachable hx).version]
  exact Version.after_le_after hn hN

/-- Whatever the store is never behind, no later read is behind either. -/
theorem pairwise_read {initial : String} {buffer : Nat} {K : Step → Version → Prop}
    (hK : ∀ x, Reachable initial buffer x → (writes x.history).length + 1 < UInt64.size →
      ∀ y ∈ x.history, ∀ v, K y.2 v → v.number ≤ x.store.version.number)
    {x : Shared} (hx : Reachable initial buffer x) :
    (writes x.history).length + 1 < UInt64.size →
      x.history.Pairwise fun a b => ∀ w v, K a.2 w → b.2.read? = some v →
        w.number ≤ v.number := by
  refine Recorder.run_induction (R := recorder) (P := fun x => (writes x.history).length + 1 < UInt64.size →
    x.history.Pairwise fun a b => ∀ w v, K a.2 w → b.2.read? = some v →
      w.number ≤ v.number) (fun _ => List.Pairwise.nil) ?_ hx
  intro x y x' hreach _ ih h hN
  have hNx : (writes x.history).length + 1 < UInt64.size :=
    Nat.lt_of_le_of_lt (Nat.succ_le_succ h.length_writes_le) hN
  rw [h.history_eq, List.pairwise_append]
  refine ⟨ih hNx, List.pairwise_singleton _ _, ?_⟩
  intro a ha b hb w v hw hv
  obtain rfl := List.mem_singleton.mp hb
  have hread : v = x.store.version := by
    cases h <;> cases hv <;> rfl
  rw [hread]
  exact hK x hreach hNx a ha w hw

/-- A read never sees less than was known before it. -/
theorem ordered_of_reachable {initial : String} {buffer : Nat} {x : Shared}
    (hx : Reachable initial buffer x) (hN : (writes x.history).length + 1 < UInt64.size) :
    x.history.Pairwise fun a b => ∀ w v, a.2.known? = some w → b.2.read? = some v →
      w.number ≤ v.number :=
  pairwise_read (K := fun y v => y.known? = some v)
    (fun _ hx hN _ hy _ hv => known_le_version hx hN hy hv) hx hN

end Shared

end LiveDiagram
