import LiveDiagram.Proofs.Document.Writes

/-!
# The document is linearizable

Whatever the threads do, the sets look as if each happened at its commit: they are numbered in that
order, every read sees the text and the version of one of them, and no read goes back behind what
someone has already been told.

## Main results

* `reads_and_sets_linearizable`: the law for every schedule of every number of threads.
-/

namespace LiveDiagram.Shared

/-- **Linearizability**, for every schedule of a store that starts with `initial`.  With `N` commits
so far:

* the store is at version `1 + N`;
* the sets have the versions `2, …, N + 1` in the order of their commits;
* what a thread has committed it has been answered, in order, up to one set still underway, and no
  two answers are the same;
* a read sees the text the store started with, under version one, or the text passed to the one set
  whose version it sees;
* a read that follows a set or another read sees no lesser version.

Versions are words, so there must be fewer writes than a word can count. -/
theorem reads_and_sets_linearizable (initial : String) (buffer : Nat)
    (schedule : List (Thread × Request))
    (hN : (writes (run initial buffer schedule).history).length + 1 < UInt64.size) :
    let x := run initial buffer schedule
    let sets := writes x.history
    x.store.version.number.toNat = 1 + sets.length ∧
    sets.map (·.version.number.toNat) = List.range' 2 sets.length ∧
    (∀ t, (writes (ofThread t x.history)).map Write.event =
      announced (ofThread t x.history) ++ (x.event? t).toList) ∧
    ((announced x.history).map (·.version)).Nodup ∧
    (∀ t seen, (t, Step.get seen) ∈ x.history →
      seen = ⟨initial, .initial⟩ ∨
      ∃ w ∈ sets, w.version = seen.version ∧ w.content = seen.content ∧
        ∀ w' ∈ sets, w'.version = seen.version → w' = w) ∧
    x.history.Pairwise fun a b => ∀ w v, a.2.known? = some w → b.2.read? = some v →
      w.number ≤ v.number := by
  intro x sets
  have hx : Reachable initial buffer x := ⟨schedule, rfl⟩
  have hc := coherent_of_reachable hx
  have ha := accounted_of_reachable hx
  refine ⟨?_, hc.versions_toNat hN, ha.calls, ?_, ?_, ordered_of_reachable hx hN⟩
  · rw [hc.version, Version.toNat_after hN, Nat.add_comm]
  · have hall := announced_nodup hc ha hN
    rw [List.map_append] at hall
    exact (List.nodup_append.mp hall).1
  · intro t seen hseen
    rcases hc.seen t seen hseen with hinitial | ⟨w, hw, rfl⟩
    · exact Or.inl hinitial
    · refine Or.inr ⟨w, hw, rfl, rfl, ?_⟩
      intro w' hw' hversion
      exact hc.eq_of_version_eq hN hw' hw hversion

/-- Two sets that overlap, announced in the other order, with a read in between. -/
theorem linearizable_overlapping_sets :
    let schedule : List (Thread × Request) :=
      [(1, .commit "b" "left"), (2, .commit "c" "right"), (3, .get), (2, .announce),
        (1, .announce), (3, .get)]
    (writes (run "a" 1 schedule).history).length + 1 < UInt64.size ∧
      (run "a" 1 schedule).store.version.number.toNat = 1 + 2 :=
  ⟨by decide, (reads_and_sets_linearizable "a" 1 _ (by decide)).1⟩

end LiveDiagram.Shared
