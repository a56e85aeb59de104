import LiveDiagram.Proofs.Files.Paths

/-!
# Trees in which everything lies in a directory

A tree is a list of places with what lies there, and nothing about the list keeps an entry from lying
where there is no directory.  Such trees do not come about: an entry is made where a path leads, a path
leads from directory to directory, and no directory is ever taken away.

## Main results

* `IsTree.lookup_append_eq_none`: where nothing is, there is nothing below.
* `IsTree.makeDirectories`, `IsTree.write`: what a save does keeps a tree one.
-/

namespace LiveDiagram.FileTree

open LiveDiagram.Path

/-- Whatever lies somewhere lies in a directory. -/
def IsTree (t : FileTree) : Prop :=
  ∀ l, t.lookup l ≠ none → t.lookup l.dropLast = some .directory

theorem isTree_empty : empty.IsTree := by
  intro l hl
  by_cases hroot : l = []
  · rw [hroot]
    rfl
  · exact absurd (by simp [lookup, empty, hroot]) hl

theorem dropLast_ne {l : Location} (h : l ≠ []) : l.dropLast ≠ l := by
  intro heq
  have hlength := congrArg List.length heq
  have hpos := List.length_pos_iff.mpr h
  rw [List.length_dropLast] at hlength
  omega

section

variable {t t' : FileTree} (ht : t.IsTree) {l : Location}
include ht

/-- Where nothing is, there is nothing below. -/
theorem IsTree.lookup_append_eq_none (hl : t.lookup l = none) (names : List String) :
    t.lookup (l ++ names) = none := by
  induction names generalizing l with
  | nil => rwa [List.append_nil]
  | cons name names ih =>
      rw [List.append_cons]
      refine ih (Classical.byContradiction fun hsome => ?_)
      have hdirectory := ht _ hsome
      rw [List.dropLast_concat, hl] at hdirectory
      cases hdirectory

/-- A path leads to a place in a directory. -/
theorem IsTree.lookup_dropLast_of_follow {here : Location} {parts : List String}
    (h : t.follow here parts = .ok l) (hhere : t.lookup here.dropLast = some .directory) :
    t.lookup l.dropLast = some .directory := by
  induction parts generalizing here with
  | nil =>
      cases h
      exact hhere
  | cons part rest ih =>
      rw [follow] at h
      split at h
      · cases h
      · cases h
      · next hdirectory =>
          split at h
          · exact ih h hhere
          split at h
          · exact ih h (ht _ (by simp [hhere]))
          split at h
          · cases h
          · exact ih h (by rwa [List.dropLast_concat])

theorem IsTree.lookup_dropLast_of_resolve {p : Path} (h : t.resolve p = .ok l) :
    t.lookup l.dropLast = some .directory :=
  ht.lookup_dropLast_of_follow (resolve_eq_ok_iff.mp h).2.2 rfl

/-- One place where no directory is may change, if it lies in a directory. -/
theorem IsTree.of_lookup (hplace : t.lookup l.dropLast = some .directory)
    (hfree : t.lookup l ≠ some .directory) (hothers : ∀ m, m ≠ l → t'.lookup m = t.lookup m) :
    t'.IsTree := by
  intro q hq
  by_cases hql : q = l
  · subst hql
    rwa [hothers _ (dropLast_ne (ne_nil_of_lookup_ne hfree))]
  · rw [hothers q hql] at hq
    have hdirectory := ht q hq
    have hother : q.dropLast ≠ l := fun heq => hfree (heq ▸ hdirectory)
    rwa [hothers _ hother]

/-! ## What the program does -/

theorem IsTree.makeDirectory {p : Path} (h : t.makeDirectory p = .ok t') : t'.IsTree := by
  unfold FileTree.makeDirectory at h
  split at h
  · cases h
  · next place hplace =>
      split at h
      · cases h
      · next hnone =>
          cases h
          exact ht.of_lookup (ht.lookup_dropLast_of_resolve hplace) (by simp [hnone])
            fun m hm => lookup_put_ne t hm _

theorem IsTree.makeDirectories (p : Path) : (t.makeDirectories p).2.IsTree :=
  rel_makeInnermost (R := fun t t' => t.IsTree → t'.IsTree) (fun _ h => h)
    (fun _ _ _ h h' ht => h' (h ht)) (fun _ _ _ _ hmade ht => IsTree.makeDirectory ht hmade) t ht

theorem IsTree.write {p : Path} {data : Bytes} (h : t.write p data = .ok t') : t'.IsTree := by
  obtain ⟨l, number, hplace, hgrows, hfile, hothers, -⟩ := write_eq_ok h
  have hfree : t.lookup l ≠ some .directory := by
    intro hdirectory
    rw [hgrows l hdirectory] at hfile
    cases hfile
  exact ht.of_lookup (ht.lookup_dropLast_of_resolve hplace) hfree hothers

end

end LiveDiagram.FileTree
