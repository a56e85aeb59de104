import LiveDiagram.Files.Preferences

/-!
# The contents of a tree

Making directories leaves every file as it is: a directory is only put where nothing was.  So saving
preferences changes no file unless it succeeds, although it may have made directories.

## Main results

* `rel_makeInnermost`, `contents_makeDirectories`: making directories is making them one by one, and
  changes no file.
* `Preferences.contents_of_refused`: neither does saving that fails.
-/

namespace LiveDiagram

namespace FileTree

/-- The number and the bytes of the file in a place, if there is one. -/
def contents (t : FileTree) (l : Location) : Option (FileNumber × Bytes) :=
  match t.lookup l with
  | some (.file number data) => some (number, data)
  | _ => none

theorem contents_put_directory {t : FileTree} {l : Location} (h : t.lookup l = none) :
    (t.put l .directory).contents = t.contents := by
  have hl : l ≠ [] := by
    rintro rfl
    cases h
  funext q
  unfold contents
  by_cases hq : q = l
  · rw [hq, lookup_put_self t hl, h]
  · rw [lookup_put_ne t hq]

theorem contents_makeDirectory {t t' : FileTree} {p : Path} (h : t.makeDirectory p = .ok t') :
    t'.contents = t.contents := by
  unfold makeDirectory at h
  split at h
  · cases h
  · split at h
    · cases h
    · next hnone =>
        cases h
        exact contents_put_directory hnone

/-- Making directories does what making one directory after another does: a relation between trees that
every new directory keeps is kept by all of them. -/
theorem rel_makeInnermost {R : FileTree → FileTree → Prop} (hrefl : ∀ t, R t t)
    (htrans : ∀ t t' t'', R t t' → R t' t'' → R t t'') {paths : List Path}
    (hstep : ∀ t t' p, p ∈ paths → t.makeDirectory p = .ok t' → R t t') (t : FileTree) :
    R t (t.makeInnermost paths).2 := by
  induction paths generalizing t with
  | nil => exact hrefl t
  | cons p outer ih =>
      have houter := ih (fun t t' q hq => hstep t t' q (List.mem_cons_of_mem p hq)) t
      have hsettle : ∀ t : FileTree, R t (t.settleDirectory p).2 := by
        intro t
        unfold settleDirectory
        split
        · next hmade => exact hstep t _ p List.mem_cons_self hmade
        · exact hrefl t
      unfold makeInnermost
      split
      · split
        · next made hmade =>
            rw [hmade] at houter
            exact htrans _ _ _ houter (hsettle made)
        · exact houter
      · exact hsettle t

theorem contents_makeDirectories (t : FileTree) (p : Path) :
    (t.makeDirectories p).2.contents = t.contents :=
  rel_makeInnermost (R := fun t t' => t'.contents = t.contents) (fun _ => rfl)
    (fun _ _ _ h h' => h'.trans h) (fun _ _ _ _ hmade => contents_makeDirectory hmade) t

end FileTree

namespace Preferences

/-- Saving that fails changes no file. -/
theorem contents_of_refused {p : Preferences} {t t' : FileTree} {body : Bytes} {e : Error}
    (h : p.saveRaw t body = (.error e, t')) : t'.contents = t.contents := by
  have hmade := FileTree.contents_makeDirectories t p.path.parent
  unfold saveRaw at h
  split at h
  · cases h
    rfl
  · unfold save at h
    split at h
    · next heq =>
        cases h
        rw [← hmade, heq]
    · next made heq =>
        split at h
        · cases h
          rw [← hmade, heq]
        · cases h

end Preferences

end LiveDiagram
