import LiveDiagram.Files.Preferences
import LiveDiagram.Proofs.Files.Paths
import LiveDiagram.Proofs.Json.Written

/-!
# Preferences that were saved

What is saved is an object, and what lies in the file is the text of that object.  Two things make
this a round trip.  The directories that the first save had to make are there for the second one,
which finds the same bytes in the file and so changes nothing at all.  And the text of an object
denotes it, so that loading gives back the object whatever the body looked like that it came from.

## Main results

* `save_eq_ok`: what a save leaves in the file, and that a second one changes nothing.
* `saved_round_trip`: the law for bodies whose numbers are whole.
-/

namespace LiveDiagram

open LiveDiagram.Json

/-- Numbers are whole, and members stand in ascending order. -/
def Json.Style.sorted : Style := ⟨WholeNumeral, Ascending⟩

namespace Preferences

variable {p : Preferences} {t t' : FileTree}

theorem isName_fileName : Path.IsName fileName :=
  ⟨by decide +kernel, by decide +kernel, by decide +kernel, by decide +kernel⟩

/-- Behind a save the directory is there, and the file holds the text of the object. -/
theorem exists_write_of_save {m : Members} (h : p.save t m = (.ok (), t')) :
    ∃ made : FileTree, made.write p.path m.write = .ok t' ∧
      t'.makeDirectories p.path.parent = (.ok (), t') := by
  unfold save at h
  split at h
  · cases h
  · next made hmade =>
      split at h
      · cases h
      · next written hwrite =>
          cases h
          obtain ⟨l, number, hplace, hgrows, -⟩ := FileTree.write_eq_ok hwrite
          have hdirectory : t'.isDirectory p.path.parent = true :=
            FileTree.isDirectory_parent_entry isName_fileName (hgrows.resolve hplace)
          exact ⟨made, hwrite, FileTree.makeDirectories_of_isDirectory hdirectory⟩

/-- A save leaves the text of the object in the file, and saving it once more changes nothing. -/
theorem save_eq_ok {m : Members} (h : p.save t m = (.ok (), t')) :
    p.loadRaw t' = .ok m.write ∧ p.save t' m = (.ok (), t') := by
  obtain ⟨made, hwrite, hmake⟩ := exists_write_of_save h
  constructor
  · rw [loadRaw, FileTree.read_write hwrite]
  · rw [save, hmake]
    simp only [FileTree.write_again hwrite]

/-- Where an object was saved, any other object can be saved. -/
theorem exists_save_eq_ok {m : Members} (h : p.save t m = (.ok (), t')) (m' : Members) :
    ∃ t'', p.save t' m' = (.ok (), t'') := by
  obtain ⟨made, hwrite, hmake⟩ := exists_write_of_save h
  obtain ⟨t'', hwrite'⟩ := FileTree.exists_write_eq_ok hwrite m'.write
  refine ⟨t'', ?_⟩
  rw [save, hmake]
  simp only [hwrite']

/-- A saved object is loaded with what its numerals stand for. -/
theorem load_of_save_mapNumbers {style : Style} {kept : Number → Prop} {f : Number → Number}
    (hstyle : style.WritesAs kept f) {m : Members} (hm : Normal kept depthLimit (.object m))
    (h : p.save t m = (.ok (), t')) : p.load t' = .ok (m.mapNumbers f) := by
  rw [load, (save_eq_ok h).1]
  simp only [parse_write hstyle hm]
  rfl

/-- A saved object whose numbers can be read is loaded as it was saved. -/
theorem load_of_save {style : Style} {kept : Number → Prop} (hstyle : style.Writes kept) {m : Members}
    (hm : Normal kept depthLimit (.object m)) (h : p.save t m = (.ok (), t')) :
    p.load t' = .ok m ∧ p.saveRaw t' m.write = (.ok (), t') := by
  have hsame : m.mapNumbers id = m := Members.mapNumbers_eq_self (fun _ _ => rfl) hm
  have hload := load_of_save_mapNumbers hstyle hm h
  have hparse := parse_write hstyle hm
  rw [hsame] at hload hparse
  refine ⟨hload, ?_⟩
  rw [saveRaw, hparse]
  exact (save_eq_ok h).2

theorem writes_sorted : Style.sorted.Writes fun n => ∃ w, WholeNumeral w n where
  readable := fun _ _ _ hw hrest => WholeNumeral.readable hw hrest
  numeral := by
    rintro n ⟨w, i, hlow, hhigh, rfl, rfl⟩
    exact ⟨i, hlow, hhigh, rfl, rfl⟩
  ordered := fun _ h => h

/-- **What is saved is loaded again**, for every body whose numbers are whole and which is accepted,
wherever it is saved.

The body denotes one object, by whatever blanks, escapes and order of members, the last member with a
key counting.  Loading gives that object.  The stored text denotes it too, with whole numbers and
with the members of every object in ascending order; saving it again succeeds and leaves every file
as it is. -/
theorem saved_round_trip {body : Bytes} (h : p.saveRaw t body = (.ok (), t'))
    (hwhole : HasWholeNumbers body) :
    ∃ m, (∀ m', Denotes .whole body m' ↔ m' = m) ∧
      p.load t' = .ok m ∧
      p.loadRaw t' = .ok m.write ∧
      Denotes .sorted m.write m ∧
      p.saveRaw t' m.write = (.ok (), t') := by
  unfold saveRaw at h
  split at h
  · cases h
  · next m hparse =>
      have hdenotes := (parse_eq_ok_iff_denotes hwhole).mp hparse
      have hnormal : Normal (fun n => ∃ w, WholeNumeral w n) depthLimit (.object m) := by
        obtain ⟨rest, hspells, -⟩ := hdenotes
        exact .of_spells (fun w n hw => ⟨w, hw⟩) hspells
      obtain ⟨hload, hagain⟩ := load_of_save writes_sorted hnormal h
      refine ⟨m, fun m' => ?_, hload, (save_eq_ok h).1, denotes_write writes_sorted hnormal, hagain⟩
      rw [← parse_eq_ok_iff_denotes hwhole, hparse]
      exact ⟨fun heq => (Except.ok.inj heq).symm, fun heq => heq ▸ rfl⟩

/-- A body with blanks, an escape, nested values and a key that stands twice. -/
theorem saved_round_trip_nested :
    let p : Preferences := ⟨⟨["state"]⟩⟩
    let body := Utf8.encode
      " \x7b\"b\": [1, -2], \"a\": \x7b\"\\u00e9\": 18446744073709551615\x7d, \"b\": [null, 0]\x7d\n"
    let t := (p.saveRaw .empty body).2
    p.saveRaw .empty body = (.ok (), t) ∧ HasWholeNumbers body ∧
      p.loadRaw t = .ok (Utf8.encode
        "\x7b\"a\":\x7b\"é\":18446744073709551615\x7d,\"b\":[null,0]\x7d") ∧
      ∃ m, p.load t = .ok m ∧ p.saveRaw t m.write = (.ok (), t) := by
  intro p body t
  have hsaved : p.saveRaw .empty body = (.ok (), t) := Prod.ext (by decide +kernel) rfl
  have hnumerals : numerals body = [Decimal.signedNumeral 1, Decimal.signedNumeral (-2),
      Decimal.signedNumeral 18446744073709551615, Decimal.signedNumeral 0] := by decide +kernel
  have hwhole : HasWholeNumbers body := by
    rw [HasWholeNumbers, hnumerals]
    simp only [List.forall_mem_cons]
    exact ⟨⟨_, 1, by decide, by decide, rfl, rfl⟩, ⟨_, -2, by decide, by decide, rfl, rfl⟩,
      ⟨_, 18446744073709551615, by decide, by decide, rfl, rfl⟩, ⟨_, 0, by decide, by decide, rfl, rfl⟩,
      fun w hw => absurd hw List.not_mem_nil⟩
  obtain ⟨m, -, hload, -, -, hagain⟩ := saved_round_trip hsaved hwhole
  exact ⟨hsaved, hwhole, by decide +kernel, m, hload, hagain⟩

end Preferences

end LiveDiagram
