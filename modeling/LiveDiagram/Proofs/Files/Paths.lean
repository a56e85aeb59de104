import LiveDiagram.Proofs.Files.Contents

/-!
# Paths through a tree that changes

A path leads where it leads because of the directories it passes through, and nothing that the
program does takes a directory away.  So whatever a path has led to, it leads to later: a tree that
has changed is compared with the one before by its directories alone (`Grows`).

The entries of one directory all lie side by side in the place where the directory's own path leads.
If one entry can be reached, so can every entry of a shorter name, and making the directory again
changes nothing.

## Main results

* `Grows.resolve`: what a path led to stays where it was.
* `exists_of_resolve_entry`, `resolve_entry_of_le`: where the entries of a directory lie.
* `makeDirectories_of_isDirectory`: a directory that is there need not be made.
* `read_write`, `write_again`: a written file holds what was written.
-/

namespace LiveDiagram

namespace Path

/-! ## Lengths -/

theorem size_append_singleton (parts : List String) (part : String) :
    (Path.mk (parts ++ [part])).text.utf8ByteSize =
      (if parts = [] then 0 else (Path.mk parts).text.utf8ByteSize + 1) + part.utf8ByteSize := by
  by_cases h : parts = []
  · subst h
    simp [text]
  · rw [if_neg h]
    show ("/".intercalate (parts ++ [part])).utf8ByteSize = _
    rw [String.intercalate_append_of_ne_nil h (by simp), String.intercalate_singleton,
      String.utf8ByteSize_append, String.utf8ByteSize_append]
    rfl

/-- The beginning of a path is no longer than the whole. -/
theorem size_le_append (parts more : List String) :
    (Path.mk parts).text.utf8ByteSize ≤ (Path.mk (parts ++ more)).text.utf8ByteSize := by
  by_cases hparts : parts = []
  · subst hparts
    exact Nat.zero_le _
  by_cases hmore : more = []
  · subst hmore
    simp only [List.append_nil, Nat.le_refl]
  · show _ ≤ ("/".intercalate (parts ++ more)).utf8ByteSize
    rw [String.intercalate_append_of_ne_nil hparts hmore, String.utf8ByteSize_append,
      String.utf8ByteSize_append]
    show ("/".intercalate parts).utf8ByteSize ≤ _
    omega

theorem hasNul_append (parts more : List String) :
    (Path.mk (parts ++ more)).hasNul = ((Path.mk parts).hasNul || (Path.mk more).hasNul) :=
  List.any_append

/-! ## Entries -/

/-- A name that an entry of a directory can have. -/
structure IsName (name : String) : Prop where
  steps : isIdle name = false
  down : name ≠ ".."
  short : name.utf8ByteSize ≤ nameLimit
  clean : (Path.mk [name]).hasNul = false

/-- An entry's path: the directory's, less a blank part at its end, and then the name. -/
theorem exists_parts_entry (d : Path) :
    ∃ front back, d.parts = front ++ back ∧ (back = [] ∨ back = [""]) ∧
      ∀ name, d.entry name = ⟨front ++ [name]⟩ := by
  by_cases h : d.parts.getLast? = some ""
  · obtain ⟨front, hfront⟩ := List.getLast?_eq_some_iff.mp h
    exact ⟨front, [""], hfront, Or.inr rfl, fun name => by simp [entry, hfront]⟩
  · exact ⟨d.parts, [], (List.append_nil _).symm, Or.inl rfl, fun name => by simp [entry, h]⟩

end Path

namespace FileTree

open LiveDiagram.Path

/-! ## Following paths -/

theorem follow_append (t : FileTree) (here : Location) (parts more : List String) :
    t.follow here (parts ++ more) = (t.follow here parts).bind fun l => t.follow l more := by
  induction parts generalizing here with
  | nil => rfl
  | cons part rest ih =>
      rw [List.cons_append, follow, follow]
      split
      · rfl
      · rfl
      · split
        · exact ih here
        split
        · exact ih here.dropLast
        split
        · rfl
        · exact ih (here ++ [part])

theorem follow_append_eq_ok_iff {t : FileTree} {here l : Location} {parts more : List String} :
    t.follow here (parts ++ more) = .ok l ↔
      ∃ m, t.follow here parts = .ok m ∧ t.follow m more = .ok l := by
  rw [follow_append]
  cases t.follow here parts with
  | error e => simp [Except.bind]
  | ok m => simp [Except.bind]

/-- Idle parts stay where they are, if that is a directory. -/
theorem follow_idle {t : FileTree} {here : Location} {parts : List String}
    (hidle : ∀ part ∈ parts, isIdle part = true) (hhere : t.lookup here = some .directory) :
    t.follow here parts = .ok here := by
  induction parts with
  | nil => rfl
  | cons part rest ih =>
      rw [follow, hhere]
      simp only [hidle part List.mem_cons_self, if_true]
      exact ih fun q hq => hidle q (List.mem_cons_of_mem part hq)

/-- Parts are followed from a directory. -/
theorem lookup_of_follow_cons {t : FileTree} {here l : Location} {part : String} {rest : List String}
    (h : t.follow here (part :: rest) = .ok l) : t.lookup here = some .directory := by
  rw [follow] at h
  split at h
  · cases h
  · cases h
  · assumption

theorem eq_of_follow_idle {t : FileTree} {here l : Location} {parts : List String}
    (hidle : ∀ part ∈ parts, isIdle part = true) (h : t.follow here parts = .ok l) : l = here := by
  cases parts with
  | nil =>
      cases h
      rfl
  | cons part rest =>
      rw [follow_idle hidle (lookup_of_follow_cons h)] at h
      cases h
      rfl

/-- A name is one step down from a directory. -/
theorem follow_name_eq_ok_iff {t : FileTree} {here l : Location} {name : String}
    (hname : IsName name) :
    t.follow here [name] = .ok l ↔ t.lookup here = some .directory ∧ l = here ++ [name] := by
  rw [follow]
  cases hhere : t.lookup here with
  | none => simp
  | some e =>
      cases e with
      | file number data => simp
      | directory =>
          simp only [hname.steps, hname.down, Nat.not_lt.mpr hname.short, Bool.false_eq_true,
            if_false, follow, Except.ok.injEq, true_and]
          exact eq_comm

theorem resolve_eq_ok_iff {t : FileTree} {p : Path} {l : Location} :
    t.resolve p = .ok l ↔
      p.hasNul = false ∧ p.text.utf8ByteSize < lengthLimit ∧ t.follow [] p.parts = .ok l := by
  unfold resolve
  cases p.hasNul with
  | true => simp
  | false =>
      by_cases hlength : lengthLimit ≤ p.text.utf8ByteSize
      · simp [hlength, Nat.not_lt.mpr hlength]
      · simp [hlength, Nat.lt_of_not_le hlength]

theorem isDirectory_eq_true_iff {t : FileTree} {p : Path} :
    t.isDirectory p = true ↔ ∃ l, t.resolve p = .ok l ∧ t.lookup l = some .directory := by
  unfold isDirectory find
  constructor
  · intro h
    split at h
    · next l hl =>
        split at hl
        · cases hl
        · next m hm =>
            split at hl
            · cases hl
            · next e he =>
                cases hl
                exact ⟨_, hm, he⟩
    · cases h
  · rintro ⟨l, hl, hdir⟩
    simp only [hl, hdir]

/-! ## Trees that keep their directories -/

/-- Every directory of the first tree is one of the second. -/
def Grows (t t' : FileTree) : Prop :=
  ∀ l, t.lookup l = some .directory → t'.lookup l = some .directory

theorem Grows.follow {t t' : FileTree} (h : Grows t t') {here l : Location} {parts : List String}
    (hl : t.follow here parts = .ok l) : t'.follow here parts = .ok l := by
  induction parts generalizing here with
  | nil => exact hl
  | cons part rest ih =>
      rw [FileTree.follow] at hl ⊢
      split at hl
      · cases hl
      · cases hl
      · next hhere =>
          rw [h here hhere]
          dsimp only
          split at hl
          · next hidle =>
              rw [if_pos hidle]
              exact ih hl
          · next hidle =>
              rw [if_neg hidle]
              split at hl
              · next hup =>
                  rw [if_pos hup]
                  exact ih hl
              · next hup =>
                  rw [if_neg hup]
                  split at hl
                  · cases hl
                  · next hshort =>
                      rw [if_neg hshort]
                      exact ih hl

/-- What a path led to stays where it was. -/
theorem Grows.resolve {t t' : FileTree} (h : Grows t t') {p : Path} {l : Location}
    (hl : t.resolve p = .ok l) : t'.resolve p = .ok l := by
  obtain ⟨hnul, hlength, hfollow⟩ := resolve_eq_ok_iff.mp hl
  exact resolve_eq_ok_iff.mpr ⟨hnul, hlength, h.follow hfollow⟩

theorem grows_put_file {t : FileTree} {l : Location} (hl : t.lookup l ≠ some .directory)
    (number : FileNumber) (data : Bytes) : Grows t (t.put l (.file number data)) := by
  intro m hm
  have hne : m ≠ l := by
    rintro rfl
    exact hl hm
  rw [lookup_put_ne t hne, hm]

theorem grows_erase {t : FileTree} {l : Location} (hl : t.lookup l ≠ some .directory) :
    Grows t (t.erase l) := by
  intro m hm
  have hne : m ≠ l := by
    rintro rfl
    exact hl hm
  rw [lookup_erase_ne t hne, hm]

/-! ## The entries of a directory -/

/-- An entry lies in the place where its directory's path leads. -/
theorem exists_of_resolve_entry {t : FileTree} {d : Path} {name : String} {l : Location}
    (hname : IsName name) (h : t.resolve (d.entry name) = .ok l) :
    ∃ base, t.resolve d = .ok base ∧ t.lookup base = some .directory ∧ l = base ++ [name] := by
  obtain ⟨front, back, hparts, hback, hentry⟩ := exists_parts_entry d
  rw [hentry, resolve_eq_ok_iff, hasNul_append, Bool.or_eq_false_iff] at h
  obtain ⟨⟨hnul, -⟩, hlength, hfollow⟩ := h
  obtain ⟨base, hbase, hlast⟩ := follow_append_eq_ok_iff.mp hfollow
  obtain ⟨hdir, hl⟩ := (follow_name_eq_ok_iff hname).mp hlast
  refine ⟨base, ?_, hdir, hl⟩
  obtain ⟨parts⟩ := d
  obtain rfl : parts = front ++ back := hparts
  rw [resolve_eq_ok_iff]
  rcases hback with rfl | rfl
  · rw [List.append_nil]
    exact ⟨hnul, Nat.lt_of_le_of_lt (size_le_append front [name]) hlength, hbase⟩
  · refine ⟨?_, ?_, follow_append_eq_ok_iff.mpr ⟨base, hbase, follow_idle (by simp [isIdle]) hdir⟩⟩
    · rw [hasNul_append, hnul]
      rfl
    · rw [size_append_singleton] at hlength ⊢
      exact Nat.lt_of_le_of_lt (Nat.add_le_add_left (Nat.zero_le _) _) hlength

/-- Beside an entry that can be reached lie all entries of shorter names. -/
theorem resolve_entry_of_le {t : FileTree} {d : Path} {name other : String} {base : Location}
    (hname : IsName name) (hother : IsName other)
    (hle : other.utf8ByteSize ≤ name.utf8ByteSize)
    (h : t.resolve (d.entry name) = .ok (base ++ [name])) :
    t.resolve (d.entry other) = .ok (base ++ [other]) := by
  obtain ⟨front, back, hparts, hback, hentry⟩ := exists_parts_entry d
  rw [hentry, resolve_eq_ok_iff, hasNul_append, Bool.or_eq_false_iff] at h ⊢
  obtain ⟨⟨hnul, -⟩, hlength, hfollow⟩ := h
  obtain ⟨m, hm, hlast⟩ := follow_append_eq_ok_iff.mp hfollow
  obtain ⟨hdir, hl⟩ := (follow_name_eq_ok_iff hname).mp hlast
  obtain rfl : base = m := List.append_cancel_right hl
  refine ⟨⟨hnul, hother.clean⟩, ?_,
    follow_append_eq_ok_iff.mpr ⟨base, hm, (follow_name_eq_ok_iff hother).mpr ⟨hdir, rfl⟩⟩⟩
  rw [size_append_singleton] at hlength ⊢
  exact Nat.lt_of_le_of_lt (Nat.add_le_add_left hle _) hlength

/-! ## Directories that are there -/

/-- What a path passes through is a directory. -/
theorem isDirectory_of_append {t : FileTree} {parts more : List String}
    (h : t.isDirectory ⟨parts ++ more⟩ = true) : t.isDirectory ⟨parts⟩ = true := by
  obtain ⟨l, hl, hdirectory⟩ := isDirectory_eq_true_iff.mp h
  obtain ⟨hnul, hlength, hfollow⟩ := resolve_eq_ok_iff.mp hl
  obtain ⟨m, hm, hmore⟩ := follow_append_eq_ok_iff.mp hfollow
  rw [hasNul_append, Bool.or_eq_false_iff] at hnul
  have hresolve : t.resolve ⟨parts⟩ = .ok m := resolve_eq_ok_iff.mpr
    ⟨hnul.1, Nat.lt_of_le_of_lt (size_le_append parts more) hlength, hm⟩
  refine isDirectory_eq_true_iff.mpr ⟨m, hresolve, ?_⟩
  cases more with
  | nil =>
      cases hmore
      exact hdirectory
  | cons part rest => exact lookup_of_follow_cons hmore

/-- The parts of a path without those of one kind at its end, and the rest. -/
theorem exists_append_dropWhile (keep : String → Bool) (parts : List String) :
    ∃ back, parts = (parts.reverse.dropWhile keep).reverse ++ back ∧
      ∀ part ∈ back, keep part = true := by
  refine ⟨(parts.reverse.takeWhile keep).reverse, ?_, ?_⟩
  · rw [← List.reverse_append, List.takeWhile_append_dropWhile, List.reverse_reverse]
  · intro part hpart
    exact List.all_eq_true.mp List.all_takeWhile part (List.mem_reverse.mp hpart)

theorem makeDirectory_of_isDirectory {t : FileTree} {p : Path} (h : t.isDirectory p = true) :
    t.makeDirectory p = .error .exists := by
  obtain ⟨back, hparts, -⟩ := exists_append_dropWhile (fun s => decide (s = "")) p.parts
  have hwhole : t.isDirectory ⟨(p.parts.reverse.dropWhile (· = "")).reverse ++ back⟩ = true := by
    rw [← hparts]
    exact h
  obtain ⟨l, hl, hdir⟩ := isDirectory_eq_true_iff.mp (isDirectory_of_append hwhole)
  simp only [makeDirectory, hl, hdir]

/-- A directory that is there need not be made. -/
theorem makeDirectories_of_isDirectory {t : FileTree} {p : Path} (h : t.isDirectory p = true) :
    t.makeDirectories p = (.ok (), t) := by
  simp only [makeDirectories, makeInnermost, settleDirectory, makeDirectory_of_isDirectory h, h,
    if_true]

theorem isDirectory_parent_entry {t : FileTree} {d : Path} {name : String} {l : Location}
    (hname : IsName name) (h : t.resolve (d.entry name) = .ok l) :
    t.isDirectory (d.entry name).parent = true := by
  obtain ⟨base, hbase, hdir, -⟩ := exists_of_resolve_entry hname h
  obtain ⟨back, hparts, -⟩ := exists_append_dropWhile isIdle d.parts
  have hwhole : t.isDirectory ⟨(d.parts.reverse.dropWhile isIdle).reverse ++ back⟩ = true := by
    rw [← hparts]
    exact isDirectory_eq_true_iff.mpr ⟨base, hbase, hdir⟩
  rw [parent_entry d hname.steps]
  exact isDirectory_of_append hwhole

/-! ## Files that are opened, written and removed -/

theorem put_put (t : FileTree) (l : Location) (e e' : Entry) :
    (t.put l e).put l e' = t.put l e' := by
  simp [put]

theorem ne_nil_of_lookup_ne {t : FileTree} {l : Location} (h : t.lookup l ≠ some .directory) :
    l ≠ [] := by
  rintro rfl
  exact h rfl

/-- Opening a file leaves a file where its path leads, and changes no other place. -/
theorem openFile_eq_ok {t t' : FileTree} {p : Path} {l : Location} {number : FileNumber}
    (h : t.openFile p = .ok ((l, number), t')) :
    t.resolve p = .ok l ∧ t.lookup l ≠ some .directory ∧ Grows t t' ∧
      (∃ data, t'.lookup l = some (.file number data)) ∧
      ∀ m, m ≠ l → t'.lookup m = t.lookup m := by
  unfold openFile at h
  split at h
  · cases h
  · next place hplace =>
      split at h
      · cases h
      · next found data hfile =>
          cases h
          exact ⟨hplace, by simp [hfile], fun _ hm => hm, ⟨data, hfile⟩, fun _ _ => rfl⟩
      · next hnone =>
          cases h
          have hfree : t.lookup l ≠ some .directory := by simp [hnone]
          exact ⟨hplace, hfree, grows_put_file hfree _ _,
            ⟨[], lookup_put_self t (ne_nil_of_lookup_ne hfree) _⟩,
            fun m hm => lookup_put_ne t hm _⟩

/-- Writing a file leaves it with the bytes written, and changes no other place. -/
theorem write_eq_ok {t t' : FileTree} {p : Path} {data : Bytes} (h : t.write p data = .ok t') :
    ∃ l number, t.resolve p = .ok l ∧ Grows t t' ∧ t'.lookup l = some (.file number data) ∧
      (∀ m, m ≠ l → t'.lookup m = t.lookup m) ∧ t'.put l (.file number data) = t' := by
  unfold write at h
  split at h
  · cases h
  · next l number opened hopen =>
      cases h
      obtain ⟨hplace, hfree, hgrows, ⟨before, hfile⟩, hothers⟩ := openFile_eq_ok hopen
      have hfree' : opened.lookup l ≠ some .directory := by simp [hfile]
      refine ⟨l, number, hplace, fun m hm => grows_put_file hfree' _ _ m (hgrows m hm),
        lookup_put_self opened (ne_nil_of_lookup_ne hfree) _, fun m hm => ?_, put_put opened l _ _⟩
      rw [lookup_put_ne opened hm, hothers m hm]

theorem read_of_lookup_file {t : FileTree} {p : Path} {l : Location} {number : FileNumber}
    {data : Bytes} (hl : t.resolve p = .ok l) (hfile : t.lookup l = some (.file number data)) :
    t.read p = .ok data := by
  simp only [read, find, hl, hfile]

theorem read_write {t t' : FileTree} {p : Path} {data : Bytes} (h : t.write p data = .ok t') :
    t'.read p = .ok data := by
  obtain ⟨l, number, hplace, hgrows, hfile, -⟩ := write_eq_ok h
  exact read_of_lookup_file (hgrows.resolve hplace) hfile

/-- Writing the same bytes once more changes nothing. -/
theorem write_again {t t' : FileTree} {p : Path} {data : Bytes} (h : t.write p data = .ok t') :
    t'.write p data = .ok t' := by
  obtain ⟨l, number, hplace, hgrows, hfile, -, hput⟩ := write_eq_ok h
  simp only [write, openFile, hgrows.resolve hplace, hfile, hput]

/-- Where a file was written, any other bytes can be written. -/
theorem exists_write_eq_ok {t t' : FileTree} {p : Path} {data : Bytes} (h : t.write p data = .ok t')
    (data' : Bytes) : ∃ t'', t'.write p data' = .ok t'' := by
  obtain ⟨l, number, hplace, hgrows, hfile, -⟩ := write_eq_ok h
  simp only [write, openFile, hgrows.resolve hplace, hfile]
  exact ⟨_, rfl⟩

/-- What is removed was a file, and nothing lies in its place afterwards. -/
theorem remove_eq_ok {t t' : FileTree} {p : Path} (h : t.remove p = .ok t') :
    ∃ l, t.resolve p = .ok l ∧ Grows t t' ∧ t'.lookup l = none ∧
      ∀ m, m ≠ l → t'.lookup m = t.lookup m := by
  unfold remove find at h
  split at h
  · cases h
  · cases h
  · next l number data hfind =>
      cases h
      split at hfind
      · cases hfind
      · next place hplace =>
          split at hfind
          · cases hfind
          · next e hentry =>
              cases hfind
              have hfree : t.lookup l ≠ some .directory := by simp [hentry]
              exact ⟨l, hplace, grows_erase hfree,
                lookup_erase_self t (ne_nil_of_lookup_ne hfree), fun m hm => lookup_erase_ne t hm⟩

end FileTree

end LiveDiagram
