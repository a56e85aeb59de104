import LiveDiagram.Proofs.Files.Making
import LiveDiagram.Proofs.Files.Stored

/-!
# What saving leaves behind

A save checks the object, makes the state directory and writes the file, in this order, and nothing is
undone when a later step fails.  So the question is which step can fail behind one that has changed
something.  The check changes nothing, and the file is written last, so what may be left behind is
directories; the file itself is written or it is not.

Directories are left behind only if one was missing, and then everything behind it is new and cannot be
in the way.  What is left are names that are too long, which are not looked at as long as something above
them is missing, and `..`, which leads from what is new to what was there.

## Main results

* `adds_of_save_eq_error`, `eq_or_turnsBack_of_save_eq_error`: what a save that fails leaves behind.
* `read_ne_ok_of_save_eq_error`: the file could not be read before, and cannot be read now.
* `exists_changes_of_save_eq_ok`: what a save that succeeds changes.
-/

namespace LiveDiagram

open LiveDiagram.Path

/-- A beginning of the path leads to where nothing is, and the rest of it turns back. -/
def FileTree.TurnsBack (t : FileTree) (d : Path) : Prop :=
  ∃ front back l, d.parts = front ++ back ∧ t.resolve ⟨front⟩ = .ok l ∧ t.lookup l = none ∧
    ".." ∈ back

namespace FileTree

variable {t t' made : FileTree} {d q : Path} {base : Location} {name : String} {data : Bytes}

/-! ## Writing into a directory -/

theorem hasNul_of_idle {parts : List String} (h : ∀ part ∈ parts, isIdle part = true) :
    (Path.mk parts).hasNul = false := by
  refine List.any_eq_false.mpr fun part hpart => ?_
  have hidle := h part hpart
  simp only [isIdle, Bool.or_eq_true, decide_eq_true_eq] at hidle
  rcases hidle with rfl | rfl <;> decide

/-- An entry that is not there can be written, unless its path is too long. -/
theorem write_entry_of_free {parts idle : List String} (hparts : d.parts = parts ++ idle)
    (hidle : ∀ part ∈ idle, isIdle part = true) (hnul : (Path.mk parts).hasNul = false)
    (hbase : t.follow [] parts = .ok base) (hdirectory : t.lookup base = some .directory)
    (hname : IsName name) (hfree : t.lookup (base ++ [name]) = none) (data : Bytes) :
    t.write (d.entry name) data = .error .nameTooLong ∨ ∃ t', t.write (d.entry name) data = .ok t' := by
  obtain ⟨front, back, hsplit, hback, hentry⟩ := exists_parts_entry d
  have hall : t.follow [] d.parts = .ok base := by
    rw [hparts]
    exact follow_append_eq_ok_iff.mpr ⟨base, hbase, follow_idle hidle hdirectory⟩
  rw [hsplit] at hall
  obtain ⟨m, hm, hrest⟩ := follow_append_eq_ok_iff.mp hall
  have hbackIdle : ∀ part ∈ back, isIdle part = true := by
    rcases hback with rfl | rfl <;> simp [isIdle]
  obtain rfl := eq_of_follow_idle hbackIdle hrest
  have hfollow : t.follow [] (front ++ [name]) = .ok (base ++ [name]) :=
    follow_append_eq_ok_iff.mpr ⟨base, hm, (follow_name_eq_ok_iff hname).mpr ⟨hdirectory, rfl⟩⟩
  have hclean : (Path.mk (front ++ [name])).hasNul = false := by
    have hd : (Path.mk (front ++ back)).hasNul = false := by
      rw [← hsplit, hparts, hasNul_append, hnul, hasNul_of_idle hidle]
      rfl
    rw [hasNul_append, Bool.or_eq_false_iff] at hd
    rw [hasNul_append, hd.1, hname.clean]
    rfl
  rw [hentry]
  by_cases hlength : (Path.mk (front ++ [name])).text.utf8ByteSize < lengthLimit
  · have hresolve := (resolve_eq_follow (t := t) hclean hlength).trans hfollow
    right
    simp only [write, openFile, hresolve, hfree]
    exact ⟨_, rfl⟩
  · left
    have hresolve : t.resolve ⟨front ++ [name]⟩ = .error .nameTooLong := by
      rw [resolve, hclean, if_pos (Nat.not_lt.mp hlength)]
      rfl
    simp only [write, openFile, hresolve]

/-- What can be read can be written. -/
theorem exists_write_of_read (h : t.read q = .ok data) (data' : Bytes) :
    ∃ t', t.write q data' = .ok t' := by
  unfold read find at h
  split at h
  · cases h
  · cases h
  · next l number found hfind =>
      split at hfind
      · cases hfind
      · next place hplace =>
          split at hfind
          · cases hfind
          · next entry hentry =>
              cases hfind
              simp only [write, openFile, hplace, hentry]
              exact ⟨_, rfl⟩

end FileTree

namespace Preferences

open LiveDiagram.FileTree

variable {p : Preferences} {t t' : FileTree} {m : Json.Members} {e : Error}

/-- The path of the state directory, less idle parts at its end. -/
theorem parent_path (p : Preferences) : p.path.parent = ofReversed p.directory.parts.reverse :=
  parent_entry p.directory isName_fileName.steps

theorem parent_path_begins (p : Preferences) : p.path.parent.parts <+: p.directory.parts := by
  have hbegin := prefix_ofReversed p.directory.parts.reverse
  rwa [List.reverse_reverse, ← parent_path] at hbegin

/-! ## Saves that fail -/

/-- A save fails at one of its two steps, and leaves the directories that the first has made. -/
theorem save_eq_error (h : p.save t m = (.error e, t')) :
    ∃ cause, e = .io cause ∧ t' = (t.makeDirectories p.path.parent).2 ∧
      (t.makeDirectories p.path.parent = (.error cause, t') ∨
        t.makeDirectories p.path.parent = (.ok (), t') ∧ t'.write p.path m.write = .error cause) := by
  unfold save at h
  split at h
  · next cause made hmade =>
      cases h
      exact ⟨cause, rfl, by rw [hmade], .inl hmade⟩
  · next made hmade =>
      split at h
      · next cause hwrite =>
          cases h
          exact ⟨cause, rfl, by rw [hmade], .inr ⟨hmade, hwrite⟩⟩
      · cases h

/-- The directories that a save adds are on the way to the state directory. -/
theorem adds_of_save_eq_error (h : p.save t m = (.error e, t')) :
    Adds (OnTheWay t' p.directory) t t' := by
  obtain ⟨cause, -, rfl, -⟩ := save_eq_error h
  exact (adds_makeDirectories t p.path.parent).mono fun l hl =>
    hl.mono (fun _ h => h) p.parent_path_begins

/-- Where the way only goes down behind what is missing, a save fails only at something too long. -/
theorem eq_nameTooLong_of_missing (ht : t.IsTree) {front back idle : List String} {l : Location}
    (hdirectory : p.directory.parts = front ++ back ++ idle) (hidle : ∀ x ∈ idle, isIdle x = true)
    (hmake : t.makeDirectories p.path.parent = t.makeReversed (back.reverse ++ front.reverse))
    (hl : t.follow [] front = .ok l) (hnone : t.lookup l = none) (hdown : ".." ∉ back)
    (hnul : (Path.mk (front ++ back)).hasNul = false)
    (hlength : (Path.mk (front ++ back)).text.utf8ByteSize < lengthLimit)
    (h : p.save t m = (.error e, t')) : e = .io .nameTooLong := by
  obtain ⟨cause, rfl, -, hsteps⟩ := save_eq_error h
  rw [hmake] at hsteps
  rw [← List.reverse_reverse back] at hdirectory hdown hnul hlength
  have hdown := mt List.mem_reverse.mpr hdown
  rcases makeReversed_of_missing ht hl hnone hdown hnul hlength with
    ⟨base, made, hmade, hbelow⟩ | ⟨made, hmade⟩
  · rcases hsteps with hfailed | ⟨hdone, hwrite⟩
    · rw [hmade] at hfailed
      cases hfailed
    · rw [hmade] at hdone
      cases hdone
      have hfree := hbelow.lookup_concat_eq_none ht hnone fileName
      rcases write_entry_of_free hdirectory hidle hnul hbelow.follow hbelow.directory
        isName_fileName hfree m.write with hlong | ⟨written, hwritten⟩
      · rw [path, hlong] at hwrite
        cases hwrite
        rfl
      · rw [path, hwritten] at hwrite
        cases hwrite
  · rcases hsteps with hfailed | ⟨hdone, -⟩
    · rw [hmade] at hfailed
      cases hfailed
      rfl
    · rw [hmade] at hdone
      cases hdone

/-- **A save that fails changes nothing**, unless something is too long or the path of the state
directory turns back behind a directory that is missing. -/
theorem eq_or_turnsBack_of_save_eq_error (ht : t.IsTree) (h : p.save t m = (.error e, t')) :
    t' = t ∨ e = .io .nameTooLong ∨ t.TurnsBack p.directory := by
  obtain ⟨cause, -, htree, -⟩ := save_eq_error h
  have hparent := p.parent_path
  rcases ofReversed_cases p.directory.parts.reverse with hroot | ⟨outer, part, hidle, hlast⟩
  · -- The root is there.
    rw [hparent, hroot, makeDirectories_of_isDirectory rfl] at htree
    exact .inl htree
  rw [hlast] at hparent
  rw [hparent] at htree
  rcases eq_or_missing (t := t) hidle with
    hsame | ⟨hnul, hlength, front, back, l, hsplit, hl, hnone⟩
  · exact .inl (htree.trans hsame)
  right
  obtain ⟨idle, hdirectory, hidleParts⟩ := exists_append_ofReversed p.directory.parts
  rw [hlast, hsplit] at hdirectory
  by_cases hdown : ".." ∈ back
  · right
    refine ⟨front, back ++ idle, l, ?_, ?_, hnone, List.mem_append_left _ hdown⟩
    · rw [hdirectory, List.append_assoc]
    · rw [hsplit, hasNul_append, Bool.or_eq_false_iff] at hnul
      rw [hsplit] at hlength
      exact (resolve_eq_follow hnul.1
        (Nat.lt_of_le_of_lt (size_le_append front back) hlength)).trans hl
  · left
    have hmake : t.makeDirectories p.path.parent =
        t.makeReversed (back.reverse ++ front.reverse) := by
      rw [hparent, ← List.reverse_append, ← hsplit, List.reverse_append, List.reverse_singleton,
        List.singleton_append, ← makeDirectories_ofReversed, ofReversed_cons hidle,
        List.reverse_reverse]
    rw [hsplit] at hnul hlength
    exact eq_nameTooLong_of_missing ht hdirectory hidleParts hmake hl hnone hdown hnul hlength h

/-- A name that is too long is looked at only when the directory above it has been made. -/
theorem save_of_long_name (ht : t.IsTree) {outer name : String} (houter : IsName outer)
    (hnone : t.lookup [outer] = none) (hidle : isIdle name = false) (hup : name ≠ "..")
    (hlong : nameLimit < name.utf8ByteSize) (hnul : (Path.mk [outer, name]).hasNul = false)
    (hlength : (Path.mk [outer, name]).text.utf8ByteSize < lengthLimit) (m : Json.Members) :
    save ⟨⟨[outer, name]⟩⟩ t m = (.error (.io .nameTooLong), t.put [outer] .directory) := by
  have hfollow : ∀ u : FileTree, u.follow [] [outer] = .ok [outer] := fun u =>
    (follow_name_eq_ok_iff houter).mpr ⟨rfl, rfl⟩
  have hmissing : t.makeDirectory ⟨[outer] ++ [] ++ [name]⟩ = .error .notFound :=
    makeDirectory_eq_notFound (hfollow t) hnone hidle hnul hlength
  have hfirst : t.makeReversed [outer] = (.ok (), t.put [outer] .directory) := by
    have hshort := Nat.lt_of_le_of_lt (size_le_append [outer] [name]) hlength
    have hmade : t.makeDirectory ⟨[] ++ [outer]⟩ = .ok (t.put [outer] .directory) := by
      rw [makeDirectory_concat t [] houter.steps, List.nil_append,
        resolve_eq_follow houter.clean hshort]
      simp only [hfollow, hnone]
    rw [makeReversed_cons houter.steps, List.reverse_nil, hmade]
    simp only [settleDirectory, hmade]
  have hdirectory : (t.put [outer] .directory).lookup [outer] = some .directory :=
    lookup_put_self t (by simp) _
  have hfree : (t.put [outer] .directory).lookup [outer, name] = none := by
    rw [lookup_put_ne t (by simp)]
    exact ht.lookup_append_eq_none hnone [name]
  have hsettle : (t.put [outer] .directory).settleDirectory ⟨[outer, name]⟩ =
      (.error .nameTooLong, t.put [outer] .directory) :=
    (settleDirectory_concat (hfollow _) hdirectory hfree hidle hup hnul hlength).trans (if_pos hlong)
  have hmade : t.makeReversed [name, outer] = (.error .nameTooLong, t.put [outer] .directory) := by
    rw [makeReversed_cons hidle]
    rw [List.append_nil] at hmissing
    simp only [List.reverse_singleton, hmissing, hfirst]
    exact hsettle
  rw [save, parent_path, makeDirectories_ofReversed]
  simp only [List.reverse_cons, List.reverse_nil, List.nil_append, List.singleton_append, hmade]

/-- **If a save fails, the file could not be read before, and it cannot be read now.** -/
theorem read_ne_ok_of_save_eq_error (h : p.save t m = (.error e, t')) (data : Bytes) :
    t.read p.path ≠ .ok data ∧ t'.read p.path ≠ .ok data := by
  obtain ⟨cause, rfl, -, hsteps⟩ := save_eq_error h
  -- Where the file can be read, the directory is there, and the file can be written.
  have hthere : ∀ u : FileTree, u.read p.path = .ok data → u.isDirectory p.path.parent = true := by
    intro u hread
    obtain ⟨written, hwrite⟩ := exists_write_of_read hread []
    obtain ⟨l, number, hl, -⟩ := write_eq_ok hwrite
    exact isDirectory_parent_entry isName_fileName hl
  constructor
  · intro hread
    obtain ⟨written, hwrite⟩ := exists_write_of_read hread m.write
    rw [save, makeDirectories_of_isDirectory (hthere t hread)] at h
    simp only [hwrite] at h
    cases h
  · intro hread
    obtain ⟨written, hwritten⟩ := exists_write_of_read hread m.write
    rcases hsteps with hfailed | ⟨-, hwrite⟩
    · have hparent := hthere t' hread
      rw [p.parent_path, makeDirectories_ofReversed] at hfailed
      rw [p.parent_path, isDirectory_eq_false_of_makeReversed hfailed] at hparent
      cases hparent
    · rw [hwritten] at hwrite
      cases hwrite

/-! ## Saves that succeed -/

/-- **A save that succeeds writes the file**, and adds directories on the way to the state directory. -/
theorem exists_changes_of_save_eq_ok (h : p.save t m = (.ok (), t')) :
    ∃ l number, t'.resolve p.path = .ok l ∧ t.lookup l ≠ some .directory ∧
      t'.lookup l = some (.file number m.write) ∧
      ∀ k, k ≠ l → t'.lookup k = t.lookup k ∨
        t.lookup k = none ∧ t'.lookup k = some .directory ∧ OnTheWay t' p.directory k := by
  have hadds := adds_makeDirectories t p.path.parent
  unfold save at h
  split at h
  · cases h
  · next made hmade =>
      rw [hmade] at hadds
      split at h
      · cases h
      · next written hwrite =>
          cases h
          obtain ⟨l, number, hplace, hgrows, hfile, hothers, -⟩ := write_eq_ok hwrite
          refine ⟨l, number, hgrows.resolve hplace, fun hdirectory => ?_, hfile, fun k hk => ?_⟩
          · rw [hgrows l (hadds.grows l hdirectory)] at hfile
            cases hfile
          · rw [hothers k hk]
            exact (hadds k).imp_right fun ⟨hnone, hdirectory, hway⟩ =>
              ⟨hnone, hdirectory, hway.mono hgrows p.parent_path_begins⟩

/-- What is wrong with a text is seen before anything is made. -/
theorem saveRaw_eq_error {body : Bytes} (h : p.saveRaw t body = (.error e, t')) :
    (∃ cause, e = .invalidJson cause ∧ t' = t) ∨ ∃ m, p.save t m = (.error e, t') := by
  unfold saveRaw at h
  split at h
  · next cause hparse =>
      cases h
      exact .inl ⟨cause, rfl, rfl⟩
  · next m hparse => exact .inr ⟨m, h⟩

/-- Saving keeps a tree one. -/
theorem isTree_save (ht : t.IsTree) (p : Preferences) (m : Json.Members) :
    (p.save t m).2.IsTree := by
  have hmade := ht.makeDirectories p.path.parent
  unfold save
  split
  · next made heq => rwa [heq] at hmade
  · next made heq =>
      rw [heq] at hmade
      split
      · exact hmade
      · next written hwrite => exact hmade.write hwrite

theorem isTree_saveRaw (ht : t.IsTree) (p : Preferences) (body : Bytes) :
    (p.saveRaw t body).2.IsTree := by
  unfold saveRaw
  split
  · exact ht
  · next m hparse => exact isTree_save ht p m

end Preferences

end LiveDiagram
