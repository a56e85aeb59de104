import LiveDiagram.Proofs.Editor.StateDirectory
import LiveDiagram.Proofs.Files.Making
import LiveDiagram.Proofs.Files.Stored
import LiveDiagram.Proofs.Http.Routes

/-!
# Directories side by side

Processes with state directories of their own share one tree of files, and so do the gateways that
save preferences in it.  Two of them may be spelled differently and be the same, or lie one in the
other.  What keeps their owners apart is the last name of every place that is written: the port and the
preferences lie under names that no lock file has, and only the owner of a place writes the port there.

So what anyone does is described by what it leaves alone (`Respects`): for the owner of a directory it
is enough that no directory goes, that the lock file stays, and that the port is not touched.

## Main results

* `Housed.of_respects`: the files of a directory stay in their places.
* `respects_tryLock`, `respects_handle`: claims and requests respect every directory.
* `respects_publish`, `respects_withdraw`: an owner respects every directory but its own.
-/

namespace LiveDiagram.Instance

open FileTree

/-- A change of the files that does not concern the owner of the directory in this place. -/
structure Respects (base : Location) (t t' : FileTree) : Prop where
  grows : Grows t t'
  /-- What lies in the place of the lock file stays there. -/
  lock : ∀ e, t.lookup (base ++ [lockName]) = some e → t'.lookup (base ++ [lockName]) = some e
  port : t'.contents (base ++ [portName]) = t.contents (base ++ [portName])

section

variable {t t' t'' : FileTree} {base base' l : Location} {directory : Path} {file : FileNumber}

theorem Respects.refl (base : Location) (t : FileTree) : Respects base t t :=
  ⟨fun _ h => h, fun _ h => h, rfl⟩

theorem Respects.trans (h : Respects base t t') (h' : Respects base t' t'') :
    Respects base t t'' :=
  ⟨fun l hl => h'.grows l (h.grows l hl), fun e he => h'.lock e (h.lock e he), h'.port.trans h.port⟩

/-- The files of a directory that is respected stay in their places. -/
theorem Housed.of_respects (h : Housed t directory base file) (hrespects : Respects base t t') :
    Housed t' directory base file := by
  obtain ⟨data, hfile⟩ := h.lookup
  exact ⟨hrespects.grows.resolve h.place, data, hrespects.lock _ hfile⟩

/-! ## Changes in one place -/

/-- A change in a place that is neither that of the lock file nor that of the port. -/
theorem respects_of_lookup (hgrows : Grows t t') (hothers : ∀ m, m ≠ l → t'.lookup m = t.lookup m)
    (hlock : base ++ [lockName] ≠ l) (hport : base ++ [portName] ≠ l) : Respects base t t' := by
  refine ⟨hgrows, fun e he => ?_, ?_⟩
  · rw [hothers _ hlock, he]
  · simp only [contents, hothers _ hport]

/-- Directories that are added are in nobody's way. -/
theorem respects_of_adds {P : Location → Prop} (h : Adds P t t') (base : Location) :
    Respects base t t' := by
  refine ⟨h.grows, fun e he => ?_, ?_⟩
  · rcases h (base ++ [lockName]) with hsame | ⟨hnone, -⟩
    · rw [hsame, he]
    · rw [he] at hnone
      cases hnone
  · rcases h (base ++ [portName]) with hsame | ⟨hnone, hmade, -⟩
    · simp only [contents, hsame]
    · simp only [contents, hnone, hmade]

theorem concat_ne_of_name_ne {name name' : String} (h : name ≠ name') :
    base ++ [name] ≠ base' ++ [name'] := by
  intro heq
  exact h (List.cons.inj (List.append_inj' heq rfl).2).1

theorem concat_ne_of_base_ne (h : base ≠ base') (name name' : String) :
    base ++ [name] ≠ base' ++ [name'] := by
  intro heq
  exact h (List.append_inj' heq rfl).1

theorem lockName_ne_portName : lockName ≠ portName := by decide

theorem fileName_ne : lockName ≠ Preferences.fileName ∧ portName ≠ Preferences.fileName :=
  ⟨by decide, by decide⟩

/-! ## Claims -/

/-- A lock file that is opened was there, or nothing was. -/
theorem respects_openFile {opened : Location × FileNumber}
    (h : t.openFile (lockPath directory) = .ok (opened, t')) (base : Location) :
    Respects base t t' := by
  obtain ⟨l, number⟩ := opened
  obtain ⟨hplace, -, hgrows, -, hothers⟩ := openFile_eq_ok h
  obtain ⟨base', -, -, rfl⟩ := exists_of_resolve_entry isName_lockName hplace
  have hport : base ++ [portName] ≠ base' ++ [lockName] :=
    concat_ne_of_name_ne lockName_ne_portName.symm
  refine ⟨hgrows, fun e he => ?_, by simp only [contents, hothers _ hport]⟩
  by_cases hbase : base ++ [lockName] = base' ++ [lockName]
  · rw [hbase] at he ⊢
    simp only [openFile, hplace, he] at h
    cases e with
    | directory => cases h
    | file number data =>
        cases h
        exact he
  · rw [hothers _ hbase, he]

/-- A claim respects every directory, the one that it is made to included. -/
theorem respects_tryLock (d : Disk) (directory : Path) (base : Location) :
    Respects base d.files (tryLock d directory).2.files := by
  have hmade := respects_of_adds (adds_makeDirectories d.files directory) base
  unfold tryLock
  split
  · next files hfiles =>
      rw [hfiles] at hmade
      exact hmade
  · next files hfiles =>
      rw [hfiles] at hmade
      split
      · exact hmade
      · next hopen =>
          have hall := hmade.trans (respects_openFile hopen base)
          split <;> exact hall

end

/-! ## Owners -/

section

variable {d : Disk} {directory : Path} {base base' : Location} {file : FileNumber}

/-- Publishing respects every directory but the owner's own. -/
theorem respects_publish (h : Housed d.files directory base file) (hbase : base' ≠ base)
    (port : UInt16) :
    Respects base' d.files (publish d ⟨file, portPath directory⟩ port).2.files := by
  unfold publish
  split
  · exact .refl base' d.files
  · next files hwrite =>
      obtain ⟨l, number, hplace, hgrows, -, hothers, -⟩ := write_eq_ok hwrite
      obtain rfl : base ++ [portName] = l := Except.ok.inj (h.portPlace.symm.trans hplace)
      exact respects_of_lookup hgrows hothers (concat_ne_of_base_ne hbase _ _)
        (concat_ne_of_base_ne hbase _ _)

/-- Withdrawing respects every directory but the owner's own. -/
theorem respects_withdraw (h : Housed d.files directory base file) (hbase : base' ≠ base) :
    Respects base' d.files (withdraw d ⟨file, portPath directory⟩).files := by
  unfold withdraw
  split
  · exact .refl base' d.files
  · next files hremove =>
      obtain ⟨l, hplace, hgrows, -, hothers⟩ := remove_eq_ok hremove
      obtain rfl : base ++ [portName] = l := Except.ok.inj (h.portPlace.symm.trans hplace)
      exact respects_of_lookup hgrows hothers (concat_ne_of_base_ne hbase _ _)
        (concat_ne_of_base_ne hbase _ _)

end

/-! ## Requests -/

/-- Preferences are saved under a name of their own. -/
theorem respects_saveRaw (p : Preferences) (t : FileTree) (body : Bytes) (base : Location) :
    Respects base t (p.saveRaw t body).2 := by
  unfold Preferences.saveRaw
  split
  · exact .refl base t
  · have hmade := respects_of_adds (adds_makeDirectories t p.path.parent) base
    unfold Preferences.save
    split
    · next files hfiles =>
        rw [hfiles] at hmade
        exact hmade
    · next files hfiles =>
        rw [hfiles] at hmade
        split
        · exact hmade
        · next written hwrite =>
            obtain ⟨l, number, hplace, hgrows, -, hothers, -⟩ := write_eq_ok hwrite
            obtain ⟨base', -, -, rfl⟩ :=
              exists_of_resolve_entry Preferences.isName_fileName hplace
            exact hmade.trans (respects_of_lookup hgrows hothers
              (concat_ne_of_name_ne fileName_ne.1) (concat_ne_of_name_ne fileName_ne.2))

/-- Whatever a gateway is asked for, it respects every directory. -/
theorem respects_handle (g : Gateway) (r : Request) (base : Location) :
    Respects base g.files (g.handle r).2.files := by
  cases hopen : g.triggered with
  | true =>
      rw [Gateway.handle_triggered hopen]
      exact .refl base g.files
  | false =>
      rw [Gateway.snd_handle hopen]
      cases r.route with
      | writePreferences => exact respects_saveRaw g.preferences g.files r.body base
      | writeDocument =>
          have hfiles : (g.writeDocument r.body).2.files = g.files := by
            unfold Gateway.writeDocument
            split <;> rfl
          show Respects base g.files (g.writeDocument r.body).2.files
          rw [hfiles]
          exact .refl base g.files
      | _ => exact .refl base g.files

end LiveDiagram.Instance
