import LiveDiagram.Editor.Instance
import LiveDiagram.Proofs.Files.Paths

/-!
# The two files of a state directory

A state directory that has been claimed once holds the file that is locked, and from then on it is
known where that file and the port lie: side by side in the place to which the directory's path
leads.  Nothing that an owner does to the port concerns the lock file, and a further claim finds
everything in its place and makes nothing new.

So each operation is described by what it does to one place, that of the port (`Housed` says where),
and by what it does to the list of locks.

## Main results

* `portOfFile?_numeral`: a port reads back as it is published.
* `tryLock_of_housed`: a further claim only looks at the lock.
* `publish_of_housed`, `withdraw_of_housed`: what an owner does to the port.
-/

namespace LiveDiagram.Instance

open LiveDiagram.Ascii FileTree

/-! ## Ports as they are written -/

/-- No digit is a blank. -/
theorem isBlank_of_isDigit {b : UInt8} (h : isDigit b = true) :
    isBlank (Char.ofNat b.toNat) = false := by
  refine forall_lt (P := fun b => isDigit b = true → isBlank (Char.ofNat b.toNat) = false) ?_
    (k := 0x80) (by have := toNat_of_isDigit h; omega) h
  decide +kernel

theorem dropWhile_eq_self {cs : List Char} (h : ∀ c ∈ cs, isBlank c = false) :
    cs.dropWhile isBlank = cs := by
  cases cs with
  | nil => rfl
  | cons c cs => exact List.dropWhile_cons_of_neg (by simp [h c List.mem_cons_self])

theorem trim_eq_self {cs : List Char} (h : ∀ c ∈ cs, isBlank c = false) : trim cs = cs := by
  rw [trim, dropWhile_eq_self h, dropWhile_eq_self fun c hc => h c (List.mem_reverse.mp hc),
    List.reverse_reverse]

theorem port?_numeral (port : UInt16) : port? (Decimal.numeral port.toNat) = some port := by
  obtain ⟨d, ds, hcons⟩ := List.exists_cons_of_ne_nil (Decimal.numeral_ne_nil port.toNat)
  have hd : isDigit d = true :=
    Decimal.isDigit_of_mem_numeral (n := port.toNat) (hcons ▸ List.mem_cons_self)
  have hplus : d ≠ plus := by
    rintro rfl
    cases hd
  have hread := Decimal.read?_numeral port.toNat
  have hfits : decide (port.toNat < UInt16.size) = true := decide_eq_true port.toNat_lt
  rw [hcons] at hread ⊢
  simp only [port?, if_neg hplus, hread, Option.filter_some, hfits, if_true, Option.map_some,
    UInt16.ofNat_toNat]

/-- A port reads back as it is published. -/
theorem portOfFile?_numeral (port : UInt16) :
    portOfFile? (Decimal.numeral port.toNat) = some port := by
  have hdigits : ∀ x ∈ Decimal.numeral port.toNat, isDigit x = true := fun x hx =>
    Decimal.isDigit_of_mem_numeral hx
  have hencode : Utf8.encode (text (Decimal.numeral port.toNat)) = Decimal.numeral port.toNat :=
    encode_text fun x hx => by
      have := toNat_of_isDigit (hdigits x hx)
      omega
  have hdecode : Utf8.decode? (Decimal.numeral port.toNat) =
      some (text (Decimal.numeral port.toNat)) :=
    Utf8.decode?_eq_some_iff.mpr hencode.symm
  have htrim : trim (text (Decimal.numeral port.toNat)).toList =
      (text (Decimal.numeral port.toNat)).toList := by
    refine trim_eq_self fun c hc => ?_
    rw [text, String.toList_ofList] at hc
    obtain ⟨x, hx, rfl⟩ := List.mem_map.mp hc
    exact isBlank_of_isDigit (hdigits x hx)
  rw [portOfFile?, hdecode, Option.bind_some, htrim, String.ofList_toList, hencode, port?_numeral]

/-! ## Where the files lie -/

theorem isName_lockName : Path.IsName lockName :=
  ⟨by decide +kernel, by decide +kernel, by decide +kernel, by decide +kernel⟩

theorem isName_portName : Path.IsName portName :=
  ⟨by decide +kernel, by decide +kernel, by decide +kernel, by decide +kernel⟩

/-- The file that is locked lies in its place, and has this number. -/
structure Housed (t : FileTree) (directory : Path) (base : Location) (file : FileNumber) : Prop where
  place : t.resolve (lockPath directory) = .ok (base ++ [lockName])
  lookup : ∃ data, t.lookup (base ++ [lockName]) = some (.file file data)

theorem portPlace_ne_lockPlace (base : Location) : base ++ [portName] ≠ base ++ [lockName] := by
  intro h
  have hlast := List.append_cancel_left h
  simp [portName, lockName] at hlast

section

variable {t t' : FileTree} {directory : Path} {base : Location} {file : FileNumber}

/-- The port that is read is the one that the file in its place says. -/
theorem publishedPort?_of_resolve {l : Location} (h : t.resolve (portPath directory) = .ok l) :
    publishedPort? t directory = (t.contents l).bind fun f => portOfFile? f.2 := by
  simp only [publishedPort?, FileTree.read, find, h, contents]
  cases t.lookup l with
  | none => rfl
  | some e => cases e <;> rfl

theorem Housed.isDirectory (h : Housed t directory base file) : t.isDirectory directory = true := by
  obtain ⟨l, hl, hdir, -⟩ := exists_of_resolve_entry isName_lockName h.place
  exact isDirectory_eq_true_iff.mpr ⟨l, hl, hdir⟩

/-- The port lies beside the lock file. -/
theorem Housed.portPlace (h : Housed t directory base file) :
    t.resolve (portPath directory) = .ok (base ++ [portName]) :=
  resolve_entry_of_le isName_lockName isName_portName (by decide +kernel) h.place

theorem Housed.of_grows (h : Housed t directory base file) (hgrows : Grows t t')
    (hsame : t'.lookup (base ++ [lockName]) = t.lookup (base ++ [lockName])) :
    Housed t' directory base file :=
  ⟨hgrows.resolve h.place, hsame ▸ h.lookup⟩

theorem Housed.publishedPort?_eq (h : Housed t directory base file) :
    publishedPort? t directory =
      (t.contents (base ++ [portName])).bind fun f => portOfFile? f.2 :=
  publishedPort?_of_resolve h.portPlace

theorem Housed.read_eq_ok_iff (h : Housed t directory base file) {data : Bytes} :
    t.read (portPath directory) = .ok data ↔
      ∃ number, t.contents (base ++ [portName]) = some (number, data) := by
  simp only [FileTree.read, find, h.portPlace, contents]
  cases t.lookup (base ++ [portName]) with
  | none => simp
  | some e => cases e <;> simp

/-- Where no file is, there is nothing, or a directory. -/
theorem Housed.vacant (h : Housed t directory base file)
    (hnone : t.contents (base ++ [portName]) = none) :
    t.exists? (portPath directory) = false ∨ t.isDirectory (portPath directory) = true := by
  simp only [exists?, FileTree.isDirectory, find, h.portPlace]
  simp only [contents] at hnone
  cases hlookup : t.lookup (base ++ [portName]) with
  | none => exact Or.inl rfl
  | some e =>
      cases e with
      | directory => exact Or.inr rfl
      | file number data =>
          rw [hlookup] at hnone
          cases hnone

end

/-! ## Claiming -/

/-- A claim to a directory whose files are in place looks at the lock and changes no file. -/
theorem tryLock_of_housed {d : Disk} {directory : Path} {base : Location} {file : FileNumber}
    (h : Housed d.files directory base file) :
    tryLock d directory =
      if file ∈ d.locked then (.ok none, d)
      else (.ok (some ⟨file, portPath directory⟩), ⟨d.files, file :: d.locked⟩) := by
  obtain ⟨data, hfile⟩ := h.lookup
  have hopen : d.files.openFile (lockPath directory) =
      .ok ((base ++ [lockName], file), d.files) := by
    simp only [openFile, h.place, hfile]
  simp only [tryLock, makeDirectories_of_isDirectory h.isDirectory, hopen]

/-- A claim fails and changes no file, or it leaves the files of the directory in place and changes
no other file. -/
theorem tryLock_cases (d : Disk) (directory : Path) :
    (∃ e files, tryLock d directory = (.error (.io e), { d with files }) ∧
      files.contents = d.files.contents) ∨
    ∃ files base file, Housed files directory base file ∧
      (∀ l, l ≠ base ++ [lockName] → files.contents l = d.files.contents l) ∧
      tryLock d directory =
        if file ∈ d.locked then (.ok none, { d with files })
        else (.ok (some ⟨file, portPath directory⟩), ⟨files, file :: d.locked⟩) := by
  have hmade := contents_makeDirectories d.files directory
  unfold tryLock
  split
  · next e files hfiles =>
      rw [hfiles] at hmade
      exact Or.inl ⟨e, files, rfl, hmade⟩
  · next files hfiles =>
      rw [hfiles] at hmade
      split
      · next e hopen => exact Or.inl ⟨e, files, rfl, hmade⟩
      · next l file opened hopen =>
          obtain ⟨hplace, -, hgrows, hfile, hothers⟩ := openFile_eq_ok hopen
          obtain ⟨base, -, -, rfl⟩ := exists_of_resolve_entry isName_lockName hplace
          refine Or.inr ⟨opened, base, file, ⟨hgrows.resolve hplace, hfile⟩, fun m hm => ?_, rfl⟩
          rw [← hmade]
          simp only [contents, hothers m hm]

/-! ## What an owner does to the port -/

section

variable {d : Disk} {directory : Path} {base : Location} {file : FileNumber}

/-- Publishing fails and changes nothing, or the port is in its place. -/
theorem publish_of_housed (h : Housed d.files directory base file) (port : UInt16) :
    (∃ e, publish d ⟨file, portPath directory⟩ port = (.error e, d)) ∨
    ∃ files number, publish d ⟨file, portPath directory⟩ port = (.ok (), { d with files }) ∧
      Housed files directory base file ∧
      files.contents (base ++ [portName]) = some (number, Decimal.numeral port.toNat) := by
  unfold publish
  split
  · next e hwrite => exact Or.inl ⟨.io e, rfl⟩
  · next files hwrite =>
      obtain ⟨l, number, hplace, hgrows, hfile, hothers, -⟩ := write_eq_ok hwrite
      obtain rfl : base ++ [portName] = l := by
        have := h.portPlace
        rw [hplace] at this
        exact (Except.ok.inj this).symm
      refine Or.inr ⟨files, number, rfl, h.of_grows hgrows ?_, ?_⟩
      · exact hothers _ (portPlace_ne_lockPlace base).symm
      · simp only [contents, hfile]

/-- Withdrawing leaves no file in the port's place. -/
theorem withdraw_of_housed (h : Housed d.files directory base file) :
    ∃ files, withdraw d ⟨file, portPath directory⟩ = { d with files } ∧
      Housed files directory base file ∧ files.contents (base ++ [portName]) = none := by
  unfold withdraw
  split
  · next e hremove =>
      refine ⟨d.files, rfl, h, ?_⟩
      simp only [remove, find, h.portPlace] at hremove
      simp only [contents]
      cases hlookup : d.files.lookup (base ++ [portName]) with
      | none => rfl
      | some entry =>
          cases entry with
          | directory => rfl
          | file number data =>
              rw [hlookup] at hremove
              cases hremove
  · next files hremove =>
      obtain ⟨l, hplace, hgrows, hgone, hothers⟩ := remove_eq_ok hremove
      obtain rfl : base ++ [portName] = l := by
        have := h.portPlace
        rw [hplace] at this
        exact (Except.ok.inj this).symm
      refine ⟨files, rfl, h.of_grows hgrows ?_, ?_⟩
      · exact hothers _ (portPlace_ne_lockPlace base).symm
      · simp only [contents, hgone]

end

end LiveDiagram.Instance
