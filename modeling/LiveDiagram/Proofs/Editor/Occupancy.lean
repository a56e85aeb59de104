import LiveDiagram.Proofs.Editor.Machine

/-!
# Owners and their directories

An owner of a directory goes by the place of the directory and the number of its lock file.  As long as
it lives, the lock file lies in that place and is locked once, so nobody else can come to own a
directory in the same place, however that is spelled.  That is all it takes for owners to leave each
other alone: they write into directories in different places.

What the port's place holds depends on how far the owner has come (`Phase.Fits`).  Before the owner
serves nothing is said about it: a port that someone left behind may lie there, or a directory.

## Main results

* `Owns.onward`, `Owns.port_cases`: what a step of an owner means to its own directory.
* `Orderly.respects`: what a move means to all directories but that of the owner that makes it.
* `orderly_of_reachable`: after every schedule, the directories of all owners are in order, and no two
  owners have the same lock.
-/

namespace LiveDiagram

namespace Instance

/-- The bytes of the file in the port's place, if there is one. -/
def portIn (t : FileTree) (base : Location) : Option Bytes :=
  (t.contents (base ++ [portName])).map Prod.snd

theorem Respects.portIn_eq {t t' : FileTree} {base : Location} (h : Respects base t t') :
    portIn t' base = portIn t base := by
  rw [portIn, h.port, portIn]

section

variable {d d' : Disk} {directory : Path} {lock : InstanceLock}

/-- A claim that gets the lock finds it free, and the files in their places. -/
theorem owned_of_tryLock (h : tryLock d directory = (.ok (some lock), d')) :
    lock.file ∉ d.locked ∧ d'.locked = lock.file :: d.locked ∧
      lock.portPath = portPath directory ∧ ∃ base, Housed d'.files directory base lock.file := by
  rcases tryLock_cases d directory with ⟨e, files, htry, -⟩ | ⟨files, base, file, hhoused, -, htry⟩
  · rw [htry] at h
    cases h
  · rw [htry] at h
    by_cases hlocked : file ∈ d.locked
    · rw [if_pos hlocked] at h
      cases h
    · rw [if_neg hlocked] at h
      cases h
      exact ⟨hlocked, rfl, rfl, base, hhoused⟩

theorem respects_of_tryLock {result : Except Error (Option InstanceLock)}
    (h : tryLock d directory = (result, d')) (base : Location) : Respects base d.files d'.files := by
  have hall := respects_tryLock d directory base
  rw [h] at hall
  exact hall

/-- A claim that does not get the lock locks nothing. -/
theorem locked_of_tryLock {result : Except Error (Option InstanceLock)}
    (h : tryLock d directory = (result, d')) (hresult : ∀ lock, result ≠ .ok (some lock)) :
    d'.locked = d.locked := by
  rcases tryLock_cases d directory with ⟨e, files, htry, -⟩ | ⟨files, base, file, -, -, htry⟩
  · rw [htry] at h
    cases h
    rfl
  · rw [htry] at h
    split at h
    · cases h
      rfl
    · cases h
      exact absurd rfl (hresult _)

theorem locked_publish (d : Disk) (lock : InstanceLock) (port : UInt16) :
    (publish d lock port).2.locked = d.locked := by
  unfold publish
  split <;> rfl

theorem locked_withdraw (d : Disk) (lock : InstanceLock) :
    (withdraw d lock).locked = d.locked := by
  unfold withdraw
  split <;> rfl

end

end Instance

namespace Machine

open Instance

/-- What an owner that has come this far finds in its port's place. -/
def Phase.Fits (lock : InstanceLock) (port : Option Bytes) : Phase → Prop
  | .serving e => e.lock = lock ∧ port = some (Decimal.numeral e.address.port.toNat)
  | .withdrawn => port = none
  | _ => True

/-- The directory of an owner is in order. -/
structure Owns (d : Disk) (settings : Settings) (lock : InstanceLock) (phase : Phase)
    (base : Location) : Prop where
  housed : Housed d.files (home settings) base lock.file
  portPath : lock.portPath = Instance.portPath (home settings)
  locked : d.locked.count lock.file = 1
  fits : phase.Fits lock (portIn d.files base)

section

variable {d d' : Disk} {settings settings' : Settings} {lock lock' : InstanceLock}
  {phase phase' : Phase} {base base' : Location} {y : Step} {next : Option Phase}

/-! ## What an owner leaves alone -/

/-- The lock, as the operations on its directory name it. -/
theorem Owns.lock_eq (h : Owns d settings lock phase base) :
    lock = ⟨lock.file, Instance.portPath (home settings)⟩ := by
  rw [← h.portPath]

theorem Owns.mem_locked (h : Owns d settings lock phase base) : lock.file ∈ d.locked := by
  apply List.count_pos_iff.mp
  rw [h.locked]
  exact Nat.one_pos

/-- A directory is in order after a change that respects it and locks as often. -/
theorem Owns.of_respects (h : Owns d settings lock phase base)
    (hfiles : Respects base d.files d'.files)
    (hlocked : d'.locked.count lock.file = d.locked.count lock.file) :
    Owns d' settings lock phase base where
  housed := h.housed.of_respects hfiles
  portPath := h.portPath
  locked := hlocked.trans h.locked
  fits := hfiles.portIn_eq ▸ h.fits

/-- Directories with different lock files lie in different places. -/
theorem base_ne_of_file_ne {directory directory' : Path} {file file' : FileNumber}
    (h : Housed d.files directory base file) (h' : Housed d.files directory' base' file')
    (hne : file ≠ file') : base ≠ base' := by
  rintro rfl
  obtain ⟨data, hfile⟩ := h.lookup
  obtain ⟨data', hfile'⟩ := h'.lookup
  rw [hfile] at hfile'
  exact hne (Entry.file.inj (Option.some.inj hfile')).1

/-- A step of an owner respects every directory but its own. -/
theorem Owns.respects (h : Owns d settings lock phase base)
    (hworks : Works settings lock d phase y d' next) (hbase : base' ≠ base) :
    Respects base' d.files d'.files := by
  have hpublish := respects_publish h.housed hbase
  have hwithdraw := respects_withdraw h.housed hbase
  rw [← h.lock_eq] at hpublish hwithdraw
  cases hworks with
  | @published address d' hdone =>
      have hall := hpublish address.port
      rw [hdone] at hall
      exact hall
  | @unpublished address e d' hfailed =>
      have hall := hpublish address.port
      rw [hfailed] at hall
      exact hall
  | @answered e r answer gateway hhandle =>
      have hall := respects_handle { e.gateway with files := d.files } r base'
      rw [hhandle] at hall
      exact hall
  | withdrew => exact hwithdraw
  | _ => exact .refl base' d.files

/-- An owner gives up no lock but its own, and takes none. -/
theorem Works.count_eq (hworks : Works settings lock d phase y d' next) {file : FileNumber}
    (hfile : file ≠ lock.file) : d'.locked.count file = d.locked.count file := by
  cases hworks with
  | @published address d' hdone =>
      have hlocked := locked_publish d lock address.port
      rw [hdone] at hlocked
      rw [← hlocked]
  | @unpublished address e d' hfailed =>
      have hlocked := locked_publish d lock address.port
      rw [hfailed] at hlocked
      rw [← hlocked]
  | withdrew => rw [locked_withdraw]
  | abandoned => exact List.count_erase_of_ne hfile
  | killed phase => exact List.count_erase_of_ne hfile
  | _ => rfl

/-! ## What it does in its own directory -/

/-- Publishing fails and changes nothing, or the port is in its place. -/
theorem Owns.publish_cases (h : Owns d settings lock phase base) (port : UInt16) :
    (∃ e, Instance.publish d lock port = (.error e, d)) ∨
      ∃ files, Instance.publish d lock port = (.ok (), { d with files }) ∧
        Housed files (home settings) base lock.file ∧
        portIn files base = some (Decimal.numeral port.toNat) := by
  rw [h.lock_eq]
  refine (publish_of_housed h.housed port).imp_right ?_
  rintro ⟨files, number, hpublish, hhoused, hport⟩
  exact ⟨files, hpublish, hhoused, by rw [portIn, hport]; rfl⟩

/-- After a step that is not its last, the directory of an owner is in order again. -/
theorem Owns.onward (h : Owns d settings lock phase base)
    (hworks : Works settings lock d phase y d' (some phase')) :
    Owns d' settings lock phase' base := by
  cases hworks with
  | bound hbind => exact ⟨h.housed, h.portPath, h.locked, trivial⟩
  | unbound hbind => exact ⟨h.housed, h.portPath, h.locked, trivial⟩
  | @published address d' hdone =>
      rcases h.publish_cases address.port with ⟨e, hfailed⟩ | ⟨files, hpublish, hhoused, hport⟩
      · rw [hfailed] at hdone
        cases hdone
      · rw [hpublish] at hdone
        cases hdone
        exact ⟨hhoused, h.portPath, h.locked, rfl, hport⟩
  | @unpublished address e d' hfailed =>
      rcases h.publish_cases address.port with ⟨e, hpublish⟩ | ⟨files, hpublish, -⟩
      · rw [hpublish] at hfailed
        cases hfailed
        exact ⟨h.housed, h.portPath, h.locked, trivial⟩
      · rw [hpublish] at hfailed
        cases hfailed
  | @answered e r answer gateway hhandle =>
      have hall := respects_handle { e.gateway with files := d.files } r base
      rw [hhandle] at hall
      exact ⟨h.housed.of_respects hall, h.portPath, h.locked, h.fits.1, hall.portIn_eq.trans h.fits.2⟩
  | interrupted e => exact ⟨h.housed, h.portPath, h.locked, h.fits.1, h.fits.2⟩
  | stopped htriggered => exact ⟨h.housed, h.portPath, h.locked, trivial⟩
  | gaveUp e => exact ⟨h.housed, h.portPath, h.locked, trivial⟩
  | withdrew =>
      obtain ⟨files, hgone, hhoused, hnone⟩ := withdraw_of_housed h.housed
      rw [← h.lock_eq] at hgone
      rw [hgone]
      exact ⟨hhoused, h.portPath, h.locked, by rw [Phase.Fits, portIn, hnone]; rfl⟩

/-- The last step of an owner gives the lock up and touches no file. -/
theorem Works.last (hworks : Works settings lock d phase y d' none) :
    d' = Instance.abandon d lock := by
  cases hworks with
  | abandoned => rfl
  | killed phase => rfl

/-- Whatever an owner does, the lock file stays in its place. -/
theorem Owns.housed_of_works (h : Owns d settings lock phase base)
    (hworks : Works settings lock d phase y d' next) :
    Housed d'.files (home settings) base lock.file := by
  cases next with
  | some phase' => exact (h.onward hworks).housed
  | none =>
      rw [hworks.last]
      exact h.housed

theorem Owns.notMem_abandon (h : Owns d settings lock phase base) :
    lock.file ∉ (Instance.abandon d lock).locked := by
  apply List.count_eq_zero.mp
  show (d.locked.erase lock.file).count lock.file = 0
  rw [List.count_erase_self, h.locked]

/-- **What an owner does to its port**: it publishes the one on which it has come to listen, it takes
it away, or it leaves it as it is. -/
theorem Owns.port_cases (h : Owns d settings lock phase base)
    (hworks : Works settings lock d phase y d' next) :
    portIn d'.files base = portIn d.files base ∨
      (∃ address, phase = .listening address ∧ y = .published address.port (.ok ()) ∧
        portIn d'.files base = some (Decimal.numeral address.port.toNat)) ∨
      y = .withdrew ∧ portIn d'.files base = none := by
  cases hworks with
  | @published address d' hdone =>
      have hfits := (h.onward (.published hdone)).fits
      exact Or.inr (Or.inl ⟨address, rfl, rfl, hfits.2⟩)
  | @unpublished address e d' hfailed =>
      rcases h.publish_cases address.port with ⟨e, hpublish⟩ | ⟨files, hpublish, -⟩
      · rw [hpublish] at hfailed
        cases hfailed
        exact Or.inl rfl
      · rw [hpublish] at hfailed
        cases hfailed
  | @answered e r answer gateway hhandle =>
      have hall := respects_handle { e.gateway with files := d.files } r base
      rw [hhandle] at hall
      exact Or.inl hall.portIn_eq
  | withdrew => exact Or.inr (Or.inr ⟨rfl, (h.onward .withdrew).fits⟩)
  | _ => exact Or.inl rfl

end

/-! ## All owners of a machine -/

/-- The directories of all owners are in order, and no two owners have the same lock. -/
structure Orderly (x : Machine) : Prop where
  owns : ∀ p settings lock phase, x.stage p = .owner settings lock phase →
    ∃ base, Owns x.disk settings lock phase base
  apart : ∀ p q settings settings' lock lock' phase phase', p ≠ q →
    x.stage p = .owner settings lock phase → x.stage q = .owner settings' lock' phase' →
      lock.file ≠ lock'.file

section

variable {x x' : Machine} {y : Process × Step}

/-- A claim that gets a lock finds it free. -/
theorem Moves.free_of_owned {p : Process} {directory : Path} {lock : InstanceLock}
    (h : Moves x (p, .owned directory lock) x') : lock.file ∉ x.disk.locked := by
  cases h with
  | owned idle htry => exact (owned_of_tryLock htry).1
  | worked owner works => cases works

/-- A move respects every directory but that of the owner that makes it.  And if it is not a claim to
that directory either, it leaves the lock alone. -/
theorem Orderly.respects (h : Orderly x) (hmove : Moves x y x') {directory : Path} {base : Location}
    {file : FileNumber} (hhoused : Housed x.disk.files directory base file)
    (howner : ∀ settings lock phase, x.stage y.1 = .owner settings lock phase → file ≠ lock.file)
    (hclaim : ∀ directory lock, y.2 = .owned directory lock → file ≠ lock.file) :
    Respects base x.disk.files x'.disk.files ∧
      x'.disk.locked.count file = x.disk.locked.count file := by
  cases hmove with
  | @refused p settings e d idle htry =>
      refine ⟨respects_of_tryLock htry base, ?_⟩
      show d.locked.count file = _
      rw [locked_of_tryLock htry fun lock heq => by cases heq]
  | @barred p settings d idle htry =>
      refine ⟨respects_of_tryLock htry base, ?_⟩
      show d.locked.count file = _
      rw [locked_of_tryLock htry fun lock heq => by cases heq]
  | @owned p settings lock d idle htry =>
      refine ⟨respects_of_tryLock htry base, ?_⟩
      show d.locked.count file = _
      rw [(owned_of_tryLock htry).2.1, List.count_cons_of_ne (hclaim _ _ rfl).symm]
  | located seeking => exact ⟨.refl base x.disk.files, rfl⟩
  | dropped seeking => exact ⟨.refl base x.disk.files, rfl⟩
  | worked owner works =>
      have hfile := howner _ _ _ owner
      obtain ⟨base', howns⟩ := h.owns _ _ _ _ owner
      exact ⟨howns.respects works (base_ne_of_file_ne hhoused howns.housed hfile),
        works.count_eq hfile⟩

/-- What a process does respects the directories of all other owners, and leaves their locks alone. -/
theorem Orderly.respects_owner (h : Orderly x) (hmove : Moves x y x') {p : Process}
    {settings : Settings} {lock : InstanceLock} {phase : Phase} {base : Location} (hp : p ≠ y.1)
    (hstage : x.stage p = .owner settings lock phase) (howns : Owns x.disk settings lock phase base) :
    Respects base x.disk.files x'.disk.files ∧
      x'.disk.locked.count lock.file = x.disk.locked.count lock.file := by
  refine h.respects hmove howns.housed ?_ ?_
  · intro settings' lock' phase' howner
    exact h.apart p y.1 settings settings' lock lock' phase phase' hp hstage howner
  · intro directory lock' howned hfile
    obtain ⟨q, z⟩ := y
    subst howned
    exact hmove.free_of_owned (hfile ▸ howns.mem_locked)

/-- A machine stays orderly if the process that moved has come to own nothing, or a directory that is in
order and nobody else's. -/
theorem Orderly.of_mover (h : Orderly x) (hmove : Moves x y x')
    (hown : ∀ settings lock phase, x'.stage y.1 = .owner settings lock phase →
      (∃ base, Owns x'.disk settings lock phase base) ∧
        ∀ q settings' lock' phase', q ≠ y.1 → x.stage q = .owner settings' lock' phase' →
          lock.file ≠ lock'.file) :
    Orderly x' := by
  constructor
  · intro q settings lock phase hq
    by_cases hqy : q = y.1
    · subst hqy
      exact (hown settings lock phase hq).1
    · rw [hmove.stage_eq hqy] at hq
      obtain ⟨base, howns⟩ := h.owns q settings lock phase hq
      obtain ⟨hfiles, hlocked⟩ := h.respects_owner hmove hqy hq howns
      exact ⟨base, howns.of_respects hfiles hlocked⟩
  · intro q r settings settings' lock lock' phase phase' hqr hq hr
    by_cases hqy : q = y.1
    · subst hqy
      rw [hmove.stage_eq hqr.symm] at hr
      exact (hown settings lock phase hq).2 r settings' lock' phase' hqr.symm hr
    · rw [hmove.stage_eq hqy] at hq
      by_cases hry : r = y.1
      · subst hry
        exact ((hown settings' lock' phase' hr).2 q settings lock phase hqy hq).symm
      · rw [hmove.stage_eq hry] at hr
        exact h.apart q r settings settings' lock lock' phase phase' hqr hq hr

/-- What moves do to a machine, they do to it in order. -/
theorem Orderly.move (h : Orderly x) (hmove : Moves x y x') : Orderly x' := by
  refine h.of_mover hmove fun settings lock phase hstage => ?_
  have hmoved := hmove
  cases hmove with
  | @owned p settings₀ lock₀ d idle htry =>
      rw [stage_take] at hstage
      cases hstage
      obtain ⟨hfree, hlocked, hportPath, base, hhoused⟩ := owned_of_tryLock htry
      refine ⟨⟨base, hhoused, hportPath, ?_, trivial⟩, fun q settings' lock' phase' _ hq hfile => ?_⟩
      · show d.locked.count lock.file = 1
        rw [hlocked, List.count_cons_self, List.count_eq_zero.mpr hfree]
      · obtain ⟨base', howns⟩ := h.owns q settings' lock' phase' hq
        exact hmoved.free_of_owned (hfile ▸ howns.mem_locked)
  | @worked p settings₀ lock₀ phase₀ z d next owner works =>
      rw [stage_take] at hstage
      obtain ⟨base, howns⟩ := h.owns p settings₀ lock₀ phase₀ owner
      cases next with
      | none => cases hstage
      | some phase' =>
          cases hstage
          refine ⟨⟨base, howns.onward works⟩, fun q settings' lock' phase' hqp hq => ?_⟩
          exact h.apart p q settings settings' lock lock' phase₀ phase' hqp.symm owner hq
  | _ =>
      rw [stage_take] at hstage
      cases hstage

end

/-- After every schedule, the directories of all owners are in order. -/
theorem orderly_of_reachable {disk : Disk} {x : Machine} (hx : Reachable disk x) : Orderly x := by
  refine Recorder.run_induction ?_ (fun x y x' _ _ h hmove => h.move hmove) hx
  constructor
  · intro p settings lock phase hp
    cases hp
  · intro p q settings settings' lock lock' phase phase' _ hp
    cases hp

end Machine

end LiveDiagram
