import LiveDiagram.Proofs.Editor.InTurn
import LiveDiagram.Proofs.Editor.Occupancy

/-!
# Owners clean up

Whoever comes to own a state directory has one way to the port file and one way out.  The port is
published by a process that has come to listen, and it is the port on which that process listens.  And
every way out takes the port away before it gives the lock up: when no port can be had, when the port
cannot be written, when the editor is told to stop, and when something else goes wrong.  Only a process
that is killed leaves its port behind.

What a process has come to is read off its last step: one that is to publish has just come to listen
(`Phase.Told`).  What an owner leaves behind is a place with a lock file that nobody has locked and
without a port (`Vacant`), and that is how others leave it until one of them comes to own it.

## Main results

* `told_of_reachable`: an owner publishes the port on which it has just come to listen.
* `vacant_since_abandoned`: a directory that was given up stays as it was left.
* `begin_cases`, `cleansUp_of_serving`: what that means to starts and ends of the program.
* `owner_law`: the law for every schedule.
-/

namespace LiveDiagram

namespace Instance

/-- The bytes of the port file of a directory, if it has one. -/
def portFile (d : Disk) (directory : Path) : Option Bytes :=
  (d.files.read (portPath directory)).toOption

theorem Housed.portFile_eq {d : Disk} {directory : Path} {base : Location} {file : FileNumber}
    (h : Housed d.files directory base file) : portFile d directory = portIn d.files base := by
  simp only [portFile, FileTree.read, FileTree.find, h.portPlace, portIn, FileTree.contents]
  cases d.files.lookup (base ++ [portName]) with
  | none => rfl
  | some e => cases e <;> rfl

/-- There is no port file, the lock is free, and whoever claims the directory next comes to own it. -/
structure Clean (d : Disk) (directory : Path) : Prop where
  noPort : d.files.exists? (portPath directory) = false ∨
    d.files.isDirectory (portPath directory) = true
  free : ∃ l file data, d.files.find (lockPath directory) = .ok (l, .file file data) ∧ file ∉ d.locked
  next : ∃ lock, claim d directory = (.ok (.owned lock), { d with locked := lock.file :: d.locked })

/-- The files of a directory are in their places, the lock is free and there is no port. -/
structure Vacant (d : Disk) (directory : Path) (base : Location) (file : FileNumber) : Prop where
  housed : Housed d.files directory base file
  noPort : portIn d.files base = none
  free : file ∉ d.locked

theorem Vacant.clean {d : Disk} {directory : Path} {base : Location} {file : FileNumber}
    (h : Vacant d directory base file) : Clean d directory where
  noPort := h.housed.vacant (Option.map_eq_none_iff.mp h.noPort)
  free := by
    obtain ⟨data, hfile⟩ := h.housed.lookup
    refine ⟨base ++ [lockName], file, data, ?_, h.free⟩
    simp only [FileTree.find, h.housed.place, hfile]
  next := by
    refine ⟨⟨file, portPath directory⟩, ?_⟩
    rw [claim, tryLock_of_housed h.housed, if_neg h.free]

end Instance

namespace Machine

open Instance

/-! ## What a process has come to -/

/-- What the history tells of an owner that has come this far. -/
def Phase.Told (p : Process) (h : History) : Phase → Prop
  | .listening address => h.lookup p = some (.bound (.ok address))
  | .serving e => (p, .bound (.ok e.address)) ∈ h
  | _ => True

section

variable {disk : Disk} {x x' : Machine} {p q : Process} {settings : Settings} {lock : InstanceLock}
  {phase : Phase} {y : Process × Step}

theorem lookup_cons_of_ne (hqp : q ≠ p) (y : Step) (h : History) :
    List.lookup p ((q, y) :: h) = List.lookup p h := by
  rw [List.lookup_cons, beq_false_of_ne hqp.symm]

theorem mem_of_lookup {h : History} {y : Step} (hy : h.lookup p = some y) : (p, y) ∈ h := by
  obtain ⟨front, back, rfl, -⟩ := List.lookup_eq_some_iff.mp hy
  exact List.mem_append_right front List.mem_cons_self

/-- What others do takes nothing back. -/
theorem Phase.Told.cons {h : History} (htold : phase.Told p h) (hqp : q ≠ p) (y : Step) :
    phase.Told p ((q, y) :: h) := by
  cases phase with
  | listening address => exact (lookup_cons_of_ne hqp y h).trans htold
  | serving e => exact List.mem_cons_of_mem _ htold
  | _ => trivial

theorem Works.told {d d' : Disk} {phase' : Phase} {y : Step} {h : History}
    (hworks : Works settings lock d phase y d' (some phase')) (htold : phase.Told p h) :
    phase'.Told p ((p, y) :: h) := by
  cases hworks with
  | bound hbind => exact List.lookup_cons_self
  | published hdone => exact List.mem_cons_of_mem _ (mem_of_lookup htold)
  | answered hhandle => exact List.mem_cons_of_mem _ htold
  | interrupted e => exact List.mem_cons_of_mem _ htold
  | _ => trivial

/-- An owner that is to publish has just come to listen, and one that serves came to listen once. -/
theorem told_of_reachable (hx : Reachable disk x) (hp : x.stage p = .owner settings lock phase) :
    phase.Told p x.history := by
  refine Recorder.run_induction (P := fun x => ∀ p settings lock phase,
    x.stage p = .owner settings lock phase → phase.Told p x.history) ?_ ?_ hx p settings lock phase hp
  · intro p settings lock phase hp
    cases hp
  · intro x y x' _ _ ih hmove p settings lock phase hp
    obtain ⟨q, z⟩ := y
    by_cases hqp : q = p
    · subst hqp
      cases hmove with
      | @worked _ _ _ phase₀ _ d next owner works =>
          rw [stage_take] at hp
          cases next with
          | none => cases hp
          | some phase' =>
              cases hp
              exact works.told (ih _ _ _ _ owner)
      | owned idle htry =>
          rw [stage_take] at hp
          cases hp
          trivial
      | _ =>
          rw [stage_take] at hp
          cases hp
    · have hbefore := ih p settings lock phase ((hmove.stage_eq (Ne.symm hqp)).symm.trans hp)
      rw [hmove.history_eq]
      exact hbefore.cons hqp z

/-- Whatever is published is the port on which its process has just come to listen. -/
theorem bound_of_published (hx : Reachable disk x) {port : UInt16} {result : Except Error Unit}
    {after before : History} (h : x.history = after ++ (p, .published port result) :: before) :
    ∃ address, before.lookup p = some (.bound (.ok address)) ∧ address.port = port := by
  obtain ⟨x₀, x₁, hx₀, -, hmove, rfl⟩ := Recorder.exists_move_of_history_eq rfl hx h
  cases hmove with
  | worked owner works =>
      have htold := told_of_reachable hx₀ owner
      cases works with
      | published hdone => exact ⟨_, htold, rfl⟩
      | unpublished hfailed => exact ⟨_, htold, rfl⟩

/-! ## What becomes of the port file -/

/-- **What one move does to the port file of an owner**: the port is written by the owner itself, which
has just come to listen on it, it is taken away by the owner itself, or it stays as it is. -/
theorem Moves.portFile_cases (hx : Reachable disk x) (hmove : Moves x y x')
    (hp : x.stage p = .owner settings lock phase) :
    portFile x'.disk (home settings) = portFile x.disk (home settings) ∨
      (∃ address, x.history.lookup p = some (.bound (.ok address)) ∧
        y = (p, .published address.port (.ok ())) ∧
        portFile x'.disk (home settings) = some (Decimal.numeral address.port.toNat)) ∨
      y = (p, .withdrew) ∧ portFile x'.disk (home settings) = none := by
  have horderly := orderly_of_reachable hx
  obtain ⟨base, howns⟩ := horderly.owns p settings lock phase hp
  by_cases hpy : p = y.1
  · subst hpy
    obtain ⟨q, z⟩ := y
    obtain ⟨d, next, works, rfl⟩ := hmove.works hp
    have hafter : portFile (x.take q d (.behind settings lock next) z).disk (home settings) =
        portIn d.files base := (howns.housed_of_works works).portFile_eq
    rw [hafter, howns.housed.portFile_eq]
    rcases howns.port_cases works with hsame | ⟨address, rfl, rfl, hport⟩ | ⟨rfl, hnone⟩
    · exact Or.inl hsame
    · exact Or.inr (Or.inl ⟨address, told_of_reachable hx hp, rfl, hport⟩)
    · exact Or.inr (Or.inr ⟨rfl, hnone⟩)
  · left
    obtain ⟨hfiles, -⟩ := horderly.respects_owner hmove hpy hp howns
    rw [(howns.housed.of_respects hfiles).portFile_eq, howns.housed.portFile_eq, hfiles.portIn_eq]

/-- An editor serves where it has come to listen, and its port file says so. -/
theorem portFile_of_serving (hx : Reachable disk x) {e : Editor}
    (hp : x.stage p = .owner settings lock (.serving e)) :
    (p, .bound (.ok e.address)) ∈ x.history ∧
      portFile x.disk (home settings) = some (Decimal.numeral e.address.port.toNat) := by
  obtain ⟨base, howns⟩ := (orderly_of_reachable hx).owns p settings lock _ hp
  refine ⟨told_of_reachable hx hp, ?_⟩
  rw [howns.housed.portFile_eq]
  exact howns.fits.2

/-! ## How ownership ends -/

/-- An owner stays one, or it is killed, or it gives the lock up. -/
theorem Moves.owner_cases (hmove : Moves x y x') (hp : x.stage p = .owner settings lock phase) :
    (∃ phase', x'.stage p = .owner settings lock phase') ∨ y = (p, .killed) ∨
      y = (p, .abandoned (home settings) lock) := by
  by_cases hpy : p = y.1
  · subst hpy
    obtain ⟨q, z⟩ := y
    obtain ⟨d, next, works, rfl⟩ := hmove.works hp
    cases next with
    | some phase' => exact Or.inl ⟨phase', stage_take x q d _ z⟩
    | none =>
        cases works with
        | abandoned => exact Or.inr (Or.inr rfl)
        | killed phase => exact Or.inr (Or.inl rfl)
  · exact Or.inl ⟨phase, (hmove.stage_eq hpy).trans hp⟩

/-- Whoever has come to own a directory owns it still, unless it was killed or gave the lock up. -/
theorem owner_or_ended (hx : Reachable disk x) {directory : Path} {after before : History}
    (h : x.history = after ++ (p, .owned directory lock) :: before) :
    (∃ settings phase, home settings = directory ∧ x.stage p = .owner settings lock phase) ∨
      (p, .killed) ∈ after ∨ (p, .abandoned directory lock) ∈ after := by
  by_cases hended : (p, .killed) ∈ after ∨ (p, .abandoned directory lock) ∈ after
  · exact Or.inr hended
  · left
    rw [not_or] at hended
    have hquiet : ∀ z ∈ after, z ≠ (p, .killed) ∧ z ≠ (p, .abandoned directory lock) := by
      intro z hz
      exact ⟨fun heq => hended.1 (heq ▸ hz), fun heq => hended.2 (heq ▸ hz)⟩
    refine Recorder.holds_since (P := fun x => ∃ settings phase, home settings = directory ∧
      x.stage p = .owner settings lock phase) rfl ?_ ?_ hx h hquiet
    · intro x₀ x₁ _ _ hmove
      cases hmove with
      | owned idle htry => exact ⟨_, .fresh, rfl, stage_take x₀ p _ _ _⟩
      | worked owner works => cases works
    · rintro x₀ z x₁ _ ⟨settings, phase, rfl, hp⟩ ⟨hkilled, habandoned⟩ hmove
      rcases hmove.owner_cases hp with ⟨phase', hp'⟩ | hend | hend
      · exact ⟨settings, phase', rfl, hp'⟩
      · exact absurd hend hkilled
      · exact absurd hend habandoned

/-! ## What an owner leaves behind -/

/-- A step that does not lock this file. -/
def Passes (file : FileNumber) (z : Process × Step) : Prop :=
  ∀ directory lock, z.2 = .owned directory lock → file ≠ lock.file

theorem vacant_of_abandoned (hx : Reachable disk x) {directory : Path}
    (hmove : Moves x (p, .abandoned directory lock) x') :
    ∃ base, Vacant x'.disk directory base lock.file := by
  cases hmove with
  | @worked _ settings lock phase _ d next owner works =>
      obtain ⟨base, howns⟩ := (orderly_of_reachable hx).owns p settings _ _ owner
      cases works
      exact ⟨base, howns.housed, howns.fits, howns.notMem_abandon⟩

theorem vacant_move (hx : Reachable disk x) {directory : Path} {base : Location} {file : FileNumber}
    (h : Vacant x.disk directory base file) (hy : Passes file y) (hmove : Moves x y x') :
    Vacant x'.disk directory base file := by
  have horderly := orderly_of_reachable hx
  obtain ⟨hfiles, hlocked⟩ := horderly.respects hmove h.housed
    (fun settings lock phase howner hfile => by
      obtain ⟨base', howns⟩ := horderly.owns y.1 settings lock phase howner
      exact h.free (hfile ▸ howns.mem_locked)) hy
  refine ⟨h.housed.of_respects hfiles, hfiles.portIn_eq.trans h.noPort, ?_⟩
  apply List.count_eq_zero.mp
  rw [hlocked, List.count_eq_zero.mpr h.free]

/-- A directory that was given up stays as it was left until somebody locks it. -/
theorem vacant_since_abandoned (hx : Reachable disk x) {directory : Path} {after before : History}
    (h : x.history = after ++ (p, .abandoned directory lock) :: before)
    (hafter : ∀ z ∈ after, Passes lock.file z) :
    ∃ base, Vacant x.disk directory base lock.file := by
  refine Recorder.holds_since (P := fun x => ∃ base, Vacant x.disk directory base lock.file) rfl
    (fun _ _ hx₀ _ hmove => vacant_of_abandoned hx₀ hmove) ?_ hx h hafter
  rintro x₀ z x₁ hx₀ ⟨base, hvacant⟩ hz hmove
  exact ⟨base, vacant_move hx₀ hvacant hz hmove⟩

theorem clean_since_abandoned (hx : Reachable disk x) {directory : Path} {after before : History}
    (h : x.history = after ++ (p, .abandoned directory lock) :: before)
    (hafter : ∀ z ∈ after, Passes lock.file z) : Clean x.disk directory := by
  obtain ⟨base, hvacant⟩ := vacant_since_abandoned hx h hafter
  exact hvacant.clean

/-! ## The law -/

theorem GivenUp.clean (hx : Reachable disk x) {directory : Path} (h : x.GivenUp p directory lock) :
    Clean x.disk directory := by
  obtain ⟨before, hhist⟩ := h
  have hlast : x.history = [] ++ (p, .abandoned directory lock) :: before := hhist
  exact clean_since_abandoned hx hlast fun z hz => absurd hz List.not_mem_nil

/-- Whatever this editor is asked from now on, its port file says where it serves, and when it is told to
stop it leaves a clean directory. -/
def CleansUp (w : World) (e : Editor) (directory : Path) : Prop :=
  ∀ rs e' w', attend w e rs = (e', w') →
    portFile w'.disk directory = some (Decimal.numeral e.address.port.toNat) ∧
      Clean (Program.stop w' e').2.disk directory

theorem cleansUp_of_serving (hx : Reachable disk x) {w : World} {e : Editor} (hw : w.disk = x.disk)
    (hp : x.stage p = .owner settings lock (.serving e)) : CleansUp w e (home settings) := by
  intro rs e' w' hattend
  obtain ⟨x', e₁, w₁, hx', hattended, hw', hp', haddress⟩ := exists_attended hx hw hp rs
  rw [hattend] at hattended
  cases hattended
  obtain ⟨base, howns⟩ := (orderly_of_reachable hx').owns p settings lock _ hp'
  obtain rfl : e'.lock = lock := howns.fits.1
  constructor
  · rw [hw', ← haddress]
    exact (portFile_of_serving hx' hp').2
  · obtain ⟨hdisk, hend⟩ := stop_eq_inTurn hw' hp'
    rw [hdisk]
    exact hend.clean (hx'.inTurn p _)

/-- A start of the program that gets the lock fails and leaves a clean directory, or it serves and leaves
one when it is told to stop. -/
theorem begin_cases {w : World} {d : Disk}
    (h : claim w.disk (home settings) = (.ok (.owned lock), d)) :
    (∃ e w', Program.begin w settings = (.exited 1 "" (Program.report e), w') ∧
      Fails { w with disk := d } settings lock e ∧ Clean w'.disk (home settings)) ∨
    ∃ e w', Program.begin w settings = (.serving e (Program.servingLine e.address), w') ∧
      w.ports.bind settings.address = .ok e.address ∧ CleansUp w' e (home settings) := by
  have hidle : Reachable w.disk (start w.disk) := Recorder.Reachable.refl recorder _
  obtain ⟨hbegin, hd, hfresh⟩ := begin_eq_serve (x := start w.disk) (p := 0) h rfl rfl
  generalize hx₁ : (start w.disk).step (0, .start settings) = x₁ at hbegin hd hfresh
  have hstarted : Reachable w.disk x₁ := hx₁ ▸ hidle.inTurn 0 [.start settings]
  subst hd
  rw [hbegin]
  rcases serve_eq_inTurn (w := { w with disk := x₁.disk }) rfl hfresh with
    ⟨e, hfails, hend, hserve⟩ | ⟨e, hbind, hserving, hserve⟩
  · rw [hserve]
    exact Or.inl ⟨e, _, rfl, hfails, hend.clean (hstarted.inTurn 0 _)⟩
  · rw [hserve]
    exact Or.inr ⟨e, _, rfl, hbind, cleansUp_of_serving (hstarted.inTurn 0 _) rfl hserving⟩

/-- **Owners clean up**, from whatever disk there is at first, with whatever ports are taken, and after
every schedule of any number of processes.

A port is only published by a process whose step before was to come to listen on it.  What one request
does to the port file of an owner is one of three things, and while the owner serves, its port file
holds the port on which it listens.  Whoever has come to own a directory owns it until it is killed or
gives the lock up.  A directory that was given up has no port file, whether or not it had one before,
its lock is free, and whoever claims it next comes to own it; and it stays like that until somebody
locks it.  An editor leaves its directory like that when it is told to stop, whatever it was asked
before, and so does every start of the program that gets the lock and does not come to serve. -/
theorem owner_law (hx : Reachable disk x) :
    (∀ p port result after before, x.history = after ++ (p, .published port result) :: before →
      ∃ address, before.lookup p = some (.bound (.ok address)) ∧ address.port = port) ∧
    (∀ p settings lock phase a, x.stage p = .owner settings lock phase →
      portFile (x.step a).disk (home settings) = portFile x.disk (home settings) ∨
      (∃ address, x.history.lookup p = some (.bound (.ok address)) ∧
        (x.step a).history = (p, .published address.port (.ok ())) :: x.history ∧
        portFile (x.step a).disk (home settings) = some (Decimal.numeral address.port.toNat)) ∨
      (x.step a).history = (p, .withdrew) :: x.history ∧
        portFile (x.step a).disk (home settings) = none) ∧
    (∀ p settings lock e, x.stage p = .owner settings lock (.serving e) →
      (p, .bound (.ok e.address)) ∈ x.history ∧
        portFile x.disk (home settings) = some (Decimal.numeral e.address.port.toNat)) ∧
    (∀ p directory lock after before,
      x.history = after ++ (p, .owned directory lock) :: before →
        (∃ settings phase, home settings = directory ∧ x.stage p = .owner settings lock phase) ∨
          (p, .killed) ∈ after ∨ (p, .abandoned directory lock) ∈ after) ∧
    (∀ p directory lock after before,
      x.history = after ++ (p, .abandoned directory lock) :: before →
        (∀ z ∈ after, Passes lock.file z) → Clean x.disk directory) ∧
    (∀ w e p settings lock, w.disk = x.disk → x.stage p = .owner settings lock (.serving e) →
      CleansUp w e (home settings)) ∧
    (∀ w settings lock d, claim w.disk (home settings) = (.ok (.owned lock), d) →
      (∃ e w', Program.begin w settings = (.exited 1 "" (Program.report e), w') ∧
        Fails { w with disk := d } settings lock e ∧ Clean w'.disk (home settings)) ∨
      ∃ e w', Program.begin w settings = (.serving e (Program.servingLine e.address), w') ∧
        w.ports.bind settings.address = .ok e.address ∧ CleansUp w' e (home settings)) := by
  refine ⟨?_, ?_, ?_, ?_, ?_, ?_, ?_⟩
  · intro p port result after before h
    exact bound_of_published hx h
  · intro p settings lock phase a hp
    rcases step_moves x a with hsame | ⟨y, hmove⟩
    · rw [hsame]
      exact Or.inl rfl
    · rw [hmove.history_eq]
      rcases hmove.portFile_cases hx hp with hkept | ⟨address, hbound, rfl, hport⟩ | ⟨rfl, hnone⟩
      · exact Or.inl hkept
      · exact Or.inr (Or.inl ⟨address, hbound, rfl, hport⟩)
      · exact Or.inr (Or.inr ⟨rfl, hnone⟩)
  · intro p settings lock e hp
    exact portFile_of_serving hx hp
  · intro p directory lock after before h
    exact owner_or_ended hx h
  · intro p directory lock after before h hafter
    exact clean_since_abandoned hx h hafter
  · intro w e p settings lock hw hp
    exact cleansUp_of_serving hx hw hp
  · intro w settings lock d h
    exact begin_cases h

end

/-- Three ends.  A port file lies in the directory, another process finds the lock held, and every port
is taken; a directory lies in the port's place; and an editor is told to stop.  A start of the program
in the first of these places fails as well. -/
theorem owner_law_three_ends :
    let directory : Path := ⟨["state"]⟩
    let settings : Settings := { Settings.default "state" with address := ⟨"127.0.0.1", 9000⟩ }
    let full : Ports := ⟨fun _ => true, 49152⟩
    let busy : Ports := ⟨fun port => port = 9000, 49152⟩
    let stale : FileTree :=
      ⟨[(["state"], .directory), (["state", "port"], .file 0 (Utf8.encode "4321"))], 1⟩
    let blocked : FileTree := ⟨[(["state"], .directory), (["state", "port"], .directory)], 0⟩
    let x := run ⟨stale, []⟩
      [(0, .start settings), (1, .start settings), (0, .bind full), (0, .withdraw), (0, .abandon)]
    let y := run ⟨blocked, []⟩
      [(0, .start settings), (0, .bind busy), (0, .publish), (0, .withdraw), (0, .abandon)]
    let z := run .empty
      [(0, .start settings), (0, .bind busy), (0, .publish), (0, .answer ⟨"POST", "/api/quit", []⟩),
        (0, .stop), (0, .withdraw), (0, .abandon)]
    ((0, .bound (.error (.bind settings.address Ports.inUse))) ∈ x.history ∧
      Clean x.disk directory) ∧
    ((0, .published 9001 (.error (.io .isDirectory))) ∈ y.history ∧ Clean y.disk directory) ∧
    ((0, .published 9001 (.ok ())) ∈ z.history ∧ (0, .stopped) ∈ z.history ∧
      Clean z.disk directory) ∧
    ∃ errors w, Program.begin ⟨⟨stale, []⟩, full, .ok (), []⟩ settings = (.exited 1 "" errors, w) ∧
      Clean w.disk directory := by
  intro directory settings full busy stale blocked x y z
  have hx : Reachable ⟨stale, []⟩ x := ⟨_, rfl⟩
  have hy : Reachable ⟨blocked, []⟩ y := ⟨_, rfl⟩
  have hz : Reachable .empty z := ⟨_, rfl⟩
  have hxend : x.history = [] ++ (0, .abandoned directory ⟨1, portPath directory⟩) ::
      x.history.drop 1 := by decide +kernel
  have hyend : y.history = [] ++ (0, .abandoned directory ⟨0, portPath directory⟩) ::
      y.history.drop 1 := by decide +kernel
  have hzend : z.history = [] ++ (0, .abandoned directory ⟨0, portPath directory⟩) ::
      z.history.drop 1 := by decide +kernel
  have hhome : home settings = directory := by decide +kernel
  have hclaim : claim ⟨stale, []⟩ (home settings) =
      (.ok (.owned ⟨1, portPath directory⟩), (tryLock ⟨stale, []⟩ directory).2) := by decide +kernel
  have hfull : full.bind settings.address = .error (.bind settings.address Ports.inUse) := by
    decide +kernel
  obtain ⟨-, -, -, -, hxclean, -, hbegin⟩ := owner_law hx
  obtain ⟨-, -, -, -, hyclean, -⟩ := owner_law hy
  obtain ⟨-, -, -, -, hzclean, -⟩ := owner_law hz
  refine ⟨⟨by decide +kernel, ?_⟩, ⟨by decide +kernel, ?_⟩,
    ⟨by decide +kernel, by decide +kernel, ?_⟩, ?_⟩
  · exact hxclean 0 directory _ [] _ hxend fun w hw => absurd hw List.not_mem_nil
  · exact hyclean 0 directory _ [] _ hyend fun w hw => absurd hw List.not_mem_nil
  · exact hzclean 0 directory _ [] _ hzend fun w hw => absurd hw List.not_mem_nil
  · rcases hbegin ⟨⟨stale, []⟩, full, .ok (), []⟩ settings _ _ hclaim with
      ⟨e, w, hfailed, -, hclean⟩ | ⟨e, w, -, hbound, -⟩
    · rw [hhome] at hclean
      exact ⟨_, w, hfailed, hclean⟩
    · cases hfull.symm.trans hbound

end Machine

end LiveDiagram
