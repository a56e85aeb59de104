import Mathlib.Logic.Function.Basic
import LiveDiagram.Editor.Program
import LiveDiagram.Proofs.Editor.Neighbours
import LiveDiagram.Proofs.Recorded

/-!
# A machine on which the program is started

Any number of processes run the program at the same time, each with settings of its own: in one state
directory, in several, or in one that is spelled in several ways.  What a process does is cut into the
steps between which others can act.  A start tries to lock its directory.  If the lock is held, it
looks for the owner and ends.  If it gets the lock, it listens, publishes its port and serves; and
whatever goes wrong with that, or once it is told to stop, it takes the port away and gives the lock up,
in two steps.  It can be killed between any two steps, and then only the lock goes.

A schedule says which process is asked for what.  Every list of requests is a schedule, and a request
that its process cannot follow just then is passed over.  The ports of the machine are named by the
request to listen, so others may come to listen or cease to as they like.

## Main results

* `Phase.works`, `step_moves`: all that an owner can do, and all that processes can do.
* `Moves.works`, `Moves.stage_eq`: what a move means to an owner that makes it, and to others.
-/

namespace LiveDiagram

namespace Machine

open Instance

/-- Names a process. -/
abbrev Process := Nat

/-- The state directory of a process. -/
def home (settings : Settings) : Path :=
  Path.ofText settings.stateDirectory

/-- How far a process has come that owns its directory. -/
inductive Phase where
  /-- It has the lock, and has still to listen. -/
  | fresh
  /-- It listens here, and has still to publish its port. -/
  | listening (address : SocketAddress)
  | serving (e : Editor)
  /-- It is done, and has still to take its port away. -/
  | leaving
  /-- It has still to give the lock up. -/
  | withdrawn

/-- What a process is in the middle of. -/
inductive Stage where
  | idle
  /-- It found the lock held, and has still to look for the port. -/
  | seeking (settings : Settings)
  | owner (settings : Settings) (lock : InstanceLock) (phase : Phase)

/-- What a process can be asked to do. -/
inductive Request where
  | start (settings : Settings)
  | locate
  /-- Listens, with the ports of the machine as they are. -/
  | bind (ports : Ports)
  | publish
  | answer (r : LiveDiagram.Request)
  | interrupt
  | stop
  /-- Ends for a reason of its own, such as that it cannot be told of interrupts. -/
  | giveUp
  | withdraw
  | abandon
  | kill

/-- A step that was taken, with what came of it. -/
inductive Step where
  /-- A claim failed before it came to the lock. -/
  | refused (e : Error)
  /-- A claim found the lock held. -/
  | barred
  | owned (directory : Path) (lock : InstanceLock)
  | located (answer : Except Error Claim)
  | bound (result : Except Error SocketAddress)
  | published (port : UInt16) (result : Except Error Unit)
  | answered (r : LiveDiagram.Request) (answer : Answer)
  | interrupted
  | stopped
  | gaveUp
  | withdrew
  | abandoned (directory : Path) (lock : InstanceLock)
  | killed
deriving DecidableEq

/-- What happened, newest first. -/
abbrev History := List (Process × Step)

end Machine

/-- A disk and the processes on it. -/
structure Machine where
  disk : Disk
  stage : Machine.Process → Machine.Stage
  history : Machine.History

namespace Machine

open Instance

/-- A machine on which the program does not run yet.  Others may hold locks there. -/
def start (disk : Disk) : Machine :=
  ⟨disk, fun _ => .idle, []⟩

/-! ## Steps -/

/-- The editor that begins to serve. -/
def opened (settings : Settings) (lock : InstanceLock) (address : SocketAddress) (files : FileTree) :
    Editor where
  gateway := .new (.new settings.initialContent settings.subscriberBuffer) files (home settings)
  lock := lock
  address := address

/-- The part of an owner: what it does, the disk afterwards, and how far it has come then, or nothing
at its end. -/
def Phase.step (settings : Settings) (lock : InstanceLock) (d : Disk) :
    Phase → Request → Option (Step × Disk × Option Phase)
  | .fresh, .bind ports =>
    match ports.bind settings.address with
    | .error e => some (.bound (.error e), d, some .leaving)
    | .ok address => some (.bound (.ok address), d, some (.listening address))
  | .listening address, .publish =>
    match Instance.publish d lock address.port with
    | (.error e, d) => some (.published address.port (.error e), d, some .leaving)
    | (.ok (), d) =>
      some (.published address.port (.ok ()), d,
        some (.serving (opened settings lock address d.files)))
  | .serving e, .answer r =>
    let (answer, gateway) := { e.gateway with files := d.files }.handle r
    some (.answered r answer, { d with files := gateway.files }, some (.serving { e with gateway }))
  | .serving e, .interrupt =>
    some (.interrupted, d, some (.serving { e with gateway := { e.gateway with triggered := true } }))
  | .serving e, .stop => if e.gateway.triggered then some (.stopped, d, some .leaving) else none
  | .serving _, .giveUp => some (.gaveUp, d, some .leaving)
  | .leaving, .withdraw => some (.withdrew, Instance.withdraw d lock, some .withdrawn)
  | .withdrawn, .abandon => some (.abandoned (home settings) lock, Instance.abandon d lock, none)
  | _, .kill => some (.killed, Instance.abandon d lock, none)
  | _, _ => none

/-- Where an owner is behind a step. -/
def Stage.behind (settings : Settings) (lock : InstanceLock) : Option Phase → Stage
  | none => .idle
  | some phase => .owner settings lock phase

/-- One process takes a step. -/
def take (x : Machine) (p : Process) (disk : Disk) (stage : Stage) (y : Step) : Machine :=
  ⟨disk, Function.update x.stage p stage, (p, y) :: x.history⟩

/-- One request. -/
def step (x : Machine) (a : Process × Request) : Machine :=
  match x.stage a.1, a.2 with
  | .idle, .start settings =>
    match Instance.tryLock x.disk (home settings) with
    | (.error e, d) => x.take a.1 d .idle (.refused e)
    | (.ok none, d) => x.take a.1 d (.seeking settings) .barred
    | (.ok (some lock), d) =>
      x.take a.1 d (.owner settings lock .fresh) (.owned (home settings) lock)
  | .seeking settings, .locate =>
    x.take a.1 x.disk .idle (.located (Instance.locate x.disk (home settings)))
  | .seeking _, .kill => x.take a.1 x.disk .idle .killed
  | .owner settings lock phase, request =>
    match phase.step settings lock x.disk request with
    | none => x
    | some (y, d, next) => x.take a.1 d (.behind settings lock next) y
  | _, _ => x

/-- A whole schedule, on a disk as it is at first. -/
def run (disk : Disk) (schedule : List (Process × Request)) : Machine :=
  schedule.foldl step (start disk)

/-! ## Moves -/

/-- All that an owner can do. -/
inductive Works (settings : Settings) (lock : InstanceLock) (d : Disk) :
    Phase → Step → Disk → Option Phase → Prop where
  | bound {ports : Ports} {address : SocketAddress}
      (h : ports.bind settings.address = .ok address) :
      Works settings lock d .fresh (.bound (.ok address)) d (some (.listening address))
  | unbound {ports : Ports} {e : Error} (h : ports.bind settings.address = .error e) :
      Works settings lock d .fresh (.bound (.error e)) d (some .leaving)
  | published {address : SocketAddress} {d' : Disk}
      (h : Instance.publish d lock address.port = (.ok (), d')) :
      Works settings lock d (.listening address) (.published address.port (.ok ())) d'
        (some (.serving (opened settings lock address d'.files)))
  | unpublished {address : SocketAddress} {e : Error} {d' : Disk}
      (h : Instance.publish d lock address.port = (.error e, d')) :
      Works settings lock d (.listening address) (.published address.port (.error e)) d'
        (some .leaving)
  | answered {e : Editor} {r : LiveDiagram.Request} {answer : Answer} {gateway : Gateway}
      (h : { e.gateway with files := d.files }.handle r = (answer, gateway)) :
      Works settings lock d (.serving e) (.answered r answer) { d with files := gateway.files }
        (some (.serving { e with gateway }))
  | interrupted (e : Editor) :
      Works settings lock d (.serving e) .interrupted d
        (some (.serving { e with gateway := { e.gateway with triggered := true } }))
  | stopped {e : Editor} (h : e.gateway.triggered = true) :
      Works settings lock d (.serving e) .stopped d (some .leaving)
  | gaveUp (e : Editor) : Works settings lock d (.serving e) .gaveUp d (some .leaving)
  | withdrew :
      Works settings lock d .leaving .withdrew (Instance.withdraw d lock) (some .withdrawn)
  | abandoned :
      Works settings lock d .withdrawn (.abandoned (home settings) lock) (Instance.abandon d lock) none
  | killed (phase : Phase) :
      Works settings lock d phase .killed (Instance.abandon d lock) none

theorem Phase.works {settings : Settings} {lock : InstanceLock} {d d' : Disk} {phase : Phase}
    {q : Request} {y : Step} {next : Option Phase}
    (h : phase.step settings lock d q = some (y, d', next)) :
    Works settings lock d phase y d' next := by
  unfold step at h
  split at h
  · split at h
    · next e hbind =>
        cases h
        exact .unbound hbind
    · next address hbind =>
        cases h
        exact .bound hbind
  · split at h
    · next e d₁ hpublish =>
        cases h
        exact .unpublished hpublish
    · next d₁ hpublish =>
        cases h
        exact .published hpublish
  · cases h
    exact .answered rfl
  · cases h
    exact .interrupted _
  · split at h
    · next htriggered =>
        cases h
        exact .stopped htriggered
    · cases h
  · cases h
    exact .gaveUp _
  · cases h
    exact .withdrew
  · cases h
    exact .abandoned
  · cases h
    exact .killed _
  · cases h

/-- All that one request can do, with the step it adds to the history. -/
inductive Moves : Machine → Process × Step → Machine → Prop where
  | refused {x : Machine} {p : Process} {settings : Settings} {e : Error} {d : Disk}
      (idle : x.stage p = .idle) (h : Instance.tryLock x.disk (home settings) = (.error e, d)) :
      Moves x (p, .refused e) (x.take p d .idle (.refused e))
  | barred {x : Machine} {p : Process} {settings : Settings} {d : Disk}
      (idle : x.stage p = .idle) (h : Instance.tryLock x.disk (home settings) = (.ok none, d)) :
      Moves x (p, .barred) (x.take p d (.seeking settings) .barred)
  | owned {x : Machine} {p : Process} {settings : Settings} {lock : InstanceLock} {d : Disk}
      (idle : x.stage p = .idle)
      (h : Instance.tryLock x.disk (home settings) = (.ok (some lock), d)) :
      Moves x (p, .owned (home settings) lock)
        (x.take p d (.owner settings lock .fresh) (.owned (home settings) lock))
  | located {x : Machine} {p : Process} {settings : Settings}
      (seeking : x.stage p = .seeking settings) :
      Moves x (p, .located (Instance.locate x.disk (home settings)))
        (x.take p x.disk .idle (.located (Instance.locate x.disk (home settings))))
  | dropped {x : Machine} {p : Process} {settings : Settings}
      (seeking : x.stage p = .seeking settings) :
      Moves x (p, .killed) (x.take p x.disk .idle .killed)
  | worked {x : Machine} {p : Process} {settings : Settings} {lock : InstanceLock} {phase : Phase}
      {y : Step} {d : Disk} {next : Option Phase}
      (owner : x.stage p = .owner settings lock phase)
      (works : Works settings lock x.disk phase y d next) :
      Moves x (p, y) (x.take p d (.behind settings lock next) y)

theorem step_moves (x : Machine) (a : Process × Request) :
    x.step a = x ∨ ∃ y, Moves x y (x.step a) := by
  obtain ⟨p, q⟩ := a
  unfold step
  split
  · next settings hidle _ =>
      split
      · next h => exact Or.inr ⟨_, .refused hidle h⟩
      · next h => exact Or.inr ⟨_, .barred hidle h⟩
      · next h => exact Or.inr ⟨_, .owned hidle h⟩
  · next settings hseeking _ => exact Or.inr ⟨_, .located hseeking⟩
  · next settings hseeking _ => exact Or.inr ⟨_, .dropped hseeking⟩
  · next settings lock phase howner =>
      split
      · exact Or.inl rfl
      · next h => exact Or.inr ⟨_, .worked howner (Phase.works h)⟩
  · exact Or.inl rfl

theorem Moves.history_eq {x x' : Machine} {y : Process × Step} (h : Moves x y x') :
    x'.history = y :: x.history := by
  cases h <;> rfl

/-- Machines as systems that remember their moves. -/
def recorder : Recorder Machine (Process × Request) (Process × Step) where
  step := step
  history := history
  Moves := Moves
  step_moves := step_moves
  history_eq := fun _ _ _ h => h.history_eq

/-- The states that schedules lead to. -/
def Reachable (disk : Disk) (x : Machine) : Prop :=
  recorder.Reachable (start disk) x

theorem stage_take (x : Machine) (p : Process) (d : Disk) (s : Stage) (y : Step) :
    (x.take p d s y).stage p = s := by
  show Function.update x.stage p s p = s
  rw [Function.update_self]

theorem stage_take_of_ne {p q : Process} (h : q ≠ p) {x : Machine} {d : Disk} {s : Stage}
    {y : Step} : (x.take p d s y).stage q = x.stage q := by
  show Function.update x.stage p s q = x.stage q
  rw [Function.update_of_ne h]

/-- What an owner does is its work. -/
theorem Moves.works {x x' : Machine} {y : Process × Step} (h : Moves x y x') {settings : Settings}
    {lock : InstanceLock} {phase : Phase} (hp : x.stage y.1 = .owner settings lock phase) :
    ∃ d next, Works settings lock x.disk phase y.2 d next ∧
      x' = x.take y.1 d (.behind settings lock next) y.2 := by
  cases h with
  | worked owner works =>
      obtain ⟨rfl, rfl, rfl⟩ := Stage.owner.inj (hp.symm.trans owner)
      exact ⟨_, _, works, rfl⟩
  | refused idle => rw [idle] at hp; cases hp
  | barred idle => rw [idle] at hp; cases hp
  | owned idle => rw [idle] at hp; cases hp
  | located seeking => rw [seeking] at hp; cases hp
  | dropped seeking => rw [seeking] at hp; cases hp

/-- A move does not change what others are in the middle of. -/
theorem Moves.stage_eq {x x' : Machine} {y : Process × Step} (h : Moves x y x') {p : Process}
    (hp : p ≠ y.1) : x'.stage p = x.stage p := by
  cases h <;> exact stage_take_of_ne hp

end Machine

end LiveDiagram
