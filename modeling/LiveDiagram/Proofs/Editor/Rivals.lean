import Mathlib.Logic.Function.Basic
import LiveDiagram.Proofs.Editor.StateDirectory
import LiveDiagram.Proofs.Recorded

/-!
# Processes that contend for a state directory

Any number of processes claim one state directory, in any order and at the same time.  A claim opens
the lock file and tries to lock it, and if it finds the lock held it looks for the port in a second
step.  Giving the lock up is two steps too: the port goes, and then the lock.  A process can be
killed between any two of its steps, and then only the lock goes.

A schedule says which process does what next; every list of requests is a schedule, and a request
that its process cannot make just then is passed over.  What happened is kept as a history, newest
first, so that what is true since some step can be read off what stands before it.

The invariant is `Orderly`: the lock is free, or one process holds it and the two files are in their
places.  While it is held, no step of another process changes anything on the disk.

## Main results

* `run_induction`, `holds_since`: what every move keeps holds after every schedule, and since the
  step that brought it about.
* `Held.of_other`: what the others can do while the lock is held.
* `orderly_of_reachable`: the invariant holds after every schedule.
-/

namespace LiveDiagram

namespace Rivals

/-- Names a process. -/
abbrev Process := Nat

/-- What a process is in the middle of. -/
inductive Stage where
  | idle
  /-- Its claim found the lock held, and has still to look for the port. -/
  | seeking
  | owning (lock : InstanceLock)
  /-- It has taken its port away, and has still to give the lock up. -/
  | leaving (lock : InstanceLock)
deriving DecidableEq

/-- The lock that a process holds. -/
def Stage.lock? : Stage → Option InstanceLock
  | .owning lock => some lock
  | .leaving lock => some lock
  | _ => none

/-- What a process can be asked to do.  A claim is asked for twice, and so is giving the lock up. -/
inductive Request where
  | tryLock
  | locate
  | publish (port : UInt16)
  | withdraw
  | abandon
  | kill
deriving DecidableEq

/-- A step that was taken, with what came of it. -/
inductive Step where
  /-- A claim failed before it came to the lock, and returned this. -/
  | refused (e : Error)
  /-- A claim found the lock held. -/
  | barred
  /-- A claim returned the lock.  The directory said this port when it was taken. -/
  | owned (lock : InstanceLock) (found : Option UInt16)
  /-- A claim that had found the lock held returned this. -/
  | located (answer : Except Error Claim)
  | published (port : UInt16) (result : Except Error Unit)
  | withdrew
  | abandoned
  | killed
deriving DecidableEq

/-- What happened, newest first. -/
abbrev History := List (Process × Step)

end Rivals

/-- A disk and the processes that claim one directory on it. -/
structure Rivals where
  disk : Disk
  stage : Rivals.Process → Rivals.Stage
  history : Rivals.History

namespace Rivals

open Instance

/-- A disk on which nobody has locked anything. -/
def start (files : FileTree) : Rivals :=
  ⟨⟨files, []⟩, fun _ => .idle, []⟩

/-! ## Steps -/

/-- One process takes a step. -/
def take (x : Rivals) (p : Process) (disk : Disk) (stage : Stage) (y : Step) : Rivals :=
  ⟨disk, Function.update x.stage p stage, (p, y) :: x.history⟩

/-- The disk when a process in the middle of this is killed. -/
def Stage.bereave (s : Stage) (d : Disk) : Disk :=
  match s.lock? with
  | some lock => Instance.abandon d lock
  | none => d

section

variable (directory : Path)

/-- One request. -/
def step (x : Rivals) (a : Process × Request) : Rivals :=
  match x.stage a.1, a.2 with
  | .idle, .tryLock =>
    match Instance.tryLock x.disk directory with
    | (.error e, d) => x.take a.1 d .idle (.refused e)
    | (.ok none, d) => x.take a.1 d .seeking .barred
    | (.ok (some lock), d) =>
      x.take a.1 d (.owning lock) (.owned lock (publishedPort? d.files directory))
  | .seeking, .locate => x.take a.1 x.disk .idle (.located (Instance.locate x.disk directory))
  | .owning lock, .publish port =>
    x.take a.1 (Instance.publish x.disk lock port).2 (.owning lock)
      (.published port (Instance.publish x.disk lock port).1)
  | .owning lock, .withdraw => x.take a.1 (Instance.withdraw x.disk lock) (.leaving lock) .withdrew
  | .leaving lock, .abandon => x.take a.1 (Instance.abandon x.disk lock) .idle .abandoned
  | .idle, .kill => x
  | s, .kill => x.take a.1 (s.bereave x.disk) .idle .killed
  | _, _ => x

/-- A whole schedule, from the files that are there at first. -/
def run (files : FileTree) (schedule : List (Process × Request)) : Rivals :=
  schedule.foldl (step directory) (start files)

/-! ## Moves -/

/-- All that one request can do, with the step it adds to the history. -/
inductive Moves : Rivals → Process × Step → Rivals → Prop where
  | refused {x : Rivals} {p : Process} {e : Error} {d : Disk} (idle : x.stage p = .idle)
      (h : Instance.tryLock x.disk directory = (.error e, d)) :
      Moves x (p, .refused e) (x.take p d .idle (.refused e))
  | barred {x : Rivals} {p : Process} {d : Disk} (idle : x.stage p = .idle)
      (h : Instance.tryLock x.disk directory = (.ok none, d)) :
      Moves x (p, .barred) (x.take p d .seeking .barred)
  | owned {x : Rivals} {p : Process} {lock : InstanceLock} {d : Disk} (idle : x.stage p = .idle)
      (h : Instance.tryLock x.disk directory = (.ok (some lock), d)) :
      Moves x (p, .owned lock (publishedPort? d.files directory))
        (x.take p d (.owning lock) (.owned lock (publishedPort? d.files directory)))
  | located {x : Rivals} {p : Process} (seeking : x.stage p = .seeking) :
      Moves x (p, .located (Instance.locate x.disk directory))
        (x.take p x.disk .idle (.located (Instance.locate x.disk directory)))
  | published {x : Rivals} {p : Process} {lock : InstanceLock} (port : UInt16)
      (owning : x.stage p = .owning lock) :
      Moves x (p, .published port (Instance.publish x.disk lock port).1)
        (x.take p (Instance.publish x.disk lock port).2 (.owning lock)
          (.published port (Instance.publish x.disk lock port).1))
  | withdrew {x : Rivals} {p : Process} {lock : InstanceLock} (owning : x.stage p = .owning lock) :
      Moves x (p, .withdrew)
        (x.take p (Instance.withdraw x.disk lock) (.leaving lock) .withdrew)
  | abandoned {x : Rivals} {p : Process} {lock : InstanceLock}
      (leaving : x.stage p = .leaving lock) :
      Moves x (p, .abandoned) (x.take p (Instance.abandon x.disk lock) .idle .abandoned)
  | killed {x : Rivals} {p : Process} (busy : x.stage p ≠ .idle) :
      Moves x (p, .killed) (x.take p ((x.stage p).bereave x.disk) .idle .killed)

theorem step_moves (x : Rivals) (a : Process × Request) :
    x.step directory a = x ∨ ∃ y, Moves directory x y (x.step directory a) := by
  obtain ⟨p, q⟩ := a
  unfold step
  split
  · next hidle _ =>
      split
      · next e d h => exact Or.inr ⟨_, .refused hidle h⟩
      · next d h => exact Or.inr ⟨_, .barred hidle h⟩
      · next lock d h => exact Or.inr ⟨_, .owned hidle h⟩
  · next hseeking _ => exact Or.inr ⟨_, .located hseeking⟩
  · next lock port howning _ => exact Or.inr ⟨_, .published port howning⟩
  · next lock howning _ => exact Or.inr ⟨_, .withdrew howning⟩
  · next lock hleaving _ => exact Or.inr ⟨_, .abandoned hleaving⟩
  · exact Or.inl rfl
  · next hbusy => exact Or.inr ⟨_, .killed hbusy⟩
  · exact Or.inl rfl

variable {directory}

/-- A move puts its step before the history and takes nothing away. -/
theorem Moves.history_eq {x x' : Rivals} {y : Process × Step} (h : Moves directory x y x') :
    x'.history = y :: x.history := by
  cases h <;> rfl

theorem stage_take (x : Rivals) (p : Process) (d : Disk) (s : Stage) (y : Step) :
    (x.take p d s y).stage p = s := by
  show Function.update x.stage p s p = s
  rw [Function.update_self]

theorem stage_take_of_ne {p q : Process} (h : q ≠ p) {x : Rivals} {d : Disk} {s : Stage} {y : Step} :
    (x.take p d s y).stage q = x.stage q := by
  show Function.update x.stage p s q = x.stage q
  rw [Function.update_of_ne h]

/-- A move does not change what others are in the middle of. -/
theorem Moves.stage_eq {x x' : Rivals} {y : Process × Step} (h : Moves directory x y x')
    {p : Process} (hp : p ≠ y.1) : x'.stage p = x.stage p := by
  cases h <;> exact stage_take_of_ne hp

theorem Stage.bereave_of_none {s : Stage} (h : s.lock? = none) (d : Disk) : s.bereave d = d := by
  simp only [bereave, h]

/-- What a process without the lock can do: claim the directory, look for the port, and be killed. -/
theorem Moves.of_lock?_eq_none {x x' : Rivals} {y : Process × Step} (h : Moves directory x y x')
    (hnone : (x.stage y.1).lock? = none) :
    (∃ e d, Instance.tryLock x.disk directory = (.error e, d) ∧ x' = x.take y.1 d .idle (.refused e)) ∨
    (∃ d, Instance.tryLock x.disk directory = (.ok none, d) ∧ y.2 = .barred ∧
      x' = x.take y.1 d .seeking .barred) ∨
    (∃ lock found d, Instance.tryLock x.disk directory = (.ok (some lock), d) ∧
      y.2 = .owned lock found ∧ x' = x.take y.1 d (.owning lock) (.owned lock found)) ∨
    ((y.2 = .located (Instance.locate x.disk directory) ∨ y.2 = .killed) ∧
      x' = x.take y.1 x.disk .idle y.2) := by
  cases h with
  | refused idle h => exact Or.inl ⟨_, _, h, rfl⟩
  | barred idle h => exact Or.inr (Or.inl ⟨_, h, rfl, rfl⟩)
  | owned idle h => exact Or.inr (Or.inr (Or.inl ⟨_, _, _, h, rfl, rfl⟩))
  | located seeking => exact Or.inr (Or.inr (Or.inr ⟨Or.inl rfl, rfl⟩))
  | published port owning =>
      rw [owning] at hnone
      cases hnone
  | withdrew owning =>
      rw [owning] at hnone
      cases hnone
  | abandoned leaving =>
      rw [leaving] at hnone
      cases hnone
  | killed busy =>
      refine Or.inr (Or.inr (Or.inr ⟨Or.inr rfl, ?_⟩))
      rw [Stage.bereave_of_none hnone]

variable (directory) in
/-- The states that schedules lead to. -/
def Reachable (files : FileTree) (x : Rivals) : Prop :=
  ∃ schedule, run directory files schedule = x

/-- Every move is what some request does. -/
theorem Moves.exists_request {x x' : Rivals} {y : Process × Step} (h : Moves directory x y x') :
    ∃ q, x.step directory (y.1, q) = x' := by
  cases h with
  | refused idle h => exact ⟨.tryLock, by simp only [step, idle, h]⟩
  | barred idle h => exact ⟨.tryLock, by simp only [step, idle, h]⟩
  | owned idle h => exact ⟨.tryLock, by simp only [step, idle, h]⟩
  | located seeking => exact ⟨.locate, by simp only [step, seeking]⟩
  | published port owning => exact ⟨.publish port, by simp only [step, owning]⟩
  | withdrew owning => exact ⟨.withdraw, by simp only [step, owning]⟩
  | abandoned leaving => exact ⟨.abandon, by simp only [step, leaving]⟩
  | @killed p busy =>
      refine ⟨.kill, ?_⟩
      cases hs : x.stage p with
      | idle => exact absurd hs busy
      | _ => simp only [step, hs]

theorem Reachable.move {files : FileTree} {x x' : Rivals} {y : Process × Step}
    (hx : Reachable directory files x) (h : Moves directory x y x') :
    Reachable directory files x' := by
  obtain ⟨schedule, rfl⟩ := hx
  obtain ⟨q, hstep⟩ := h.exists_request
  refine ⟨schedule ++ [(y.1, q)], ?_⟩
  rw [run, List.foldl_append]
  exact hstep

variable (directory) in
/-- Processes that contend for a directory, as a system that remembers its moves. -/
def recorder : Recorder Rivals (Process × Request) (Process × Step) where
  step := step directory
  history := history
  Moves := Moves directory
  step_moves := step_moves directory
  history_eq := fun _ _ _ h => h.history_eq

theorem Reachable.recorded {files : FileTree} {x : Rivals} (hx : Reachable directory files x) :
    (recorder directory).Reachable (start files) x :=
  hx

/-- What holds at the start and survives every move holds after every schedule. -/
theorem run_induction {files : FileTree} {P : Rivals → Prop} (hstart : P (start files))
    (hmove : ∀ x y x', Reachable directory files x → P x → Moves directory x y x' → P x')
    {x : Rivals} (hx : Reachable directory files x) : P x := by
  refine Recorder.run_induction hstart ?_ hx.recorded
  intro x y x' hreach _ hbefore h
  exact hmove x y x' hreach hbefore h

/-- Every step of a history was a move from a state of its own. -/
theorem exists_move_of_history_eq {files : FileTree} {x : Rivals}
    (hx : Reachable directory files x) {y : Process × Step} {after before : History}
    (h : x.history = after ++ y :: before) :
    ∃ p q, Reachable directory files p ∧ Moves directory p y q ∧ p.history = before := by
  obtain ⟨p, q, hp, -, hmove, hhist⟩ := Recorder.exists_move_of_history_eq rfl hx.recorded h
  exact ⟨p, q, hp, hmove, hhist⟩

/-- What a step brings about, and what the steps behind it keep, holds as long as there are only such
steps. -/
theorem holds_since {files : FileTree} {P : Rivals → Prop} {quiet : Process × Step → Prop}
    {y : Process × Step} {before : History}
    (hmark : ∀ p q, Reachable directory files p → p.history = before → Moves directory p y q → P q)
    (hkeep : ∀ p z q, Reachable directory files p → P p → quiet z → Moves directory p z q → P q)
    {x : Rivals} (hx : Reachable directory files x) {after : History}
    (h : x.history = after ++ y :: before) (hafter : ∀ z ∈ after, quiet z) : P x := by
  refine Recorder.holds_since rfl ?_ ?_ hx.recorded h hafter
  · exact hmark
  · exact hkeep

/-! ## Who holds the lock -/

/-- Nobody holds the lock. -/
structure Free (x : Rivals) : Prop where
  stage : ∀ p, (x.stage p).lock? = none
  locked : x.disk.locked = []

variable (directory) in
/-- One process holds the lock, and the files are in their places. -/
structure Held (x : Rivals) (o : Process) (lock : InstanceLock) : Prop where
  stage : (x.stage o).lock? = some lock
  others : ∀ p, p ≠ o → (x.stage p).lock? = none
  locked : x.disk.locked = [lock.file]
  portPath : lock.portPath = Instance.portPath directory
  housed : ∃ base, Housed x.disk.files directory base lock.file

variable (directory) in
/-- The lock is free, or one process holds it. -/
def Orderly (x : Rivals) : Prop :=
  Free x ∨ ∃ o lock, Held directory x o lock

section

variable {x x' : Rivals} {o : Process} {lock : InstanceLock} {y : Process × Step}

/-- What the others can do while the lock is held: find it held, look for the port, and be killed.
None of that changes anything on the disk. -/
theorem Held.of_other (hheld : Held directory x o lock) (h : Moves directory x y x')
    (hy : y.1 ≠ o) :
    Held directory x' o lock ∧ x'.disk = x.disk ∧
      (y.2 = .barred ∨ y.2 = .located (Instance.locate x.disk directory) ∨ y.2 = .killed) := by
  obtain ⟨base, hhoused⟩ := hheld.housed
  have hlocked : lock.file ∈ x.disk.locked := by rw [hheld.locked]; exact List.mem_singleton_self _
  have htry : Instance.tryLock x.disk directory = (.ok none, x.disk) := by
    rw [tryLock_of_housed hhoused, if_pos hlocked]
  -- Whatever leaves the disk alone and ends without a lock keeps what is held.
  have hkeep : ∀ s z, Stage.lock? s = none →
      Held directory (x.take y.1 x.disk s z) o lock := by
    intro s z hs
    refine ⟨?_, fun p hp => ?_, hheld.locked, hheld.portPath, hheld.housed⟩
    · rw [stage_take_of_ne hy.symm]
      exact hheld.stage
    · by_cases hpy : p = y.1
      · rw [hpy, stage_take]
        exact hs
      · rw [stage_take_of_ne hpy]
        exact hheld.others p hp
  rcases h.of_lock?_eq_none (hheld.others y.1 hy) with
    ⟨e, d, hclaim, -⟩ | ⟨d, hclaim, hstep, rfl⟩ | ⟨held, found, d, hclaim, -⟩ | ⟨hstep, rfl⟩
  · rw [htry] at hclaim
    cases hclaim
  · rw [htry] at hclaim
    cases hclaim
    exact ⟨hkeep .seeking .barred rfl, rfl, Or.inl hstep⟩
  · rw [htry] at hclaim
    cases hclaim
  · exact ⟨hkeep .idle y.2 rfl, rfl, Or.inr hstep⟩

/-- The lock and the file that is locked, as the operations on a directory name them. -/
theorem Held.lock_eq (hheld : Held directory x o lock) :
    lock = ⟨lock.file, Instance.portPath directory⟩ := by
  rw [← hheld.portPath]

/-- The holder goes on holding the lock after a step that leaves the files in their places. -/
theorem Held.take (hheld : Held directory x o lock) {files : FileTree} {s : Stage} (z : Step)
    (hs : s.lock? = some lock) (hfiles : ∃ base, Housed files directory base lock.file) :
    Held directory (x.take o { x.disk with files } s z) o lock := by
  refine ⟨?_, fun p hp => ?_, hheld.locked, hheld.portPath, hfiles⟩
  · rw [stage_take]
    exact hs
  · rw [stage_take_of_ne hp]
    exact hheld.others p hp

/-- The lock is free once its holder has given it up or is killed. -/
theorem Held.free (hheld : Held directory x o lock) (z : Step) :
    Free (x.take o (Instance.abandon x.disk lock) .idle z) := by
  constructor
  · intro p
    by_cases hp : p = o
    · rw [hp, stage_take]
      rfl
    · rw [stage_take_of_ne hp]
      exact hheld.others p hp
  · show x.disk.locked.erase lock.file = []
    rw [hheld.locked, List.erase_cons_head]

/-- What the holder can do. -/
theorem Held.move (hheld : Held directory x o lock) (h : Moves directory x y x') :
    Orderly directory x' := by
  by_cases hy : y.1 = o
  · subst hy
    obtain ⟨base, hhoused⟩ := hheld.housed
    have hstage := hheld.stage
    cases h with
    | refused idle h =>
        rw [idle] at hstage
        cases hstage
    | barred idle h =>
        rw [idle] at hstage
        cases hstage
    | owned idle h =>
        rw [idle] at hstage
        cases hstage
    | located seeking =>
        rw [seeking] at hstage
        cases hstage
    | @published p held port owning =>
        obtain rfl : held = lock := by
          rw [owning] at hstage
          exact Option.some.inj hstage
        refine Or.inr ⟨p, held, ?_⟩
        rw [hheld.lock_eq]
        rcases publish_of_housed hhoused port with ⟨e, hpub⟩ | ⟨files, number, hpub, hfiles, -⟩
        · rw [hpub, ← hheld.lock_eq]
          exact hheld.take _ rfl ⟨base, hhoused⟩
        · rw [hpub, ← hheld.lock_eq]
          exact hheld.take _ rfl ⟨base, hfiles⟩
    | @withdrew p held owning =>
        obtain rfl : held = lock := by
          rw [owning] at hstage
          exact Option.some.inj hstage
        obtain ⟨files, hgone, hfiles, -⟩ := withdraw_of_housed hhoused
        rw [← hheld.lock_eq] at hgone
        rw [hgone]
        exact Or.inr ⟨p, held, hheld.take _ rfl ⟨base, hfiles⟩⟩
    | @abandoned p held leaving =>
        obtain rfl : held = lock := by
          rw [leaving] at hstage
          exact Option.some.inj hstage
        exact Or.inl (hheld.free .abandoned)
    | @killed p busy =>
        have hdisk : (x.stage p).bereave x.disk = Instance.abandon x.disk lock := by
          simp only [Stage.bereave, hstage]
        rw [hdisk]
        exact Or.inl (hheld.free .killed)
  · exact Or.inr ⟨o, lock, (hheld.of_other h hy).1⟩

/-- The lock stays free after a step that locks nothing. -/
theorem Free.take (hfree : Free x) (p : Process) (files : FileTree) {s : Stage} (z : Step)
    (hs : s.lock? = none) : Free (x.take p { x.disk with files } s z) := by
  refine ⟨fun q => ?_, hfree.locked⟩
  by_cases hq : q = p
  · rw [hq, stage_take]
    exact hs
  · rw [stage_take_of_ne hq]
    exact hfree.stage q

/-- A claim takes a free lock, unless it fails before it comes to it. -/
theorem Free.tryLock_cases (hfree : Free x) (directory : Path) :
    (∃ e files, Instance.tryLock x.disk directory = (.error (.io e), { x.disk with files }) ∧
      files.contents = x.disk.files.contents) ∨
    ∃ files base file, Housed files directory base file ∧
      (∀ l, l ≠ base ++ [lockName] → files.contents l = x.disk.files.contents l) ∧
      Instance.tryLock x.disk directory =
        (.ok (some ⟨file, Instance.portPath directory⟩), ⟨files, [file]⟩) := by
  refine (Instance.tryLock_cases x.disk directory).imp_right ?_
  rintro ⟨files, base, file, hhoused, hothers, htry⟩
  rw [hfree.locked, if_neg List.not_mem_nil] at htry
  exact ⟨files, base, file, hhoused, hothers, htry⟩

/-- What can happen while the lock is free: a claim takes it or fails, and others are killed or look
for a port that they were told of before. -/
theorem Free.move (hfree : Free x) (h : Moves directory x y x') : Orderly directory x' := by
  have htry := hfree.tryLock_cases directory
  rcases h.of_lock?_eq_none (hfree.stage y.1) with
    ⟨e, d, hclaim, rfl⟩ | ⟨d, hclaim, -, rfl⟩ | ⟨held, found, d, hclaim, -, rfl⟩ | ⟨-, rfl⟩
  · rcases htry with ⟨e', files, htry, -⟩ | ⟨files, base, file, -, -, htry⟩
    · rw [htry] at hclaim
      cases hclaim
      exact Or.inl (hfree.take y.1 files _ rfl)
    · rw [htry] at hclaim
      cases hclaim
  · rcases htry with ⟨e', files, htry, -⟩ | ⟨files, base, file, -, -, htry⟩
    all_goals
      rw [htry] at hclaim
      cases hclaim
  · rcases htry with ⟨e', files, htry, -⟩ | ⟨files, base, file, hhoused, -, htry⟩
    · rw [htry] at hclaim
      cases hclaim
    · rw [htry] at hclaim
      cases hclaim
      refine Or.inr ⟨y.1, ⟨file, Instance.portPath directory⟩, ?_, fun q hq => ?_, rfl, rfl,
        ⟨base, hhoused⟩⟩
      · rw [stage_take]
        rfl
      · rw [stage_take_of_ne hq]
        exact hfree.stage q
  · exact Or.inl (hfree.take y.1 x.disk.files _ rfl)

end

/-- The lock is free or one process holds it, after every schedule. -/
theorem orderly_of_reachable {files : FileTree} {x : Rivals}
    (hx : Reachable directory files x) : Orderly directory x := by
  refine run_induction (Or.inl ⟨fun _ => rfl, rfl⟩) ?_ hx
  rintro x y x' - (hfree | ⟨o, lock, hheld⟩) hmove
  · exact hfree.move hmove
  · exact hheld.move hmove

/-- Whoever holds a lock is the one process that holds the lock. -/
theorem held_of_lock? {files : FileTree} {x : Rivals} {o : Process} {lock : InstanceLock}
    (hx : Reachable directory files x) (ho : (x.stage o).lock? = some lock) :
    Held directory x o lock := by
  rcases orderly_of_reachable hx with hfree | ⟨p, held, hheld⟩
  · rw [hfree.stage o] at ho
    cases ho
  · have hsame : o = p := by
      by_contra hne
      rw [hheld.others o hne] at ho
      cases ho
    subst hsame
    obtain rfl : held = lock := by
      rw [hheld.stage] at ho
      exact Option.some.inj ho
    exact hheld

end

end Rivals

end LiveDiagram
