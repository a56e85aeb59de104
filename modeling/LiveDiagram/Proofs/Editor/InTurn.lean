import LiveDiagram.Proofs.Editor.Machine

/-!
# The program as a schedule

The program does not ask its processes for one step after another.  What it does at a start, for a
request and at an end is what these steps do when one process takes them in turn, with nobody in between
(`inTurn`).  So what is known of every schedule is known of the program.

Every way out goes through the same two steps, whatever came before, and a failed start is no exception:
the requests that it has no use for are passed over.

## Main results

* `begin_eq_serve`, `serve_eq_inTurn`: a start that gets the lock.
* `request_eq_step`, `exists_attended`: one request to an editor, and any number of them.
* `stop_eq_inTurn`: the end of an editor.
-/

namespace LiveDiagram

namespace Instance

/-- A claim that comes to own the directory has got its lock. -/
theorem tryLock_of_claim {d d' : Disk} {directory : Path} {lock : InstanceLock}
    (h : claim d directory = (.ok (.owned lock), d')) :
    tryLock d directory = (.ok (some lock), d') := by
  unfold claim at h
  split at h
  · cases h
  · next held d₁ htry =>
      cases h
      exact htry
  · have hlocate := congrArg Prod.fst h
    simp only [locate] at hlocate
    split at hlocate <;> cases hlocate

end Instance

namespace Machine

open Instance

section

variable {disk : Disk} {x : Machine} {p : Process} {settings : Settings} {lock : InstanceLock}
  {phase : Phase}

/-! ## Requests made in turn -/

/-- Requests to one process, one after another. -/
def inTurn (x : Machine) (p : Process) (requests : List Request) : Machine :=
  (requests.map fun q => (p, q)).foldl step x

theorem Reachable.inTurn (hx : Reachable disk x) (p : Process) (requests : List Request) :
    Reachable disk (x.inTurn p requests) :=
  Recorder.Reachable.foldl hx _

theorem inTurn_cons (x : Machine) (p : Process) (q : Request) (requests : List Request) :
    x.inTurn p (q :: requests) = (x.step (p, q)).inTurn p requests :=
  rfl

theorem inTurn_nil (x : Machine) (p : Process) : x.inTurn p [] = x :=
  rfl

theorem step_start {d : Disk} (hidle : x.stage p = .idle)
    (h : tryLock x.disk (home settings) = (.ok (some lock), d)) :
    x.step (p, .start settings) =
      x.take p d (.owner settings lock .fresh) (.owned (home settings) lock) := by
  simp only [step, hidle, h]

/-- A request that an owner follows and goes on. -/
theorem step_onward {q : Request} {z : Step} {d : Disk} {phase' : Phase}
    (hp : x.stage p = .owner settings lock phase)
    (h : phase.step settings lock x.disk q = some (z, d, some phase')) :
    x.step (p, q) = x.take p d (.owner settings lock phase') z := by
  simp only [step, hp, h, Stage.behind]

/-- A request that an owner cannot follow is passed over. -/
theorem step_passed {q : Request} (hp : x.stage p = .owner settings lock phase)
    (h : phase.step settings lock x.disk q = none) : x.step (p, q) = x := by
  simp only [step, hp, h]

theorem step_abandon (hp : x.stage p = .owner settings lock .withdrawn) :
    x.step (p, .abandon) =
      x.take p (Instance.abandon x.disk lock) .idle (.abandoned (home settings) lock) := by
  simp only [step, hp, Phase.step, Stage.behind]

/-! ## Starts, requests and ends -/

/-- The process has just given the lock up. -/
def GivenUp (x : Machine) (p : Process) (directory : Path) (lock : InstanceLock) : Prop :=
  ∃ before, x.history = (p, .abandoned directory lock) :: before

/-- The way out of every owner that is done: the port is taken away and the lock given up. -/
theorem inTurn_leaving (hp : x.stage p = .owner settings lock .leaving) :
    (x.inTurn p [.withdraw, .abandon]).disk = release x.disk lock ∧
      (x.inTurn p [.withdraw, .abandon]).GivenUp p (home settings) lock := by
  rw [inTurn_cons, step_onward hp rfl, inTurn_cons, step_abandon (stage_take x p _ _ _), inTurn_nil]
  exact ⟨rfl, _, rfl⟩

/-- A request to an editor is a step of its process. -/
theorem request_eq_step {w : World} {e : Editor} {r : LiveDiagram.Request} {answer : Answer}
    {gateway : Gateway} (hw : w.disk = x.disk) (hp : x.stage p = .owner settings lock (.serving e))
    (h : { e.gateway with files := x.disk.files }.handle r = (answer, gateway)) :
    Program.request w e r = (answer, Program.updateEditor w { e with gateway }) ∧
      x.step (p, .answer r) = x.take p (Program.updateEditor w { e with gateway }).disk
        (.owner settings lock (.serving { e with gateway })) (.answered r answer) := by
  have hanswered : Phase.step settings lock x.disk (.serving e) (.answer r) =
      some (.answered r answer, { x.disk with files := gateway.files },
        some (.serving { e with gateway })) := by
    simp only [Phase.step, h]
  constructor
  · simp only [Program.request, hw, h]
  · rw [step_onward hp hanswered, ← hw]
    rfl

/-- An editor that is asked one thing after another, and what it leaves of its world. -/
def attend (w : World) (e : Editor) : List LiveDiagram.Request → Editor × World
  | [] => (e, w)
  | r :: rs =>
    attend (Program.request w e r).2
      { e with gateway := ({ e.gateway with files := w.disk.files }.handle r).2 } rs

/-- Whatever an editor is asked, its process goes on serving at the same address. -/
theorem exists_attended (hx : Reachable disk x) {w : World} {e : Editor} (hw : w.disk = x.disk)
    (hp : x.stage p = .owner settings lock (.serving e)) (rs : List LiveDiagram.Request) :
    ∃ x' e' w', Reachable disk x' ∧ attend w e rs = (e', w') ∧ w'.disk = x'.disk ∧
      x'.stage p = .owner settings lock (.serving e') ∧ e'.address = e.address := by
  induction rs generalizing x w e with
  | nil => exact ⟨x, e, w, hx, rfl, hw, hp, rfl⟩
  | cons r rs ih =>
      obtain ⟨answer, gateway, h⟩ : ∃ answer gateway,
          { e.gateway with files := x.disk.files }.handle r = (answer, gateway) := ⟨_, _, rfl⟩
      obtain ⟨hrequest, hstep⟩ := request_eq_step hw hp h
      have hnext : attend w e (r :: rs) =
          attend (Program.updateEditor w { e with gateway }) { e with gateway } rs := by
        simp only [attend, hrequest, hw, h]
      have hanswered : Reachable disk (x.step (p, .answer r)) := hx.inTurn p [.answer r]
      rw [hstep] at hanswered
      rw [hnext]
      exact ih hanswered rfl (stage_take x p _ _ _)

/-- The end of an editor is the requests to end, made in turn. -/
theorem stop_eq_inTurn {w : World} {e : Editor} (hw : w.disk = x.disk)
    (hp : x.stage p = .owner settings e.lock (.serving e)) :
    (Program.stop w e).2.disk = (x.inTurn p [.giveUp, .withdraw, .abandon]).disk ∧
      (x.inTurn p [.giveUp, .withdraw, .abandon]).GivenUp p (home settings) e.lock := by
  obtain ⟨hdisk, hend⟩ := inTurn_leaving (stage_take x p x.disk
    (.owner settings e.lock .leaving) .gaveUp)
  rw [inTurn_cons, step_onward hp rfl]
  refine ⟨?_, hend⟩
  rw [hdisk]
  show release w.disk e.lock = release x.disk e.lock
  rw [hw]

/-- Why whoever has the lock cannot serve: no port can be had, or it cannot be published. -/
def Fails (w : World) (settings : Settings) (lock : InstanceLock) (e : Error) : Prop :=
  w.ports.bind settings.address = .error e ∨
    ∃ address, w.ports.bind settings.address = .ok address ∧
      (publish w.disk lock address.port).1 = .error e

/-- What the program does with the lock is what the requests to listen, to publish and to end do, made
in turn, unless the editor comes to serve. -/
theorem serve_eq_inTurn {w : World} (hw : w.disk = x.disk)
    (hp : x.stage p = .owner settings lock .fresh) :
    (∃ e, Fails w settings lock e ∧
      (x.inTurn p [.bind w.ports, .publish, .withdraw, .abandon]).GivenUp p (home settings) lock ∧
      Program.serve w settings lock = (.exited 1 "" (Program.report e),
        { w with disk := (x.inTurn p [.bind w.ports, .publish, .withdraw, .abandon]).disk })) ∨
    ∃ e, w.ports.bind settings.address = .ok e.address ∧
      (x.inTurn p [.bind w.ports, .publish]).stage p = .owner settings lock (.serving e) ∧
      Program.serve w settings lock = (.serving e (Program.servingLine e.address),
        { w with
          disk := (x.inTurn p [.bind w.ports, .publish]).disk
          editors := e :: w.editors }) := by
  unfold Fails
  rw [hw]
  cases hbind : w.ports.bind settings.address with
  | error e =>
      have hunbound : Phase.step settings lock x.disk .fresh (.bind w.ports) =
          some (.bound (.error e), x.disk, some .leaving) := by
        simp only [Phase.step, hbind]
      have hleaving := stage_take x p x.disk (.owner settings lock .leaving) (.bound (.error e))
      obtain ⟨hdisk, hend⟩ := inTurn_leaving hleaving
      refine Or.inl ⟨e, Or.inl rfl, ?_⟩
      rw [inTurn_cons, step_onward hp hunbound, inTurn_cons, step_passed hleaving rfl]
      refine ⟨hend, ?_⟩
      rw [hdisk]
      simp only [Program.serve, hbind, hw]
      rfl
  | ok address =>
      have hbound : Phase.step settings lock x.disk .fresh (.bind w.ports) =
          some (.bound (.ok address), x.disk, some (.listening address)) := by
        simp only [Phase.step, hbind]
      have hlistening := stage_take x p x.disk (.owner settings lock (.listening address))
        (.bound (.ok address))
      obtain ⟨result, d, hpublish⟩ : ∃ result d, publish x.disk lock address.port = (result, d) :=
        ⟨_, _, rfl⟩
      cases result with
      | error e =>
          have hunpublished : Phase.step settings lock x.disk (.listening address) .publish =
              some (.published address.port (.error e), d, some .leaving) := by
            simp only [Phase.step, hpublish]
          refine Or.inl ⟨e, Or.inr ⟨address, rfl, by rw [hpublish]⟩, ?_⟩
          rw [inTurn_cons, step_onward hp hbound, inTurn_cons, step_onward hlistening hunpublished]
          obtain ⟨hdisk, hend⟩ := inTurn_leaving (stage_take _ p d (.owner settings lock .leaving) _)
          refine ⟨hend, ?_⟩
          rw [hdisk]
          simp only [Program.serve, hbind, hw, hpublish]
          rfl
      | ok done =>
          have hpublished : Phase.step settings lock x.disk (.listening address) .publish =
              some (.published address.port (.ok ()), d,
                some (.serving (opened settings lock address d.files))) := by
            simp only [Phase.step, hpublish]
          refine Or.inr ⟨opened settings lock address d.files, rfl, ?_⟩
          rw [inTurn_cons, step_onward hp hbound, inTurn_cons, step_onward hlistening hpublished,
            inTurn_nil]
          refine ⟨stage_take _ p _ _ _, ?_⟩
          simp only [Program.serve, hbind, hw, hpublish]
          rfl

/-- A start of the program that gets the lock is the request to start, and what it does with the lock. -/
theorem begin_eq_serve {w : World} {d : Disk}
    (h : claim w.disk (home settings) = (.ok (.owned lock), d)) (hw : w.disk = x.disk)
    (hidle : x.stage p = .idle) :
    Program.begin w settings =
        Program.serve { w with disk := (x.step (p, .start settings)).disk } settings lock ∧
      (x.step (p, .start settings)).disk = d ∧
      (x.step (p, .start settings)).stage p = .owner settings lock .fresh := by
  rw [step_start hidle (hw ▸ tryLock_of_claim h)]
  refine ⟨?_, rfl, stage_take x p _ _ _⟩
  unfold home at h
  simp only [Program.begin, h]
  rfl

end

end Machine

end LiveDiagram
