import LiveDiagram.Proofs.Editor.Rivals

/-!
# One owner at a time

The lock and the port are two things that change at different times, and a release is two steps
between which others may look at the directory.  What makes this safe is the order: the port is only
touched by the process that holds the lock, and it goes before the lock does.  So a port that an
owner has published stays until that owner touches it again or is killed, and a directory that was
released holds no port until someone else owns it.

Both laws are about what has happened since a certain step, whatever the others did meanwhile.

## Main results

* `Posted.move`: a published port survives every step but its owner's.
* `Released.move`: a released directory stays as it is until it is claimed.
* `one_owner`: the law for every interleaving.
-/

namespace LiveDiagram.Rivals

open Instance

/-- A step that leaves a process owning the directory, with the port that it has published: a step of
another process, or a publication that failed. -/
def Spares (o : Process) (z : Process × Step) : Prop :=
  z.1 ≠ o ∨ ∃ port e, z.2 = .published port (.error e)

/-- A step that does not take the lock. -/
def Unclaimed (z : Process × Step) : Prop :=
  ∀ lock found, z.2 ≠ .owned lock found

section

variable {directory : Path} {files : FileTree} {x x' : Rivals} {o : Process} {lock : InstanceLock}
  {port : UInt16} {y : Process × Step}

/-! ## Claims while the lock is held -/

theorem Held.tryLock_eq (h : Held directory x o lock) :
    Instance.tryLock x.disk directory = (.ok none, x.disk) := by
  obtain ⟨base, hhoused⟩ := h.housed
  rw [tryLock_of_housed hhoused, h.locked, if_pos (List.mem_singleton_self _)]

/-- Who claims a directory that is owned is told what its port file says. -/
theorem Held.claim_eq (h : Held directory x o lock) :
    claim x.disk directory = (Instance.locate x.disk directory, x.disk) := by
  rw [claim, h.tryLock_eq]

/-! ## A port that is published -/

variable (directory) in
/-- This process owns the directory, and the port file holds the port it has published. -/
structure Posted (x : Rivals) (o : Process) (port : UInt16) : Prop where
  owning : ∃ lock, x.stage o = .owning lock
  read : x.disk.files.read (portPath directory) = .ok (Decimal.numeral port.toNat)

theorem held_of_owning (hx : Reachable directory files x) (ho : x.stage o = .owning lock) :
    Held directory x o lock :=
  held_of_lock? hx (by rw [ho]; rfl)

theorem posted_of_published (hx : Reachable directory files x)
    (h : Moves directory x (o, .published port (.ok ())) x') : Posted directory x' o port := by
  generalize hy : (o, Step.published port (.ok ())) = y at h
  cases h with
  | @published p lock sent owning =>
      obtain ⟨rfl, hstep⟩ := Prod.mk.inj hy
      obtain ⟨rfl, hresult⟩ := Step.published.inj hstep
      have hheld := held_of_owning hx owning
      obtain ⟨base, hhoused⟩ := hheld.housed
      rcases publish_of_housed hhoused port with ⟨e, hpub⟩ | ⟨files', number, hpub, hfiles, hport⟩
      · rw [hheld.lock_eq, hpub] at hresult
        cases hresult
      · refine ⟨⟨lock, stage_take _ _ _ _ _⟩, ?_⟩
        show (Instance.publish x.disk lock port).2.files.read _ = _
        rw [hheld.lock_eq, hpub]
        exact hfiles.read_eq_ok_iff.mpr ⟨number, hport⟩
  | _ => cases hy

/-- A step that spares the owner leaves the disk as it is, and the owner what it was. -/
theorem Spares.unchanged (hx : Reachable directory files x) (ho : x.stage o = .owning lock)
    (hy : Spares o y) (h : Moves directory x y x') :
    x'.stage o = .owning lock ∧ x'.disk = x.disk := by
  have hheld := held_of_owning hx ho
  by_cases hother : y.1 = o
  · obtain ⟨sent, e, hfailed⟩ := hy.resolve_left (not_not_intro hother)
    cases h with
    | @published p held port owning =>
        obtain rfl : p = o := hother
        obtain rfl : held = lock := Stage.owning.inj (owning.symm.trans ho)
        obtain ⟨-, hresult⟩ := Step.published.inj hfailed
        refine ⟨stage_take _ _ _ _ _, ?_⟩
        obtain ⟨base, hhoused⟩ := hheld.housed
        show (Instance.publish x.disk held port).2 = x.disk
        rcases publish_of_housed hhoused port with ⟨e, hpub⟩ | ⟨files', number, hpub, -⟩
        · rw [hheld.lock_eq, hpub]
        · rw [hheld.lock_eq, hpub] at hresult
          cases hresult
    | _ => cases hfailed
  · exact ⟨(h.stage_eq (Ne.symm hother)).trans ho, (hheld.of_other h hother).2.1⟩

/-- A published port survives every step that spares its owner. -/
theorem Posted.move (hx : Reachable directory files x) (hposted : Posted directory x o port)
    (hy : Spares o y) (h : Moves directory x y x') : Posted directory x' o port := by
  obtain ⟨lock, ho⟩ := hposted.owning
  obtain ⟨hstage, hdisk⟩ := hy.unchanged hx ho h
  exact ⟨⟨lock, hstage⟩, hdisk ▸ hposted.read⟩

theorem posted_since {after before : History} (hx : Reachable directory files x)
    (h : x.history = after ++ (o, .published port (.ok ())) :: before)
    (hafter : ∀ z ∈ after, Spares o z) : Posted directory x o port :=
  holds_since (fun _ _ hp _ hmove => posted_of_published hp hmove)
    (fun _ _ _ hp hposted hz hmove => hposted.move hp hz hmove) hx h hafter

theorem Posted.locate_eq (h : Posted directory x o port) :
    Instance.locate x.disk directory = .ok (.running (url port)) := by
  simp only [Instance.locate, publishedPort?, h.read, Except.toOption, Option.bind_some,
    portOfFile?_numeral]

/-- Whoever claims the directory is told the port that its owner has published. -/
theorem Posted.claim_eq (hx : Reachable directory files x) (h : Posted directory x o port) :
    claim x.disk directory = (.ok (.running (url port)), x.disk) := by
  obtain ⟨lock, ho⟩ := h.owning
  rw [(held_of_owning hx ho).claim_eq, h.locate_eq]

/-- What the others did since a port was published: they found the lock held, were told the port, or
were killed. -/
theorem told_since {after before : History} (hx : Reachable directory files x)
    (h : x.history = after ++ (o, .published port (.ok ())) :: before)
    (hafter : ∀ z ∈ after, Spares o z) {z : Process × Step} (hz : z ∈ after) (hother : z.1 ≠ o) :
    z.2 = .barred ∨ z.2 = .located (.ok (.running (url port))) ∨ z.2 = .killed := by
  obtain ⟨later, earlier, rfl⟩ := List.append_of_mem hz
  rw [List.append_assoc, List.cons_append] at h
  obtain ⟨p, q, hp, hmove, hhist⟩ := exists_move_of_history_eq hx h
  have hposted := posted_since hp hhist fun w hw =>
    hafter w (List.mem_append_right _ (List.mem_cons_of_mem _ hw))
  obtain ⟨lock, ho⟩ := hposted.owning
  rw [← hposted.locate_eq]
  exact ((held_of_owning hp ho).of_other hmove hother).2.2

/-! ## A directory that is released -/

variable (directory) in
/-- The port's place, as the directory stands, holds no file. -/
def NoPort (x : Rivals) : Prop :=
  ∃ base file, Housed x.disk.files directory base file ∧
    x.disk.files.contents (base ++ [portName]) = none

/-- An owner that is about to give the lock up has taken its port away. -/
theorem noPort_of_leaving (hx : Reachable directory files x) (ho : x.stage o = .leaving lock) :
    NoPort directory x := by
  refine run_induction (P := fun x => ∀ o lock, x.stage o = .leaving lock → NoPort directory x)
    ?_ ?_ hx o lock ho
  · intro o lock ho
    cases ho
  · intro x y x' hreach ih hmove o lock ho
    by_cases hy : y.1 = o
    · cases hmove with
      | @withdrew p held owning =>
          have hheld := held_of_owning hreach owning
          obtain ⟨base, hhoused⟩ := hheld.housed
          obtain ⟨files', hgone, hfiles, hnone⟩ := withdraw_of_housed hhoused
          rw [← hheld.lock_eq] at hgone
          refine ⟨base, held.file, ?_⟩
          show Housed (Instance.withdraw x.disk held).files directory base held.file ∧ _
          rw [hgone]
          exact ⟨hfiles, hnone⟩
      | _ =>
          obtain rfl := hy
          rw [stage_take] at ho
          cases ho
    · rw [hmove.stage_eq (Ne.symm hy)] at ho
      have hheld : Held directory x o lock := held_of_lock? hreach (by rw [ho]; rfl)
      rw [NoPort, (hheld.of_other hmove hy).2.1]
      exact ih o lock ho

variable (directory) in
/-- Nobody owns the directory, and it holds no port. -/
structure Released (x : Rivals) : Prop where
  free : Free x
  noPort : NoPort directory x

theorem released_of_abandoned (hx : Reachable directory files x)
    (h : Moves directory x (o, .abandoned) x') : Released directory x' := by
  generalize hy : (o, Step.abandoned) = y at h
  cases h with
  | @abandoned p lock leaving =>
      have hheld : Held directory x p lock := held_of_lock? hx (by rw [leaving]; rfl)
      have hport := noPort_of_leaving hx leaving
      exact ⟨hheld.free _, hport⟩
  | _ => cases hy

theorem Released.tryLock_eq (h : Released directory x) :
    ∃ lock, Instance.tryLock x.disk directory =
      (.ok (some lock), { x.disk with locked := [lock.file] }) := by
  obtain ⟨base, file, hhoused, -⟩ := h.noPort
  refine ⟨⟨file, portPath directory⟩, ?_⟩
  rw [tryLock_of_housed hhoused, h.free.locked, if_neg List.not_mem_nil]

/-- A released directory stays as it is until it is claimed. -/
theorem Released.move (hreleased : Released directory x) (hy : Unclaimed y)
    (h : Moves directory x y x') : Released directory x' := by
  obtain ⟨lock, htry⟩ := hreleased.tryLock_eq
  rcases h.of_lock?_eq_none (hreleased.free.stage y.1) with
    ⟨e, d, hclaim, -⟩ | ⟨d, hclaim, -⟩ | ⟨held, found, d, -, hstep, -⟩ | ⟨-, rfl⟩
  · rw [htry] at hclaim
    cases hclaim
  · rw [htry] at hclaim
    cases hclaim
  · exact absurd hstep (hy held found)
  · exact ⟨hreleased.free.take y.1 x.disk.files y.2 rfl, hreleased.noPort⟩

theorem released_since {after before : History} (hx : Reachable directory files x)
    (h : x.history = after ++ (o, .abandoned) :: before) (hafter : ∀ z ∈ after, Unclaimed z) :
    Released directory x :=
  holds_since (fun _ _ hp _ hmove => released_of_abandoned hp hmove)
    (fun _ _ _ _ hreleased hz hmove => hreleased.move hz hmove) hx h hafter

/-! ## The law -/

/-- **One owner at a time**, from whatever files there are at first and after every interleaving of
claims, publications, releases and kills of any number of processes.

No two processes hold the lock.  Since an owner has published a port, and as long as it does not
publish again, begin to release the directory or die, the port file holds that port; every claim
finds the lock held, changes nothing and returns the address of that port.  Since a directory was
released, and as long as nobody has come to own it, it holds no port file, and the next claim
returns the lock. -/
theorem one_owner (hx : Reachable directory files x) :
    (∀ p q held held', (x.stage p).lock? = some held → (x.stage q).lock? = some held' →
      p = q ∧ held = held') ∧
    (∀ o port after before, x.history = after ++ (o, .published port (.ok ())) :: before →
      (∀ z ∈ after, Spares o z) →
      x.disk.files.read (portPath directory) = .ok (Decimal.numeral port.toNat) ∧
      claim x.disk directory = (.ok (.running (url port)), x.disk) ∧
      ∀ z ∈ after, z.1 ≠ o →
        z.2 = .barred ∨ z.2 = .located (.ok (.running (url port))) ∨ z.2 = .killed) ∧
    (∀ o after before, x.history = after ++ (o, .abandoned) :: before →
      (∀ z ∈ after, Unclaimed z) →
      (x.disk.files.exists? (portPath directory) = false ∨
        x.disk.files.isDirectory (portPath directory) = true) ∧
      ∃ lock, claim x.disk directory =
        (.ok (.owned lock), { x.disk with locked := [lock.file] })) := by
  refine ⟨?_, ?_, ?_⟩
  · intro p q held held' hp hq
    have hheld := held_of_lock? hx hp
    have hsame : q = p := by
      by_contra hne
      rw [hheld.others q hne] at hq
      cases hq
    subst hsame
    rw [hp] at hq
    exact ⟨rfl, Option.some.inj hq⟩
  · intro o port after before hhist hafter
    have hposted := posted_since hx hhist hafter
    exact ⟨hposted.read, hposted.claim_eq hx, fun z hz hother => told_since hx hhist hafter hz hother⟩
  · intro o after before hhist hafter
    have hreleased := released_since hx hhist hafter
    obtain ⟨lock, htry⟩ := hreleased.tryLock_eq
    obtain ⟨base, file, hhoused, hnone⟩ := hreleased.noPort
    exact ⟨hhoused.vacant hnone, lock, by rw [claim, htry]⟩

end

/-- A release during which another process claims, and the next owner. -/
theorem one_owner_succession :
    let directory : Path := ⟨["state"]⟩
    let first : List (Process × Request) := [(0, .tryLock), (0, .publish 4321), (1, .tryLock),
      (0, .withdraw), (0, .abandon), (1, .locate)]
    let x := run directory .empty first
    let y := run directory .empty (first ++ [(1, .tryLock), (1, .publish 5000), (2, .tryLock)])
    (x.history = [(1, .located (.error .locked))] ++ (0, .abandoned) :: x.history.drop 2 ∧
      (∀ z ∈ [(1, Step.located (.error .locked))], Unclaimed z) ∧
      ∃ lock, claim x.disk directory =
        (.ok (.owned lock), { x.disk with locked := [lock.file] })) ∧
    (y.history = [(2, .barred)] ++ (1, .published 5000 (.ok ())) :: y.history.drop 2 ∧
      (∀ z ∈ [(2, Step.barred)], Spares 1 z) ∧
      claim y.disk directory = (.ok (.running "http://127.0.0.1:5000"), y.disk)) := by
  intro directory first x y
  have hx : Reachable directory .empty x := ⟨_, rfl⟩
  have hy : Reachable directory .empty y := ⟨_, rfl⟩
  have hreleased : x.history = [(1, .located (.error .locked))] ++
      (0, .abandoned) :: x.history.drop 2 := by decide +kernel
  have hposted : y.history = [(2, .barred)] ++ (1, .published 5000 (.ok ())) :: y.history.drop 2 := by
    decide +kernel
  have hunclaimed : ∀ z ∈ [((1 : Process), Step.located (.error .locked))], Unclaimed z := by
    intro z hz lock found h
    rw [List.mem_singleton.mp hz] at h
    cases h
  have hspares : ∀ z ∈ [((2 : Process), Step.barred)], Spares 1 z := by
    intro z hz
    rw [List.mem_singleton.mp hz]
    exact Or.inl (by decide)
  have hurl : url 5000 = "http://127.0.0.1:5000" := by decide +kernel
  refine ⟨⟨hreleased, hunclaimed, ?_⟩, hposted, hspares, ?_⟩
  · exact ((one_owner hx).2.2 _ _ _ hreleased hunclaimed).2
  · rw [← hurl]
    exact ((one_owner hy).2.1 _ _ _ _ hposted hspares).2.1

end LiveDiagram.Rivals
