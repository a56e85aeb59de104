import LiveDiagram.Proofs.Editor.Ownership

/-!
# Where an announced port comes from

Whoever finds the lock held believes the port file, and nothing but the port's owner ever takes that
file away.  So the file of an owner that was killed outlives it, and the next owner takes the lock
with that port already on display.  Until it publishes its own, every claim is sent to a port that
no owner answers for, where a claim to a directory without a port is told that it is locked.

The port that is on display has one of three origins.  They are told apart by the last step that
touched the port file (`Step.touches`), and if there was none, by the files that were there at
first.

## Main results

* `spares_or_killed`: an owner whose port is the last thing written to the port file owns the
  directory still, or was killed.
* `publishedPort?_eq_some_iff`: which port is on display.
* `claim_law`: what claims make of it.
* `leftover_port_announced`: two ways in which a claim names a port that its owner has not published.
-/

namespace LiveDiagram.Rivals

open Instance

/-- A step that writes the port file or takes it away. -/
def Step.touches : Step → Bool
  | .published _ (.ok ()) => true
  | .withdrew => true
  | _ => false

/-- A step after which the port file is what it was. -/
def Untouching (z : Process × Step) : Prop :=
  z.2.touches = false

/-- How a directory came to display a port. -/
inductive Origin (directory : Path) (files : FileTree) (x : Rivals) (port : UInt16) : Prop where
  /-- Its owner has published it. -/
  | current {o : Process} {after before : History}
      (owning : ∃ lock, x.stage o = .owning lock)
      (published : x.history = after ++ (o, .published port (.ok ())) :: before)
      (spared : ∀ z ∈ after, Spares o z)
  /-- An owner published it and was killed, and nobody has touched the port file since. -/
  | leftBehind {o : Process} {after before : History}
      (published : x.history = after ++ (o, .published port (.ok ())) :: before)
      (killed : (o, .killed) ∈ after)
      (untouched : ∀ z ∈ after, Untouching z)
  /-- It was in the port's place at first, and nobody has touched the port file. -/
  | found {l : Location} {number : FileNumber} {data : Bytes}
      (untouched : ∀ z ∈ x.history, Untouching z)
      (place : x.disk.files.resolve (portPath directory) = .ok l)
      (contents : files.contents l = some (number, data))
      (said : portOfFile? data = some port)

section

variable {directory : Path} {files : FileTree} {x x' : Rivals} {o : Process} {port : UInt16}
  {y : Process × Step} {after before : History}

/-! ## Steps that do not touch the port file -/

/-- A step that does not touch the port file changes no file, or what it changes is what claiming
makes. -/
theorem files_of_untouching (hx : Reachable directory files x) (h : Moves directory x y x')
    (hy : Untouching y) :
    x'.disk.files = x.disk.files ∨ x'.disk.files = (tryLock x.disk directory).2.files := by
  cases h with
  | refused idle h => exact Or.inr (by rw [h]; rfl)
  | barred idle h => exact Or.inr (by rw [h]; rfl)
  | owned idle h => exact Or.inr (by rw [h]; rfl)
  | located seeking => exact Or.inl rfl
  | @published p lock sent owning =>
      have hheld := held_of_owning hx owning
      obtain ⟨base, hhoused⟩ := hheld.housed
      rw [hheld.lock_eq] at hy ⊢
      rcases publish_of_housed hhoused sent with ⟨e, hpub⟩ | ⟨files', number, hpub, -⟩
      · left
        show (Instance.publish x.disk _ sent).2.files = _
        rw [hpub]
      · rw [hpub] at hy
        cases hy
  | withdrew owning => cases hy
  | abandoned leaving => exact Or.inl rfl
  | @killed p busy =>
      left
      show ((x.stage p).bereave x.disk).files = _
      unfold Stage.bereave
      split <;> rfl

/-- Claiming changes no port file. -/
theorem contents_tryLock (d : Disk) (base : Location) :
    (tryLock d directory).2.files.contents (base ++ [portName]) =
      d.files.contents (base ++ [portName]) := by
  have hne : ∀ other, base ++ [portName] ≠ other ++ [lockName] := by
    intro other h
    have hlast := congrArg List.getLast? h
    simp [portName, lockName] at hlast
  rcases tryLock_cases d directory with
    ⟨e, files, htry, hsame⟩ | ⟨files, other, file, -, hothers, htry⟩
  · rw [htry]
    exact congrFun hsame _
  · rw [htry]
    split <;> exact hothers _ (hne other)

/-- As long as nobody has touched the port file, it is what it was at first. -/
theorem contents_of_untouched (hx : Reachable directory files x) (base : Location)
    (huntouched : ∀ z ∈ x.history, Untouching z) :
    x.disk.files.contents (base ++ [portName]) = files.contents (base ++ [portName]) := by
  refine run_induction (P := fun x => (∀ z ∈ x.history, Untouching z) →
    x.disk.files.contents (base ++ [portName]) = files.contents (base ++ [portName]))
    (fun _ => rfl) ?_ hx huntouched
  intro x y x' hreach ih hmove hquiet
  rw [hmove.history_eq] at hquiet
  have hbefore := ih fun z hz => hquiet z (List.mem_cons_of_mem y hz)
  rcases files_of_untouching hreach hmove (hquiet y List.mem_cons_self) with hsame | hclaim
  · rw [hsame, hbefore]
  · rw [hclaim, contents_tryLock, hbefore]

/-! ## The last step that touched it -/

variable (directory) in
/-- The port's place, as the directory stands, holds a file with these bytes, or no file. -/
def Displays (data : Option Bytes) (x : Rivals) : Prop :=
  ∃ base file, Housed x.disk.files directory base file ∧
    (x.disk.files.contents (base ++ [portName])).map Prod.snd = data

theorem Displays.publishedPort?_eq {data : Option Bytes} (h : Displays directory data x) :
    publishedPort? x.disk.files directory = data.bind portOfFile? := by
  obtain ⟨base, file, hhoused, rfl⟩ := h
  rw [hhoused.publishedPort?_eq]
  cases x.disk.files.contents (base ++ [portName]) <;> rfl

theorem Displays.move {data : Option Bytes} (hx : Reachable directory files x)
    (h : Displays directory data x) (hy : Untouching y) (hmove : Moves directory x y x') :
    Displays directory data x' := by
  obtain ⟨base, file, hhoused, hdata⟩ := h
  -- With the files in their places, a claim makes nothing.
  have hclaim : (tryLock x.disk directory).2.files = x.disk.files := by
    rw [tryLock_of_housed hhoused]
    split <;> rfl
  have hfiles : x'.disk.files = x.disk.files := by
    rcases files_of_untouching hx hmove hy with hsame | hmade
    · exact hsame
    · rw [hmade, hclaim]
  exact ⟨base, file, hfiles ▸ hhoused, hfiles ▸ hdata⟩

/-- A published port stays on display as long as nobody touches the port file. -/
theorem displays_since_published (hx : Reachable directory files x)
    (h : x.history = after ++ (o, .published port (.ok ())) :: before)
    (hafter : ∀ z ∈ after, Untouching z) :
    Displays directory (some (Decimal.numeral port.toNat)) x := by
  refine holds_since (fun p q hp _ hmove => ?_)
    (fun _ _ _ hp hshown hz hmove => hshown.move hp hz hmove) hx h hafter
  have hposted := posted_of_published hp hmove
  obtain ⟨lock, ho⟩ := hposted.owning
  obtain ⟨base, hhoused⟩ := (held_of_owning (hp.move hmove) ho).housed
  obtain ⟨number, hnumber⟩ := hhoused.read_eq_ok_iff.mp hposted.read
  exact ⟨base, lock.file, hhoused, by rw [hnumber]; rfl⟩

/-- A port that was withdrawn is not on display until someone touches the port file. -/
theorem displays_since_withdrew (hx : Reachable directory files x)
    (h : x.history = after ++ (o, .withdrew) :: before) (hafter : ∀ z ∈ after, Untouching z) :
    Displays directory none x := by
  refine holds_since (fun p q hp _ hmove => ?_)
    (fun _ _ _ hp hshown hz hmove => hshown.move hp hz hmove) hx h hafter
  have hq := hp.move hmove
  generalize hy : (o, Step.withdrew) = y at hmove
  cases hmove with
  | @withdrew r lock owning =>
      obtain ⟨base, file, hhoused, hnone⟩ := noPort_of_leaving hq (stage_take p r _ _ _)
      exact ⟨base, file, hhoused, by rw [hnone]; rfl⟩
  | _ => cases hy

/-- An owner whose port is the last thing written to the port file owns the directory still, or was
killed. -/
theorem spares_or_killed (hx : Reachable directory files x)
    (h : x.history = after ++ (o, .published port (.ok ())) :: before)
    (hafter : ∀ z ∈ after, Untouching z) :
    (∀ z ∈ after, Spares o z) ∨ (o, .killed) ∈ after := by
  induction after generalizing x with
  | nil => exact Or.inl fun z hz => absurd hz List.not_mem_nil
  | cons z after ih =>
      -- The state in which the last of these steps was taken.
      have hlast : x.history = [] ++ z :: (after ++ (o, .published port (.ok ())) :: before) := h
      obtain ⟨p, q, hp, hmove, hhist⟩ := exists_move_of_history_eq hx hlast
      rcases ih hp hhist fun w hw => hafter w (List.mem_cons_of_mem z hw) with hspares | hkilled
      · have hz : Spares o z ∨ z = (o, .killed) := by
          obtain ⟨lock, ho⟩ := (posted_since hp hhist hspares).owning
          have hquiet : Untouching z := hafter z List.mem_cons_self
          by_cases hother : z.1 = o
          · subst hother
            cases hmove with
            | published sent owning =>
                left
                right
                generalize (Instance.publish _ _ sent).1 = result at hquiet ⊢
                cases result with
                | error e => exact ⟨sent, e, rfl⟩
                | ok done => cases hquiet
            | withdrew owning => cases hquiet
            | killed busy => exact Or.inr rfl
            | refused idle => rw [ho] at idle; cases idle
            | barred idle => rw [ho] at idle; cases idle
            | owned idle => rw [ho] at idle; cases idle
            | located seeking => rw [ho] at seeking; cases seeking
            | abandoned leaving => rw [ho] at leaving; cases leaving
          · exact Or.inl (Or.inl hother)
        rcases hz with hz | rfl
        · exact Or.inl (List.forall_mem_cons.mpr ⟨hz, hspares⟩)
        · exact Or.inr List.mem_cons_self
      · exact Or.inr (List.mem_cons_of_mem z hkilled)

/-- A history begins with steps that do not touch the port file, before the last one that does. -/
theorem exists_last_touch (h : History) :
    (∀ z ∈ h, Untouching z) ∨ ∃ after y before, h = after ++ y :: before ∧
      (∀ z ∈ after, Untouching z) ∧ ¬ Untouching y := by
  induction h with
  | nil => exact Or.inl fun z hz => absurd hz List.not_mem_nil
  | cons y h ih =>
      by_cases hy : Untouching y
      · rcases ih with hall | ⟨after, z, before, rfl, hafter, hz⟩
        · exact Or.inl (List.forall_mem_cons.mpr ⟨hy, hall⟩)
        · exact Or.inr ⟨y :: after, z, before, rfl, List.forall_mem_cons.mpr ⟨hy, hafter⟩, hz⟩
      · exact Or.inr ⟨[], y, h, rfl, fun z hz => absurd hz List.not_mem_nil, hy⟩

theorem exists_place_of_published {t : FileTree} (h : publishedPort? t directory = some port) :
    ∃ base number data, t.resolve (portPath directory) = .ok (base ++ [portName]) ∧
      t.contents (base ++ [portName]) = some (number, data) ∧ portOfFile? data = some port := by
  cases hplace : t.resolve (portPath directory) with
  | error e =>
      rw [publishedPort?, FileTree.read, FileTree.find, hplace] at h
      cases h
  | ok l =>
      obtain ⟨base, -, -, rfl⟩ := FileTree.exists_of_resolve_entry isName_portName hplace
      rw [publishedPort?_of_resolve hplace] at h
      obtain ⟨⟨number, data⟩, hdata, hsaid⟩ := Option.bind_eq_some_iff.mp h
      exact ⟨base, number, data, rfl, hdata, hsaid⟩

/-! ## The law -/

theorem Origin.displayed (hx : Reachable directory files x)
    (h : Origin directory files x port) : publishedPort? x.disk.files directory = some port := by
  have hport := portOfFile?_numeral port
  cases h with
  | current owning published spared =>
      have hposted := posted_since hx published spared
      rw [publishedPort?, hposted.read]
      exact hport
  | leftBehind published killed untouched =>
      rw [(displays_since_published hx published untouched).publishedPort?_eq]
      exact hport
  | found untouched place contents said =>
      obtain ⟨base, -, -, rfl⟩ := FileTree.exists_of_resolve_entry isName_portName place
      have hsame := contents_of_untouched hx base untouched
      rw [publishedPort?_of_resolve place, hsame, contents]
      exact said

theorem Origin.of_displayed (hx : Reachable directory files x)
    (h : publishedPort? x.disk.files directory = some port) : Origin directory files x port := by
  rcases exists_last_touch x.history with huntouched | ⟨after, ⟨o, z⟩, before, hhist, hafter, hz⟩
  · obtain ⟨base, number, data, place, hdata, said⟩ := exists_place_of_published h
    have hsame := contents_of_untouched hx base huntouched
    exact .found huntouched place (hsame.symm.trans hdata) said
  · cases z with
    | published sent result =>
        cases result with
        | error e => exact absurd rfl hz
        | ok done =>
            have hshown := (displays_since_published hx hhist hafter).publishedPort?_eq
            rw [h, Option.bind_some, portOfFile?_numeral] at hshown
            obtain rfl : port = sent := Option.some.inj hshown
            rcases spares_or_killed hx hhist hafter with hspared | hkilled
            · exact .current (posted_since hx hhist hspared).owning hhist hspared
            · exact .leftBehind hhist hkilled hafter
    | withdrew =>
        have hshown := (displays_since_withdrew hx hhist hafter).publishedPort?_eq
        rw [h] at hshown
        cases hshown
    | _ => exact absurd rfl hz

theorem publishedPort?_eq_some_iff (hx : Reachable directory files x) :
    publishedPort? x.disk.files directory = some port ↔ Origin directory files x port :=
  ⟨Origin.of_displayed hx, Origin.displayed hx⟩

theorem locate_eq_running_iff {d : Disk} {u : String} :
    Instance.locate d directory = .ok (.running u) ↔
      ∃ port, publishedPort? d.files directory = some port ∧ url port = u := by
  unfold Instance.locate
  cases publishedPort? d.files directory <;> simp

theorem locate_eq_locked_iff {d : Disk} :
    Instance.locate d directory = .error .locked ↔ publishedPort? d.files directory = none := by
  unfold Instance.locate
  cases publishedPort? d.files directory <;> simp

/-- Where there is no owner, a claim does not come to look for one. -/
theorem Free.claim_cases (hfree : Free x) (directory : Path) :
    (∃ e, (claim x.disk directory).1 = .error (.io e)) ∨
      ∃ lock, (claim x.disk directory).1 = .ok (.owned lock) := by
  rcases hfree.tryLock_cases directory with ⟨e, files, htry, -⟩ | ⟨files, base, file, -, -, htry⟩
  · exact Or.inl ⟨e, by rw [claim, htry]⟩
  · exact Or.inr ⟨_, by rw [claim, htry]⟩

/-- A claim looks for the owner exactly when there is one. -/
theorem claim_eq_iff {answer : Except Error Claim} {d : Disk} (hx : Reachable directory files x)
    (howned : ∀ lock, answer ≠ .ok (.owned lock)) (hio : ∀ e, answer ≠ .error (.io e)) :
    claim x.disk directory = (answer, d) ↔
      (∃ o lock, (x.stage o).lock? = some lock) ∧ d = x.disk ∧
        Instance.locate x.disk directory = answer := by
  rcases orderly_of_reachable hx with hfree | ⟨o, lock, hheld⟩
  · constructor
    · intro h
      rcases hfree.claim_cases directory with ⟨e, hclaim⟩ | ⟨lock, hclaim⟩
      · rw [h] at hclaim
        exact absurd hclaim (hio e)
      · rw [h] at hclaim
        exact absurd hclaim (howned lock)
    · rintro ⟨⟨o, lock, ho⟩, -⟩
      rw [hfree.stage o] at ho
      cases ho
  · rw [hheld.claim_eq, Prod.mk.injEq]
    exact ⟨fun ⟨h, hd⟩ => ⟨⟨o, lock, hheld.stage⟩, hd.symm, h⟩, fun ⟨_, hd, h⟩ => ⟨h, hd.symm⟩⟩

/-- **What claims announce**, from whatever files there are at first and after every interleaving of
claims, publications, releases and kills of any number of processes.

A claim names a running owner exactly when someone holds the lock and a port is on display, which its
owner has published, or which was left behind by an owner that was killed, or which was there at
first.  It says that the directory is locked exactly when someone holds the lock and no port is on
display.  The same holds of a claim that found the lock held a while ago and looks for the port only
now. -/
theorem claim_law (hx : Reachable directory files x) :
    (∀ u d, claim x.disk directory = (.ok (.running u), d) ↔
      (∃ o lock, (x.stage o).lock? = some lock) ∧ d = x.disk ∧
        ∃ port, Origin directory files x port ∧ url port = u) ∧
    (∀ d, claim x.disk directory = (.error .locked, d) ↔
      (∃ o lock, (x.stage o).lock? = some lock) ∧ d = x.disk ∧
        ∀ port, ¬ Origin directory files x port) ∧
    (∀ u, Instance.locate x.disk directory = .ok (.running u) ↔
      ∃ port, Origin directory files x port ∧ url port = u) := by
  have hlocate : ∀ u, Instance.locate x.disk directory = .ok (.running u) ↔
      ∃ port, Origin directory files x port ∧ url port = u := by
    intro u
    simp only [locate_eq_running_iff, publishedPort?_eq_some_iff hx]
  refine ⟨fun u d => ?_, fun d => ?_, hlocate⟩
  · rw [claim_eq_iff hx (fun lock h => by cases h) (fun e h => by cases h), hlocate u]
  · rw [claim_eq_iff hx (fun lock h => by cases h) (fun e h => by cases h), locate_eq_locked_iff,
      Option.eq_none_iff_forall_ne_some]
    simp only [ne_eq, publishedPort?_eq_some_iff hx]

end

/-- An owner is killed and leaves its port behind; the next one publishes its own. -/
theorem claim_law_succession :
    let directory : Path := ⟨["state"]⟩
    let first : List (Process × Request) :=
      [(0, .tryLock), (0, .publish 4321), (0, .kill), (1, .tryLock)]
    let x := run directory .empty first
    let y := run directory .empty (first ++ [(1, .publish 5000), (2, .tryLock)])
    claim x.disk directory = (.ok (.running (url 4321)), x.disk) ∧
      claim y.disk directory = (.ok (.running (url 5000)), y.disk) := by
  intro directory first x y
  have hx : Reachable directory .empty x := ⟨_, rfl⟩
  have hy : Reachable directory .empty y := ⟨_, rfl⟩
  have howner : x.stage 1 = .owning ⟨0, portPath directory⟩ := by decide +kernel
  have hnext : y.stage 1 = .owning ⟨0, portPath directory⟩ := by decide +kernel
  have hleft : x.history = [(1, .owned ⟨0, portPath directory⟩ (some 4321)), (0, .killed)] ++
      (0, .published 4321 (.ok ())) :: x.history.drop 3 := by decide +kernel
  have hposted : y.history = [(2, .barred)] ++ (1, .published 5000 (.ok ())) :: y.history.drop 2 := by
    decide +kernel
  constructor
  · refine ((claim_law hx).1 _ _).mpr ⟨⟨1, _, by rw [howner]; rfl⟩, rfl, 4321, ?_, rfl⟩
    refine .leftBehind hleft (List.mem_cons_of_mem _ List.mem_cons_self) fun z hz => ?_
    rcases List.mem_cons.mp hz with rfl | hz
    · rfl
    · rw [List.mem_singleton.mp hz]
      rfl
  · refine ((claim_law hy).1 _ _).mpr ⟨⟨1, _, by rw [hnext]; rfl⟩, rfl, 5000, ?_, rfl⟩
    refine .current ⟨_, hnext⟩ hposted fun z hz => ?_
    rw [List.mem_singleton.mp hz]
    exact Or.inl (by decide)

/-- A claim names a running owner while the owner has published nothing: the port was there at first,
and in the second run it is that of an owner that was killed. -/
theorem leftover_port_announced :
    let directory : Path := ⟨["state"]⟩
    let stale : FileTree :=
      ⟨[(["state"], .directory), (["state", "port"], .file 0 (Utf8.encode "4321"))], 1⟩
    let x := run directory stale [(0, .tryLock)]
    let y := run directory .empty
      [(0, .tryLock), (0, .publish 4321), (0, .kill), (1, .tryLock)]
    ((x.stage 0).lock?.isSome ∧ (∀ o port result, (o, .published port result) ∉ x.history) ∧
      claim x.disk directory = (.ok (.running "http://127.0.0.1:4321"), x.disk)) ∧
    ((y.stage 1).lock?.isSome ∧ (∀ port result, (1, .published port result) ∉ y.history) ∧
      claim y.disk directory = (.ok (.running "http://127.0.0.1:4321"), y.disk)) := by
  intro directory stale x y
  have hx : x.history = [(0, .owned ⟨1, portPath directory⟩ (some 4321))] := by decide +kernel
  have hy : y.history = [(1, .owned ⟨0, portPath directory⟩ (some 4321)), (0, .killed),
      (0, .published 4321 (.ok ())), (0, .owned ⟨0, portPath directory⟩ none)] := by decide +kernel
  refine ⟨⟨by decide +kernel, fun o port result h => ?_, by decide +kernel⟩,
    by decide +kernel, fun port result h => ?_, by decide +kernel⟩
  · simp [hx] at h
  · simp [hy] at h

end LiveDiagram.Rivals
