import LiveDiagram.Editor.System
import LiveDiagram.Proofs.Editor.Occupancy

/-!
# The program on the world that its theory is about

`Program.System` is what a process runs: it sees its machine through the answers of its system.
`Program` is what the theory is about: it says what a start makes of a world.  Here the system is the
world itself, and the two agree, operation by operation.

What a process cannot know is left to whoever looks at the world: that it runs, and what its gateway
has become.  So an editor is made of what its process holds (`Owner.editor`), and counted among those
that run from the moment its process says that it serves.

## Main results

* `run_makeDirectories`, `run_tryLock`, `run_bindAddress`, `run_push`: the parts of a start.
* `launch_run`, `stop_hosted`: a start and an end are those that `Program` says.
-/

namespace LiveDiagram.Program

/-- A world, and what a process has written in it. -/
structure Console where
  world : World
  output : String
  errors : String

namespace Console

/-- The files of the world. -/
abbrev files (c : Console) : FileTree :=
  c.world.disk.files

/-- With another disk. -/
def withDisk (c : Console) (disk : Disk) : Console :=
  { c with world := { c.world with disk } }

/-- With other files on the disk. -/
def withFiles (c : Console) (files : FileTree) : Console :=
  c.withDisk { c.world.disk with files }

/-- The outcome of a change of the files. -/
def changeFiles {α : Type} (c : Console) :
    Except FileError (α × FileTree) → Except FileError α × Console
  | .error e => (.error e, c)
  | .ok (x, files) => (.ok x, c.withFiles files)

end Console

/-- The world as a system.  An open file is known by its number, and whoever listens by the port. -/
def hosted : System (StateM Console) FileNumber UInt16 where
  makeDirectory p := modifyGet fun c =>
    c.changeFiles ((c.files.makeDirectory p).map fun files => ((), files))
  isDirectory p := modifyGet fun c => (c.files.isDirectory p, c)
  openFile p := modifyGet fun c =>
    c.changeFiles ((c.files.openFile p).map fun opened => (opened.1.2, opened.2))
  lock file := modifyGet fun c =>
    if file ∈ c.world.disk.locked then (false, c)
    else (true, c.withDisk ⟨c.files, file :: c.world.disk.locked⟩)
  unlock file := modify fun c => c.withDisk ⟨c.files, c.world.disk.locked.erase file⟩
  readFile p := modifyGet fun c => (c.files.read p, c)
  writeFile p data := modifyGet fun c =>
    c.changeFiles ((c.files.write p data).map fun files => ((), files))
  removeFile p := modifyGet fun c =>
    c.changeFiles ((c.files.remove p).map fun files => ((), files))
  listen _ port := modifyGet fun c => ((c.world.ports.listen port).map fun port => (port, port), c)
  exchange base _ r := modifyGet fun c =>
    match connection c.world base with
    | .error why => (.error (.notConnected why), c)
    | .ok e =>
      match request c.world e r with
      | (.response x, world) => (.ok x, { c with world })
      | (.stream _, world) => (.ok (.ofStatus 200), { c with world })
  say text := modify fun c => { c with output := c.output ++ text }
  complain text := modify fun c => { c with errors := c.errors ++ text }

theorem run_bind {α β : Type} (x : StateM Console α) (f : α → StateM Console β) (c : Console) :
    (x >>= f).run c = (f (x.run c).1).run (x.run c).2 :=
  rfl

/-! ## What the world answers -/

theorem run_say (c : Console) (text : String) :
    (hosted.say text).run c = ((), { c with output := c.output ++ text }) :=
  rfl

theorem run_listen (c : Console) (host : String) (port : UInt16) :
    (hosted.listen host port).run c =
      ((c.world.ports.listen port).map fun bound => (bound, bound), c) :=
  rfl

theorem run_exchange (c : Console) (base : String) (u : Url) (r : Request) :
    (hosted.exchange base u r).run c =
      match connection c.world base with
      | .error why => (.error (.notConnected why), c)
      | .ok e =>
        match request c.world e r with
        | (.response x, world) => (.ok x, { c with world })
        | (.stream _, world) => (.ok (.ofStatus 200), { c with world }) :=
  rfl

/-! ## Directories -/

section

variable (c : Console) (p : Path)

theorem run_makeDirectory :
    (hosted.makeDirectory p).run c =
      c.changeFiles ((c.files.makeDirectory p).map fun files => ((), files)) :=
  rfl

theorem run_openFile :
    (hosted.openFile p).run c =
      c.changeFiles ((c.files.openFile p).map fun opened => (opened.1.2, opened.2)) :=
  rfl

theorem files_withFiles (files : FileTree) : (c.withFiles files).files = files :=
  rfl

theorem run_lock (file : FileNumber) :
    (hosted.lock file).run c =
      if file ∈ c.world.disk.locked then (false, c)
      else (true, c.withDisk ⟨c.files, file :: c.world.disk.locked⟩) :=
  rfl

theorem run_removeFile :
    (hosted.removeFile p).run c = c.changeFiles ((c.files.remove p).map fun files => ((), files)) :=
  rfl

theorem run_writeFile (data : Bytes) :
    (hosted.writeFile p data).run c =
      c.changeFiles ((c.files.write p data).map fun files => ((), files)) :=
  rfl

theorem run_readFile : (hosted.readFile p).run c = (c.files.read p, c) :=
  rfl

theorem run_isDirectory : (hosted.isDirectory p).run c = (c.files.isDirectory p, c) :=
  rfl

theorem run_settle (made : Except FileError Unit) :
    (hosted.settle p made).run c =
      (match made with
        | .ok () => .ok ()
        | .error e => if c.files.isDirectory p then .ok () else .error e, c) := by
  cases made with
  | ok done => rfl
  | error e =>
      rw [System.settle, run_bind, run_isDirectory]
      cases c.files.isDirectory p <;> rfl

/-- Making one directory and settling for one that is there. -/
theorem run_settle_made :
    (hosted.settle p ((hosted.makeDirectory p).run c).1).run ((hosted.makeDirectory p).run c).2 =
      ((c.files.settleDirectory p).1, c.withFiles (c.files.settleDirectory p).2) := by
  rw [run_settle, run_makeDirectory, FileTree.settleDirectory]
  cases c.files.makeDirectory p <;> rfl

end

theorem run_makeInnermost (c : Console) (ps : List Path) :
    (hosted.makeInnermost ps).run c =
      ((c.files.makeInnermost ps).1, c.withFiles (c.files.makeInnermost ps).2) := by
  induction ps generalizing c with
  | nil => rfl
  | cons p outer ih =>
      have hsettle := run_settle_made c p
      rw [run_makeDirectory] at hsettle
      rw [System.makeInnermost, run_bind, run_makeDirectory, FileTree.makeInnermost]
      cases hmake : c.files.makeDirectory p with
      | ok files =>
          rw [hmake] at hsettle
          exact hsettle
      | error e =>
          rw [hmake] at hsettle
          cases e with
          | notFound =>
              show StateT.run (hosted.makeInnermost outer >>= _) c = _
              rw [run_bind, ih]
              cases hinner : c.files.makeInnermost outer with
              | mk made files =>
                  cases made with
                  | ok done =>
                      show StateT.run (hosted.makeDirectory p >>= _) (c.withFiles files) = _
                      exact run_settle_made (c.withFiles files) p
                  | error e => rfl
          | _ => exact hsettle

/-! ## The state directory -/

section

variable (c : Console) (directory : Path)

theorem run_makeDirectories :
    (hosted.makeDirectories directory).run c =
      ((c.files.makeDirectories directory).1, c.withFiles (c.files.makeDirectories directory).2) :=
  run_makeInnermost c _

theorem run_tryLock :
    (hosted.tryLock directory).run c =
      ((Instance.tryLock c.world.disk directory).1.map (·.map (·.file)),
        c.withDisk (Instance.tryLock c.world.disk directory).2) := by
  rw [System.tryLock, run_bind, run_makeDirectories, Instance.tryLock]
  cases c.files.makeDirectories directory with
  | mk made files =>
      cases made with
      | error e => rfl
      | ok done =>
          dsimp only
          rw [run_bind, run_openFile, files_withFiles]
          cases files.openFile (Instance.lockPath directory) with
          | error e => rfl
          | ok opened =>
              obtain ⟨⟨location, file⟩, files'⟩ := opened
              dsimp only [Except.map, Console.changeFiles]
              rw [run_bind, run_lock]
              by_cases hlocked : file ∈ c.world.disk.locked
              · have hheld : file ∈ ((c.withFiles files).withFiles files').world.disk.locked := hlocked
                rw [if_pos hheld, if_pos hlocked]
                rfl
              · have hheld : file ∉ ((c.withFiles files).withFiles files').world.disk.locked := hlocked
                rw [if_neg hheld, if_neg hlocked]
                rfl

theorem run_publishedPort? :
    (hosted.publishedPort? directory).run c = (Instance.publishedPort? c.files directory, c) :=
  rfl

theorem run_release (lock : FileNumber) :
    (hosted.release directory lock).run c =
      ((), c.withDisk (Instance.release c.world.disk ⟨lock, Instance.portPath directory⟩)) := by
  rw [System.release, run_bind, run_removeFile, Instance.release, Instance.withdraw]
  cases c.files.remove (Instance.portPath directory) <;> rfl

end

/-! ## Beside a running editor -/

theorem run_push (c : Console) (url content : String) :
    (hosted.push url content).run c =
      ((push c.world url content).1, { c with world := (push c.world url content).2 }) := by
  rw [System.push, push]
  cases Forward.target url with
  | error fault => rfl
  | ok u =>
      dsimp only
      rw [run_bind, run_exchange]
      cases connection c.world url with
      | error why => rfl
      | ok e =>
          dsimp only
          cases request c.world e (Forward.request u content) with
          | mk answer w => cases answer <;> rfl

/-- The editor that a process is while it serves. -/
def Owner.editor (o : Owner FileNumber UInt16) (files : FileTree) : Editor :=
  ⟨gateway o.settings files, ⟨o.lock, Instance.portPath (Path.ofText o.settings.stateDirectory)⟩,
    o.address⟩

/-- A process that has done nothing yet. -/
def Console.of (w : World) : Console :=
  ⟨w, "", ""⟩

/-- How a start looks to the world: whoever serves is one of the editors that run. -/
def launchOf : Start FileNumber UInt16 × Console → Launch × World
  | (.exited code, c) => (.exited code c.output c.errors, c.world)
  | (.serving o, c) =>
    let e := o.editor c.files
    (.serving e c.output, { c.world with editors := e :: c.world.editors })

theorem launchOf_join (w : World) (url content : String) :
    launchOf ((hosted.join url content).run (.of w)) = join w url content := by
  rw [System.join, run_bind, run_say, join]
  by_cases hcontent : content = ""
  · rw [if_pos hcontent, if_pos hcontent]
    rfl
  · rw [if_neg hcontent, if_neg hcontent, run_bind, run_push]
    dsimp only [Console.of]
    cases push w url content with
    | mk pushed w' =>
        cases pushed with
        | ok version => rfl
        | error e => rfl

/-! ## As the editor -/

theorem run_listenOnFirst (c : Console) (host reason : String) (ports : List UInt16) :
    (hosted.listenOnFirst host reason ports).run c =
      ((c.world.ports.first reason ports).map fun port => (port, port), c) := by
  induction ports generalizing reason with
  | nil => rfl
  | cons port rest ih =>
      rw [System.listenOnFirst, run_bind, run_listen, Ports.first]
      cases c.world.ports.listen port with
      | ok bound => rfl
      | error reason => exact ih reason

theorem run_bindAddress (c : Console) (address : SocketAddress) :
    (hosted.bind address).run c =
      ((c.world.ports.bind address).map fun bound => (bound.port, bound), c) := by
  rw [System.bind, run_bind, run_listenOnFirst, Ports.bind]
  cases c.world.ports.first "" (Ports.candidates address.port) <;> rfl

theorem launchOf_serve (w : World) (settings : Settings) (file : FileNumber) :
    launchOf ((hosted.serve settings file).run (.of w)) =
      serve w settings ⟨file, Instance.portPath (Path.ofText settings.stateDirectory)⟩ := by
  rw [System.serve, run_bind, run_bindAddress, serve]
  dsimp only [Console.of]
  cases w.ports.bind settings.address with
  | error e =>
      dsimp only [Except.map]
      rw [run_bind, run_release]
      rfl
  | ok address =>
      dsimp only [Except.map]
      rw [run_bind, run_writeFile, Instance.publish]
      dsimp only
      cases w.disk.files.write _ (Decimal.numeral address.port.toNat) with
      | error e =>
          dsimp only [Except.map, Console.changeFiles]
          rw [run_bind, run_release]
          rfl
      | ok files => rfl

/-- An editor that stops leaves the world as it is said, less its entry among those that run. -/
theorem stop_hosted (c : Console) (o : Owner FileNumber UInt16) (files : FileTree) :
    stop c.world (o.editor files) =
      (stoppedLine, { ((hosted.stop o).run c).2.world with
        editors := c.world.editors.filter fun x => x.lock ≠ (o.editor files).lock }) ∧
      ((hosted.stop o).run c).2.output = c.output ++ stoppedLine := by
  rw [System.stop, run_bind, run_release]
  exact ⟨rfl, rfl⟩

/-! ## Starting -/

theorem launchOf_begin (w : World) (settings : Settings) :
    launchOf ((hosted.begin settings).run (.of w)) = begin w settings := by
  rw [System.begin, run_bind, run_tryLock, begin, Instance.claim]
  dsimp only [Console.of]
  cases hlock : Instance.tryLock w.disk (Path.ofText settings.stateDirectory) with
  | mk locked disk =>
      cases locked with
      | error e => rfl
      | ok found =>
          cases found with
          | some lock =>
              obtain ⟨-, -, hpath, -⟩ := Instance.owned_of_tryLock hlock
              obtain ⟨file, path⟩ := lock
              obtain rfl : path = Instance.portPath (Path.ofText settings.stateDirectory) := hpath
              exact launchOf_serve { w with disk } settings file
          | none =>
              dsimp only [Except.map, Option.map]
              rw [run_bind, run_publishedPort?, Instance.locate]
              dsimp only [Console.withDisk, Console.files]
              cases Instance.publishedPort? disk.files (Path.ofText settings.stateDirectory) with
              | none => rfl
              | some port => exact launchOf_join { w with disk } _ _

theorem launchOf_launch (w : World) (o : Options) (defaultStateDirectory : String) :
    launchOf ((hosted.launch o defaultStateDirectory).run (.of w)) =
      launch w o defaultStateDirectory := by
  rw [System.launch, launch]
  cases o.file with
  | none => exact launchOf_begin w _
  | some file =>
      dsimp only
      rw [run_bind, run_readFile, readDocument]
      dsimp only [Console.of]
      cases documentOf (w.disk.files.read (Path.ofText file)) with
      | error reason => rfl
      | ok content => exact launchOf_begin w _

/-- **A start of the program**, run on the world, has the outcome and the effects that are said of
it. -/
theorem launch_run (w : World) (arguments : List String) (defaultStateDirectory : String) :
    launchOf ((hosted.run arguments defaultStateDirectory).run (.of w)) =
      run w arguments defaultStateDirectory := by
  rw [System.run, run]
  cases CommandLine.parse arguments with
  | start o => exact launchOf_launch w o _
  | help => rfl
  | version => rfl
  | wrong => rfl

end LiveDiagram.Program
