import BackendFoundation.BlobStorageProofs
import BackendFoundation.RelyGuarantee

/-! `put` and `delete` of `LocalBlobStorage` as the system calls they make, for any number
of processes that work below one base path at once. Between two calls of one process the
others may make any of theirs. There are no symbolic links, so the calls by which
`_validate_path` resolves a path change nothing and always find the same. -/
namespace BackendFoundation.BlobProcesses
open PythonValues BlobNames FileNames FileTrees RequestPrograms TurnTaking RelyGuarantee
open BlobStorage (Name BlobRef Outcome raised)

abbrev Path := List Name

/-- A file: the path under which it was created, and how many had been created before. -/
structure Inode where
  path : Path
  serial : ℕ
  deriving DecidableEq

structure Host where
  tree : Node Name Inode
  contents : Inode → Bytes
  created : ℕ

/-! ## System calls -/

inductive Call where
  | mkdir (path : Path)
  | stat (path : Path)
  /-- `open` for writing, which creates the file or empties it. -/
  | create (path : Path)
  | write (inode : Inode) (data : Bytes)
  | unlink (path : Path)

/-- `stat` tells whether it is a directory. -/
abbrev Reply : Call → Type
  | .mkdir _ => Unit
  | .stat _ => Bool
  | .create _ => Inode
  | .write _ _ => Unit
  | .unlink _ => Unit

def Host.change (host : Host) : Except Errno (Node Name Inode) → Except Error Unit × Host
  | .ok tree => (.ok (), { host with tree })
  | .error errno => (.error (raised errno), host)

def execute : (call : Call) → Host → Except Error (Reply call) × Host
  | .mkdir path, host => host.change (host.tree.mkdir path)
  | .stat path, host =>
    match host.tree.lookup path with
    | .ok (.dir _) => (.ok true, host)
    | .ok (.file _) => (.ok false, host)
    | .error errno => (.error (raised errno), host)
  | .create path, host =>
    match host.tree.lookup path with
    | .ok (.file inode) =>
      (.ok inode, { host with contents := Function.update host.contents inode [] })
    | _ =>
      let inode := ⟨path, host.created⟩
      match host.tree.write inode path with
      | .ok tree => (.ok inode, ⟨tree, Function.update host.contents inode [], host.created + 1⟩)
      | .error errno => (.error (raised errno), host)
  | .write inode data, host =>
    let written := data ++ (host.contents inode).drop data.length
    (.ok (), { host with contents := Function.update host.contents inode written })
  | .unlink path, host => host.change (host.tree.unlink path)

/-! ## The adapter -/

abbrev Process := Program Call Reply Error

/-- `path.is_dir()`. -/
def isDir (path : Path) : Process Bool := (Program.perform (Call.stat path)).handle fun _ => .ret false

/-- `path.mkdir(exist_ok=True)`; the path is given from its last name up. -/
def mkdir (up : Path) : Process Unit :=
  (Program.perform (Call.mkdir up.reverse)).handle fun error =>
    match error with
    | .fileNotFoundError _ => .raise error
    | _ => do if ← isDir up.reverse then return () else .raise error

/-- `path.mkdir(parents=True, exist_ok=True)`. -/
def mkdirParents : Path → Process Unit
  | [] => mkdir []
  | name :: up =>
    (Program.perform (Call.mkdir (name :: up).reverse)).handle fun error =>
      match error with
      | .fileNotFoundError _ => do
        mkdirParents up
        mkdir (name :: up)
      | _ => do if ← isDir (name :: up).reverse then return () else .raise error

namespace LocalBlobStorage

def put (bucket key : Str) (data : Bytes) (contentType : Option String) : Process BlobRef := do
  let targetPath ← Program.ofExcept (BlobStorage.LocalBlobStorage.validatePath bucket key)
  mkdirParents targetPath.dropLast.reverse
  let file ← Program.perform (Call.create targetPath)
  Program.perform (Call.write file data)
  return { bucket, key, contentType, size := some data.length }

def delete (bucket key : Str) : Process Unit := do
  let targetPath ← Program.ofExcept (BlobStorage.LocalBlobStorage.validatePath bucket key)
  (Program.perform (Call.unlink targetPath)).handle fun error =>
    match error with
    | .fileNotFoundError _ => return ()
    | _ => .raise error

end LocalBlobStorage

/-- What one process is asked to do. -/
inductive Operation where
  | put (bucket key : Str) (data : Bytes) (contentType : Option String)
  | delete (bucket key : Str)

namespace Operation

def target : Operation → Except Error Path
  | .put bucket key _ _ => BlobStorage.LocalBlobStorage.validatePath bucket key
  | .delete bucket key => BlobStorage.LocalBlobStorage.validatePath bucket key

def serve : Operation → Process Outcome
  | .put bucket key data contentType => do
    return .stored (← LocalBlobStorage.put bucket key data contentType)
  | .delete bucket key => do
    LocalBlobStorage.delete bucket key
    return .deleted

/-- What the process is told when it succeeds. -/
def answer : Operation → Outcome
  | .put bucket key data contentType =>
    .stored { bucket, key, contentType, size := some data.length }
  | .delete _ _ => .deleted

/-- The blob it leaves. -/
def leaves : Operation → Option Bytes
  | .put _ _ data _ => some data
  | .delete _ _ => none

end Operation

/-- The data of the blob at a path. -/
def Host.blob (host : Host) (path : Path) : Option Bytes :=
  match host.tree.lookup path with
  | .ok (.file inode) => some (host.contents inode)
  | _ => none

/-- The first files, in an empty base directory. -/
def Host.empty : Host := ⟨some (.dir fun _ => none), fun _ => [], 0⟩

/-! ## What the processes keep -/

/-- On the way to a target there is no file, at a target no directory, and a file is where
it was created. -/
structure Ready (targets : Path → Prop) (host : Host) : Prop where
  above : ∀ target, targets target → ∀ path, path <+: target → path ≠ target → ∀ inode,
    host.tree.lookup path ≠ .ok (.file inode)
  target : ∀ target, targets target → host.tree.isDir target = false
  own : ∀ path inode, host.tree.lookup path = .ok (.file inode) → inode.path = path

/-- What a process may do that works on one blob: it makes directories on the way to it,
and everything else it does is done to files created at its path. -/
structure Touches (path : Path) (host later : Host) : Prop where
  dirs : ∀ other, host.tree.isDir other = true → later.tree.isDir other = true
  made : ∀ other, later.tree.isDir other = true →
    host.tree.isDir other = true ∨ other <+: path ∧ other ≠ path
  files : ∀ other, other ≠ path → ∀ inode,
    later.tree.lookup other = .ok (.file inode) ↔ host.tree.lookup other = .ok (.file inode)
  own : ∀ inode, later.tree.lookup path = .ok (.file inode) →
    host.tree.lookup path = .ok (.file inode) ∨ inode.path = path
  contents : ∀ inode, inode.path ≠ path → later.contents inode = host.contents inode

/-- What a process that works on one blob can count on; alone with it, on more. -/
structure Bears (targets : Path → Prop) (path : Path) (alone : Prop) (host later : Host) : Prop where
  ready : Ready targets host → Ready targets later
  dirs : ∀ other, host.tree.isDir other = true → later.tree.isDir other = true
  files : alone → ∀ inode,
    later.tree.lookup path = .ok (.file inode) ↔ host.tree.lookup path = .ok (.file inode)
  contents : alone → ∀ inode, inode.path = path → later.contents inode = host.contents inode

section Effects

variable {targets : Path → Prop} {path other : Path} {host later : Host} {alone : Prop}

theorem Touches.refl (path : Path) (host : Host) : Touches path host host :=
  ⟨fun _ dir => dir, fun _ dir => .inl dir, fun _ _ _ => Iff.rfl, fun _ there => .inl there,
    fun _ _ => rfl⟩

/-- No target is above another, so none gets in the way of another. -/
theorem Touches.ready (touched : Touches path host later) (among : targets path)
    (apart : ∀ one two, targets one → targets two → one <+: two → one = two)
    (ready : Ready targets host) : Ready targets later := by
  refine ⟨fun target aims place on before inode there => ?_, fun target aims => ?_,
    fun place inode there => ?_⟩
  · have different : place ≠ path := by
      rintro rfl
      exact before (apart _ _ among aims on)
    exact ready.above target aims place on before inode ((touched.files place different inode).mp there)
  · cases dir : later.tree.isDir target with
    | false => rfl
    | true =>
      rcases touched.made target dir with was | ⟨on, before⟩
      · rw [ready.target target aims] at was
        cases was
      · exact absurd (apart _ _ aims among on) before
  · by_cases same : place = path
    · subst same
      rcases touched.own inode there with was | own
      · exact ready.own _ inode was
      · exact own
    · exact ready.own place inode ((touched.files place same inode).mp there)

/-- What one process does is what another bears, when only one of the two is alone. -/
theorem Touches.bears (touched : Touches other host later) (among : targets other)
    (apart : ∀ one two, targets one → targets two → one <+: two → one = two)
    (elsewhere : alone → other ≠ path) : Bears targets path alone host later where
  ready := touched.ready among apart
  dirs := touched.dirs
  files only := touched.files path (elsewhere only).symm
  contents only inode own := touched.contents inode (own ▸ (elsewhere only).symm)

theorem touches_mkdir (below : other <+: path) (above : other ≠ path) :
    Touches path host (execute (.mkdir other) host).2 := by
  change Touches path host (host.change (host.tree.mkdir other)).2
  cases made : host.tree.mkdir other with
  | error errno => exact .refl path host
  | ok tree =>
    refine ⟨fun place dir => ?_, fun place dir => ?_, fun place _ inode => ?_, fun inode there => ?_,
      fun _ _ => rfl⟩
    · exact ((Node.mkdir_effect made place).1).mpr (.inl dir)
    · rcases ((Node.mkdir_effect made place).1).mp dir with was | rfl
      · exact .inl was
      · exact .inr ⟨below, above⟩
    · exact (Node.mkdir_effect made place).2 inode
    · exact .inl (((Node.mkdir_effect made path).2 inode).mp there)

theorem touches_unlink : Touches path host (execute (.unlink path) host).2 := by
  change Touches path host (host.change (host.tree.unlink path)).2
  cases removed : host.tree.unlink path with
  | error errno => exact .refl path host
  | ok tree =>
    have same : ∀ place, tree.isDir place = host.tree.isDir place := fun place =>
      (Node.unlink_effect removed place).1
    refine ⟨fun place dir => (same place).trans dir, fun place dir => .inl ((same place).symm.trans dir),
      fun place apart inode => (Node.unlink_effect removed place).2.2 apart inode,
      fun inode there => absurd there ((Node.unlink_effect removed path).2.1 inode), fun _ _ => rfl⟩

theorem touches_write {inode : Inode} (own : inode.path = path) (data : Bytes) :
    Touches path host (execute (.write inode data) host).2 := by
  refine ⟨fun _ dir => dir, fun _ dir => .inl dir, fun _ _ _ => Iff.rfl, fun _ there => .inl there,
    fun other apart => ?_⟩
  exact Function.update_of_ne (fun same : other = inode => apart (same ▸ own)) _ _

/-- Where a file can be created one is, and it is empty. -/
theorem execute_create (ready : Ready targets host) (among : targets path)
    (dir : host.tree.isDir path.dropLast = true) (named : path ≠ []) :
    ∃ inode later, execute (.create path) host = (.ok inode, later) ∧ inode.path = path ∧
      Touches path host later ∧ later.tree.lookup path = .ok (.file inode) ∧
      later.contents inode = [] := by
  obtain ⟨old, found⟩ := @Node.slot_below _ _ host.tree path.dropLast (path.getLast named) dir
  rw [List.dropLast_append_getLast named] at found
  have kind := ready.target path among
  unfold Node.isDir at kind
  cases old with
  | some tree =>
    cases tree with
    | dir entries =>
      rw [Node.lookup_slot found] at kind
      cases kind
    | file inode =>
      have there : host.tree.lookup path = .ok (.file inode) := Node.lookup_slot found
      have own := ready.own path inode there
      refine ⟨inode, { host with contents := Function.update host.contents inode [] }, ?_, own, ?_,
        there, Function.update_self _ _ _⟩
      · simp only [execute, there]
      · refine ⟨fun _ dir => dir, fun _ dir => .inl dir, fun _ _ _ => Iff.rfl,
          fun _ there => .inl there, fun other apart => ?_⟩
        exact Function.update_of_ne (fun same : other = inode => apart (same ▸ own)) _ _
  | none =>
    have missing : host.tree.lookup path = .error .noEntry := Node.lookup_slot found
    cases written : host.tree.write (⟨path, host.created⟩ : Inode) path with
    | error errno =>
      rcases Node.alter_error written with failed | ⟨old, here, failed⟩
      · rw [found] at failed
        cases failed
      · rw [found] at here
        cases here
        cases failed
    | ok tree =>
      have effect := Node.write_effect written
      refine ⟨⟨path, host.created⟩, ⟨tree, Function.update host.contents
        ⟨path, host.created⟩ [], host.created + 1⟩, ?_, rfl, ?_,
        Node.lookup_write written, Function.update_self _ _ _⟩
      · simp only [execute, missing, written]
      · refine ⟨fun place dir => (effect place).1.trans dir,
          fun place dir => .inl ((effect place).1.symm.trans dir),
          fun place apart inode => (effect place).2 apart inode, fun inode there => ?_,
          fun other apart => ?_⟩
        · rw [Node.lookup_write written] at there
          cases there
          exact .inr rfl
        · exact Function.update_of_ne (fun same : other = ⟨path, host.created⟩ => apart (same ▸ rfl)) _ _

/-- How MKDIR ends where there is no file on the way: the directory is there, or nothing is
above it. -/
theorem execute_mkdir (clear : ∀ above, above <+: path → ∀ inode,
      host.tree.lookup above ≠ .ok (.file inode)) :
    (∃ later, execute (.mkdir path) host = (.ok (), later) ∧ later.tree.isDir path = true) ∨
    (execute (.mkdir path) host = (.error .fileExistsError, host) ∧ host.tree.isDir path = true) ∨
    ∃ message, execute (.mkdir path) host = (.error (.fileNotFoundError message), host) ∧
      path ≠ [] ∧ host.tree.isDir path.dropLast = false := by
  cases made : host.tree.mkdir path with
  | ok tree =>
    refine .inl ⟨{ host with tree }, ?_, ((Node.mkdir_effect made path).1).mpr (.inr rfl)⟩
    simp only [execute, made, Host.change]
  | error errno =>
    right
    have ends : execute (.mkdir path) host = (.error (raised errno), host) := by
      simp only [execute, made, Host.change]
    rw [ends]
    rcases Node.alter_error made with failed | ⟨old, found, failed⟩
    · right
      have named : path ≠ [] := by
        rintro rfl
        cases failed
      rcases Node.slot_error failed with rfl | ⟨above, inode, below, -, there⟩
      · refine ⟨_, rfl, named, ?_⟩
        cases dir : host.tree.isDir path.dropLast with
        | false => rfl
        | true =>
          obtain ⟨old, found⟩ := @Node.slot_below _ _ host.tree path.dropLast (path.getLast named) dir
          rw [List.dropLast_append_getLast named, failed] at found
          cases found
      · exact absurd there (clear above below inode)
    · left
      cases old with
      | none => cases failed
      | some tree =>
        cases tree with
        | file inode => exact absurd (Node.lookup_slot found) (clear path List.prefix_rfl inode)
        | dir entries =>
          cases failed
          refine ⟨rfl, ?_⟩
          unfold Node.isDir
          rw [Node.lookup_slot found]
          rfl

theorem blob_eq_none (none : ∀ inode, host.tree.lookup path ≠ .ok (.file inode)) :
    host.blob path = .none := by
  unfold Host.blob
  split
  · rename_i inode there
    exact absurd there (none inode)
  · rfl

/-- How UNLINK ends at a target. -/
theorem execute_unlink (ready : Ready targets host) (among : targets path) :
    (∃ later, execute (.unlink path) host = (.ok (), later) ∧ later.blob path = none) ∨
    ∃ message, execute (.unlink path) host = (.error (.fileNotFoundError message), host) ∧
      host.blob path = none := by
  cases removed : host.tree.unlink path with
  | ok tree =>
    refine .inl ⟨{ host with tree }, by simp only [execute, removed, Host.change], ?_⟩
    exact blob_eq_none (Node.unlink_effect removed path).2.1
  | error errno =>
    have ends : execute (.unlink path) host = (.error (raised errno), host) := by
      simp only [execute, removed, Host.change]
    right
    rw [ends]
    rcases Node.alter_error removed with failed | ⟨old, found, failed⟩
    · rcases Node.slot_error failed with rfl | ⟨above, inode, below, apart, there⟩
      · refine ⟨_, rfl, blob_eq_none fun inode there => ?_⟩
        rw [Node.lookup_slot_error failed] at there
        cases there
      · exact absurd there (ready.above path among above below apart inode)
    · cases old with
      | none =>
        cases failed
        refine ⟨_, rfl, blob_eq_none fun inode there => ?_⟩
        rw [Node.lookup_slot found] at there
        cases there
      | some tree =>
        cases tree with
        | file inode => cases failed
        | dir entries =>
          have kind := ready.target path among
          unfold Node.isDir at kind
          rw [Node.lookup_slot found] at kind
          cases kind

end Effects

/-! ## One process among others -/

section Process

variable {targets : Path → Prop} {path dir : Path} {alone : Prop}

theorem stable_ready : Stable (Bears targets path alone) (Ready targets) :=
  fun _ _ ready bears => bears.ready ready

/-- The directory is there. -/
def Made (targets : Path → Prop) (dir : Path) (host : Host) : Prop :=
  Ready targets host ∧ host.tree.isDir dir = true

theorem stable_made : Stable (Bears targets path alone) (Made targets dir) :=
  fun _ _ made bears => ⟨bears.ready made.1, bears.dirs dir made.2⟩

/-- The call has made the directory. -/
def Makes (targets : Path → Prop) (dir : Path) (result : Except Error Unit) (host : Host) : Prop :=
  result = .ok () ∧ Made targets dir host

theorem clear_of_ready {host : Host} (ready : Ready targets host) (among : targets path)
    (below : dir <+: path) (apart : dir ≠ path) : ∀ above, above <+: dir → ∀ inode,
      host.tree.lookup above ≠ .ok (.file inode) := by
  intro above under
  refine ready.above path among above (under.trans below) ?_
  rintro rfl
  exact apart (below.eq_of_length_le under.length_le)

/-- `is_dir` finds a directory that has been seen before. -/
theorem isDir_triple : Triple execute (Bears targets path alone) (Touches path)
    (fun result host => result = .ok true ∧ Made targets dir host) (Made targets dir)
    (isDir dir) := by
  refine Triple.handle (fun result host => result = .ok true ∧ Made targets dir host)
    (Triple.perform (fun answer => ?_) fun host made => ?_) (fun _ _ met => met) ?_
  · intro host later met bears
    exact ⟨met.1, stable_made _ _ met.2 bears⟩
  · have there : ∃ entries, host.tree.lookup dir = .ok (.dir entries) := by
      have kind := made.2
      unfold Node.isDir at kind
      split at kind
      · rename_i entries there
        exact ⟨entries, there⟩
      · cases kind
    obtain ⟨entries, there⟩ := there
    have answered : execute (.stat dir) host = (.ok true, host) := by
      simp only [execute, there]
    rw [answered]
    exact ⟨.refl path host, rfl, made⟩
  · rintro error host ⟨impossible, -⟩
    cases impossible

/-- What MKDIR can answer, and what is so from then on. Below a directory that is known to
be there it does not miss one. -/
def Tried (targets : Path → Prop) (dir : Path) (known : Prop) (result : Except Error Unit)
    (host : Host) : Prop :=
  Ready targets host ∧ match result with
    | .ok _ => host.tree.isDir dir = true
    | .error (.fileNotFoundError _) => dir ≠ [] ∧ ¬ known
    | .error _ => host.tree.isDir dir = true

theorem tried_triple {known : Prop} (among : targets path) (below : dir <+: path)
    (apart : dir ≠ path)
    (apartAll : ∀ one two, targets one → targets two → one <+: two → one = two) :
    Triple execute (Bears targets path alone) (Touches path) (Tried targets dir known)
      (fun host => Ready targets host ∧ (known → dir = [] ∨ host.tree.isDir dir.dropLast = true))
      (Program.perform (Call.mkdir dir)) := by
  refine Triple.perform (fun answer host later met bears => ?_) fun host met => ?_
  · refine ⟨bears.ready met.1, ?_⟩
    have fact := met.2
    split at fact
    · exact bears.dirs dir fact
    · exact fact
    · exact bears.dirs dir fact
  · have touched := @touches_mkdir path dir host below apart
    refine ⟨touched, touched.ready among apartAll met.1, ?_⟩
    rcases execute_mkdir (clear_of_ready met.1 among below apart) with
      ⟨later, ends, there⟩ | ⟨ends, there⟩ | ⟨message, ends, named, missing⟩
    · rw [ends]
      exact there
    · rw [ends]
      exact there
    · rw [ends]
      refine ⟨named, fun knows => ?_⟩
      rcases met.2 knows with root | above
      · exact named root
      · rw [missing] at above
        cases above

/-- Any other refusal is accepted after a look at what is there. -/
theorem checked_triple (error : Error) :
    Triple execute (Bears targets path alone) (Touches path) (Makes targets dir) (Made targets dir)
      (do if ← isDir dir then return () else .raise error) := by
  refine Triple.bind _ isDir_triple (fun value => ?_) ?_
  · cases value with
    | true => exact fun host met => ⟨rfl, met.2⟩
    | false =>
      rintro host ⟨impossible, -⟩
      cases impossible
  · rintro error host ⟨impossible, -⟩
    cases impossible

/-- `mkdir` makes a directory in one that is there. -/
theorem mkdir_triple {up : Path} (among : targets path) (below : up.reverse <+: path)
    (apart : up.reverse ≠ path)
    (apartAll : ∀ one two, targets one → targets two → one <+: two → one = two) :
    Triple execute (Bears targets path alone) (Touches path) (Makes targets up.reverse)
      (fun host => Ready targets host ∧
        (up.reverse = [] ∨ host.tree.isDir up.reverse.dropLast = true)) (mkdir up) := by
  refine Triple.handle (Tried targets up.reverse True) ?_ ?_ ?_
  · refine (tried_triple among below apart apartAll).weaken (fun host met => ⟨met.1, fun _ => met.2⟩)
      fun _ _ met => met
  · exact fun value host met => ⟨rfl, met.1, met.2⟩
  · intro error
    cases error with
    | fileNotFoundError message => exact fun host met => absurd trivial met.2.2
    | _ => exact (checked_triple _).weaken (fun host met => ⟨met.1, met.2⟩) fun _ _ met => met

/-- `mkdir(parents=True)` makes all directories on its way, whoever else does. -/
theorem mkdirParents_triple {up : Path} (among : targets path) (below : up.reverse <+: path)
    (apart : up.reverse ≠ path)
    (apartAll : ∀ one two, targets one → targets two → one <+: two → one = two) :
    Triple execute (Bears targets path alone) (Touches path) (Makes targets up.reverse)
      (Ready targets) (mkdirParents up) := by
  induction up with
  | nil =>
    exact (mkdir_triple among below apart apartAll).weaken (fun host ready => ⟨ready, .inl rfl⟩)
      fun _ _ met => met
  | cons name up ih =>
    have above : up.reverse <+: path := by
      rw [List.reverse_cons] at below
      exact (List.prefix_append _ _).trans below
    have higher : up.reverse ≠ path := by
      intro same
      have lengths := below.length_le
      rw [← same, List.reverse_cons, List.length_append, List.length_singleton] at lengths
      omega
    refine Triple.handle (Tried targets (name :: up).reverse False) ?_ ?_ ?_
    · exact (tried_triple among below apart apartAll).weaken (fun host ready => ⟨ready, nofun⟩)
        fun _ _ met => met
    · exact fun value host met => ⟨rfl, met.1, met.2⟩
    · intro error
      cases error with
      | fileNotFoundError message =>
        refine Triple.bind (Makes targets up.reverse)
          ((ih above higher).weaken (fun host met => met.1) fun _ _ met => met) (fun _ => ?_) ?_
        · refine (mkdir_triple among below apart apartAll).weaken (fun host met => ⟨met.2.1, .inr ?_⟩)
            fun _ _ met => met
          rw [List.reverse_cons, List.dropLast_concat]
          exact met.2.2
        · rintro error host ⟨impossible, -⟩
          cases impossible
      | _ => exact (checked_triple _).weaken (fun host met => ⟨met.1, met.2⟩) fun _ _ met => met

/-- A process that is alone with its blob finds it as it has left it. -/
theorem blob_kept {host later : Host} (ready : Ready targets host)
    (bears : Bears targets path alone host later) (only : alone) :
    later.blob path = host.blob path := by
  have files := bears.files only
  by_cases there : ∃ inode, host.tree.lookup path = .ok (.file inode)
  · obtain ⟨inode, there⟩ := there
    unfold Host.blob
    rw [there, (files inode).mpr there]
    exact congrArg some (bears.contents only inode (ready.own path inode there))
  · have none : ∀ inode, host.tree.lookup path ≠ .ok (.file inode) := fun inode found =>
      there ⟨inode, found⟩
    rw [blob_eq_none none, blob_eq_none fun inode found => none inode ((files inode).mp found)]

/-- What a process that is alone with its blob has made of it. -/
def Leaves (targets : Path → Prop) (path : Path) (alone : Prop) (blob : Option Bytes)
    (host : Host) : Prop :=
  Ready targets host ∧ (alone → host.blob path = blob)

theorem stable_leaves {blob : Option Bytes} :
    Stable (Bears targets path alone) (Leaves targets path alone blob) :=
  fun _ _ left bears => ⟨bears.ready left.1, fun only => (blob_kept left.1 bears only).trans (left.2 only)⟩

/-- The file is open for writing. -/
structure Opened (targets : Path → Prop) (path : Path) (alone : Prop) (inode : Inode)
    (host : Host) : Prop where
  ready : Ready targets host
  own : inode.path = path
  there : alone → host.tree.lookup path = .ok (.file inode)
  new : alone → host.contents inode = []

theorem stable_opened {inode : Inode} :
    Stable (Bears targets path alone) (Opened targets path alone inode) :=
  fun _ _ opened bears => ⟨bears.ready opened.ready, opened.own,
    fun only => (bears.files only inode).mpr (opened.there only),
    fun only => (bears.contents only inode opened.own).trans (opened.new only)⟩

theorem write_triple {inode : Inode} (among : targets path) (data : Bytes)
    (apartAll : ∀ one two, targets one → targets two → one <+: two → one = two) :
    Triple execute (Bears targets path alone) (Touches path)
      (fun result host => result = .ok () ∧ Leaves targets path alone (some data) host)
      (Opened targets path alone inode) (Program.perform (Call.write inode data)) := by
  refine Triple.perform (fun answer host later met bears => ⟨met.1, stable_leaves _ _ met.2 bears⟩)
    fun host opened => ?_
  have touched := @touches_write path host inode opened.own data
  refine ⟨touched, rfl, touched.ready among apartAll opened.ready, fun only => ?_⟩
  unfold Host.blob
  change (match host.tree.lookup path with | .ok (.file inode) => _ | _ => _) = _
  rw [opened.there only]
  refine congrArg some ((Function.update_self _ _ _).trans ?_)
  rw [opened.new only, List.drop_nil, List.append_nil]

theorem create_triple (among : targets path) (named : path ≠ [])
    (apartAll : ∀ one two, targets one → targets two → one <+: two → one = two) :
    Triple execute (Bears targets path alone) (Touches path)
      (fun result host => ∃ inode, result = .ok inode ∧ Opened targets path alone inode host)
      (Made targets path.dropLast) (Program.perform (Call.create path)) := by
  refine Triple.perform (fun answer host later met bears => ?_) fun host made => ?_
  · obtain ⟨inode, rfl, opened⟩ := met
    exact ⟨inode, rfl, stable_opened _ _ opened bears⟩
  · obtain ⟨inode, later, ends, own, touched, there, new⟩ :=
      execute_create made.1 among made.2 named
    rw [ends]
    exact ⟨touched, inode, rfl, touched.ready among apartAll made.1, own, fun _ => there, fun _ => new⟩

variable {bucket key : Str}

/-- `put` stores the blob. -/
theorem put_triple (valid : BlobStorage.LocalBlobStorage.validatePath bucket key = .ok path)
    (among : targets path) (named : path ≠ []) (data : Bytes) (contentType : Option String)
    (apartAll : ∀ one two, targets one → targets two → one <+: two → one = two) :
    Triple execute (Bears targets path alone) (Touches path)
      (fun result host => result = .ok { bucket, key, contentType, size := some data.length } ∧
        Leaves targets path alone (some data) host)
      (Ready targets) (LocalBlobStorage.put bucket key data contentType) := by
  have shorter : path.dropLast ≠ path := by
    intro same
    have lengths := congrArg List.length same
    have positive := List.length_pos_of_ne_nil named
    rw [List.length_dropLast] at lengths
    omega
  have parents := @mkdirParents_triple targets path alone path.dropLast.reverse among
    (by rw [List.reverse_reverse]; exact List.dropLast_prefix path)
    (by rw [List.reverse_reverse]; exact shorter) apartAll
  rw [List.reverse_reverse] at parents
  unfold LocalBlobStorage.put
  rw [valid]
  change Triple _ _ _ _ _ (mkdirParents path.dropLast.reverse >>= fun _ => _)
  refine Triple.bind _ parents (fun _ => ?_) ?_
  · refine Triple.bind _ ((create_triple among named apartAll).weaken (fun host met => met.2)
      fun _ _ met => met) (fun inode => ?_) ?_
    · refine Triple.bind _ ((write_triple among data apartAll).weaken ?_ fun _ _ met => met)
        (fun _ => ?_) ?_
      · rintro host ⟨opened, same, met⟩
        cases same
        exact met
      · exact fun host met => ⟨rfl, met.2⟩
      · rintro error host ⟨impossible, -⟩
        cases impossible
    · rintro error host ⟨inode, impossible, -⟩
      cases impossible
  · rintro error host ⟨impossible, -⟩
    cases impossible

/-- `delete` leaves no blob, and it is no error when there is none. -/
theorem delete_triple (valid : BlobStorage.LocalBlobStorage.validatePath bucket key = .ok path)
    (among : targets path)
    (apartAll : ∀ one two, targets one → targets two → one <+: two → one = two) :
    Triple execute (Bears targets path alone) (Touches path)
      (fun result host => result = .ok () ∧ Leaves targets path alone none host)
      (Ready targets) (LocalBlobStorage.delete bucket key) := by
  unfold LocalBlobStorage.delete
  rw [valid]
  change Triple _ _ _ _ _ ((Program.perform (Call.unlink path)).handle _)
  refine Triple.handle (fun result host => Leaves targets path alone none host ∧
      ∀ error, result = .error error → ∃ message, error = .fileNotFoundError message)
    (Triple.perform (fun answer host later met bears => ⟨stable_leaves _ _ met.1 bears, met.2⟩)
      fun host ready => ?_) ?_ ?_
  · have touched := @touches_unlink path host
    refine ⟨touched, ⟨touched.ready among apartAll ready, fun _ => ?_⟩, ?_⟩
    · rcases execute_unlink ready among with ⟨later, ends, gone⟩ | ⟨message, ends, gone⟩
      · rw [ends]
        exact gone
      · rw [ends]
        exact gone
    · intro error raised
      rcases execute_unlink ready among with ⟨later, ends, gone⟩ | ⟨message, ends, gone⟩
      · rw [ends] at raised
        cases raised
      · rw [ends] at raised
        cases raised
        exact ⟨message, rfl⟩
  · exact fun value host met => ⟨rfl, met.1⟩
  · intro error
    cases error with
    | fileNotFoundError message => exact fun host met => ⟨rfl, met.1⟩
    | _ =>
      intro host met
      obtain ⟨message, impossible⟩ := met.2 _ rfl
      cases impossible

end Process

/-! ## How many calls they make -/

section Lengths

theorem isDir_ends (path : Path) : EndsWithin 1 (isDir path) :=
  (Program.EndsWithin.perform _).handle_end fun _ => trivial

theorem checked_ends (path : Path) (error : Error) :
    EndsWithin 1 (do if ← isDir path then return () else .raise error : Process Unit) := by
  refine (isDir_ends path).bind_end fun value => ?_
  cases value with
  | true => trivial
  | false => trivial

theorem mkdir_ends (up : Path) : EndsWithin 2 (mkdir up) := by
  have calls : 2 = 1 + 1 := rfl
  rw [calls]
  refine (Program.EndsWithin.perform _).handle fun error => ?_
  cases error with
  | fileNotFoundError message => trivial
  | _ => exact checked_ends _ _

theorem mkdirParents_ends (up : Path) : EndsWithin (3 * up.length + 2) (mkdirParents up) := by
  induction up with
  | nil => exact mkdir_ends []
  | cons name up ih =>
    have calls : 3 * (name :: up).length + 2 = 1 + ((3 * up.length + 2) + 2) := by
      rw [List.length_cons]
      omega
    rw [calls]
    refine (Program.EndsWithin.perform _).handle fun error => ?_
    cases error with
    | fileNotFoundError message => exact ih.bind fun _ => mkdir_ends _
    | _ => exact (checked_ends _ _).mono (by omega)

variable {bucket key : Str} {path : Path}

theorem put_ends (valid : BlobStorage.LocalBlobStorage.validatePath bucket key = .ok path)
    (data : Bytes) (contentType : Option String) :
    EndsWithin (3 * path.length + 4) (LocalBlobStorage.put bucket key data contentType) := by
  have parents := mkdirParents_ends path.dropLast.reverse
  rw [List.length_reverse, List.length_dropLast] at parents
  unfold LocalBlobStorage.put
  rw [valid]
  change EndsWithin _ (mkdirParents path.dropLast.reverse >>= fun _ => _)
  refine Program.EndsWithin.mono (Program.EndsWithin.bind parents fun _ => ?_)
    (show (3 * (path.length - 1) + 2) + (1 + 1) ≤ 3 * path.length + 4 by omega)
  refine (Program.EndsWithin.perform _).bind fun file => ?_
  exact (Program.EndsWithin.perform _).bind_end fun _ => trivial

theorem delete_ends (valid : BlobStorage.LocalBlobStorage.validatePath bucket key = .ok path) :
    EndsWithin (3 * path.length + 4) (LocalBlobStorage.delete bucket key) := by
  have once : EndsWithin 1 (LocalBlobStorage.delete bucket key) := by
    unfold LocalBlobStorage.delete
    rw [valid]
    refine (Program.EndsWithin.perform _).handle_end fun error => ?_
    cases error with
    | fileNotFoundError message => trivial
    | _ => trivial
  exact once.mono (by omega)

/-- At most so many system calls are made for an operation. -/
def Operation.calls (operation : Operation) : ℕ :=
  match operation.target with
  | .ok path => 3 * path.length + 4
  | .error _ => 0

/-- A name that is refused is refused before any call. -/
theorem serve_refused {operation : Operation} {error : Error}
    (refused : operation.target = .error error) : operation.serve = .raise error := by
  cases operation with
  | put bucket key data contentType =>
    change BlobStorage.LocalBlobStorage.validatePath bucket key = .error error at refused
    change (LocalBlobStorage.put bucket key data contentType >>= fun _ => _) = _
    unfold LocalBlobStorage.put
    rw [refused]
    rfl
  | delete bucket key =>
    change BlobStorage.LocalBlobStorage.validatePath bucket key = .error error at refused
    change (LocalBlobStorage.delete bucket key >>= fun _ => _) = _
    unfold LocalBlobStorage.delete
    rw [refused]
    rfl

theorem serve_ends (operation : Operation) : EndsWithin operation.calls operation.serve := by
  unfold Operation.calls
  cases aims : operation.target with
  | error error =>
    rw [serve_refused aims]
    trivial
  | ok path =>
    cases operation with
    | put bucket key data contentType =>
      exact (put_ends aims data contentType).bind_end fun _ => trivial
    | delete bucket key => exact (delete_ends aims).bind_end fun _ => trivial

end Lengths

/-! ## All processes -/

section Processes

variable {ι : Type} (operations : ι → Operation)

/-- A path at which some process works. -/
def Targets (path : Path) : Prop := ∃ i, (operations i).target = .ok path

/-- No other process works on the same blob. -/
def Alone (i : ι) : Prop :=
  ∀ j path, j ≠ i → (operations j).target = .ok path → (operations i).target ≠ .ok path

def rely (i : ι) : Host → Host → Prop :=
  match (operations i).target with
  | .ok path => Bears (Targets operations) path (Alone operations i)
  | .error _ => fun host later => Ready (Targets operations) host → Ready (Targets operations) later

def guarantee (i : ι) : Host → Host → Prop :=
  match (operations i).target with
  | .ok path => Touches path
  | .error _ => fun _ _ => False

/-- How a process ends. -/
def Ends (i : ι) (result : Except Error Outcome) (host : Host) : Prop :=
  match (operations i).target with
  | .ok path => result = .ok (operations i).answer ∧
      Leaves (Targets operations) path (Alone operations i) (operations i).leaves host
  | .error error => result = .error error

variable {operations}

theorem guarantee_within
    (apart : ∀ one two, Targets operations one → Targets operations two → one <+: two → one = two)
    {i j : ι} (different : i ≠ j) (host later : Host) (kept : guarantee operations i host later) :
    rely operations j host later := by
  unfold rely
  unfold guarantee at kept
  cases aims : (operations i).target with
  | error error =>
    rw [aims] at kept
    exact kept.elim
  | ok path =>
    rw [aims] at kept
    cases same : (operations j).target with
    | error error => exact Touches.ready kept ⟨i, aims⟩ apart
    | ok other =>
      refine Touches.bears kept ⟨i, aims⟩ apart fun only => ?_
      rintro rfl
      exact only i path different aims same

theorem target_ne_nil {operation : Operation} {path : Path} (aims : operation.target = .ok path) :
    path ≠ [] := by
  have named : ∀ bucket key, BlobStorage.LocalBlobStorage.validatePath bucket key = .ok path →
      path ≠ [] := by
    rintro bucket key valid rfl
    rcases BlobStorageProofs.path_cases valid with ⟨_, _, _, _, more⟩ | ⟨_, _, _, _, _, more⟩
    · cases more
    · cases more
  cases operation with
  | put bucket key data contentType => exact named bucket key aims
  | delete bucket key => exact named bucket key aims

theorem stable_rely (i : ι) : Stable (rely operations i) (Ready (Targets operations)) := by
  unfold rely
  cases (operations i).target with
  | error error => exact fun host later ready kept => kept ready
  | ok path => exact stable_ready

/-- Each process by itself. -/
theorem serve_triple
    (apart : ∀ one two, Targets operations one → Targets operations two → one <+: two → one = two)
    (i : ι) : Triple execute (rely operations i) (guarantee operations i) (Ends operations i)
      (Ready (Targets operations)) (operations i).serve := by
  unfold rely guarantee Ends
  cases aims : (operations i).target with
  | error error =>
    rw [serve_refused aims]
    exact fun host _ => rfl
  | ok path =>
    have named := target_ne_nil aims
    cases operation : operations i with
    | put bucket key data contentType =>
      rw [operation] at aims
      refine Triple.bind _ (put_triple aims ⟨i, operation ▸ aims⟩ named data contentType apart)
        (fun ref => ?_) ?_
      · rintro host ⟨same, left⟩
        cases same
        exact ⟨rfl, left⟩
      · rintro error host ⟨impossible, -⟩
        cases impossible
    | delete bucket key =>
      rw [operation] at aims
      refine Triple.bind _ (delete_triple aims ⟨i, operation ▸ aims⟩ apart) (fun _ => ?_) ?_
      · exact fun host met => ⟨rfl, met.2⟩
      · rintro error host ⟨impossible, -⟩
        cases impossible

/-- However any number of puts and deletes interleave, each is over after so many calls of
its own, and none fails unless its names are refused. The blob on which only one of them
has worked is from then on what that one has made of it. -/
theorem processes_do_not_disturb_each_other [DecidableEq ι]
    (apart : ∀ one two, Targets operations one → Targets operations two → one <+: two → one = two)
    {host : Host} (ready : Ready (Targets operations) host) (turns : List ι) (i : ι) :
    let system := run execute ⟨host, fun i => (operations i).serve⟩ turns
    ((operations i).calls ≤ turns.count i → (system.programs i).result?.isSome) ∧
    ∀ result, (system.programs i).result? = some result →
      match (operations i).target with
      | .ok path => result = .ok (operations i).answer ∧
          (Alone operations i → system.state.blob path = (operations i).leaves)
      | .error error => result = .error error := by
  intro system
  have together : Together execute (rely operations) (guarantee operations) (Ends operations) system := by
    refine together_run (fun i j different host later kept =>
      guarantee_within apart different host later kept) (fun i => ?_) turns
    exact ⟨Ready (Targets operations), stable_rely i, ready, serve_triple apart i⟩
  refine ⟨fun enough => run_ended turns (serve_ends (operations i)) enough, fun result ends => ?_⟩
  have post := together_ended together ends
  unfold Ends at post
  cases aims : (operations i).target with
  | error error =>
    rw [aims] at post
    exact post
  | ok path =>
    rw [aims] at post
    exact ⟨post.1, post.2.2⟩

/-- In an empty base directory nothing is in the way. -/
theorem ready_empty : Ready (Targets operations) Host.empty := by
  have nothing : ∀ path inode, Host.empty.tree.lookup path ≠ .ok (.file inode) := by
    intro path inode
    cases path with
    | nil => simp [Host.empty, Node.lookup]
    | cons name rest => simp [Host.empty, Node.lookup]
  refine ⟨fun _ _ path _ _ inode => nothing path inode, ?_, fun path inode there => ?_⟩
  · rintro target ⟨i, aims⟩
    obtain ⟨name, rest, rfl⟩ := List.exists_cons_of_ne_nil (target_ne_nil aims)
    simp [Host.empty, Node.isDir, Node.lookup]
  · exact absurd there (nothing path inode)

end Processes

/-- Two uploads to a bucket that is not there yet. -/
def uploads : Bool → Operation
  | true => .put (str "images") (str "cat.png") [1, 2] none
  | false => .put (str "images") (str "dog.png") [3] none

/-- Both find the bucket missing, and both make it. -/
def turns : List Bool :=
  [true, false, true, false, true, false, true, false, true, false, true, false, true, false,
    true, false, true, false, true, false]

def catPath : Path := [[105, 109, 97, 103, 101, 115], [99, 97, 116, 46, 112, 110, 103]]

def dogPath : Path := [[105, 109, 97, 103, 101, 115], [100, 111, 103, 46, 112, 110, 103]]

theorem uploads_are_both_stored :
    let system := run execute ⟨Host.empty, fun i => (uploads i).serve⟩ turns
    system.state.blob catPath = some [1, 2] ∧ system.state.blob dogPath = some [3] := by
  intro system
  have texts : ∀ k, (uploads k).target = .ok (if k then catPath else dogPath) := by
    decide
  have apart : ∀ one two, Targets uploads one → Targets uploads two → one <+: two → one = two := by
    rintro one two ⟨i, first⟩ ⟨j, second⟩ below
    rw [texts] at first second
    cases first
    cases second
    cases i <;> cases j <;> revert below <;> decide
  have alone : ∀ i, Alone uploads i := by
    intro i j path different aims same
    rw [texts] at aims same
    cases aims
    cases i <;> cases j <;> revert different same <;> decide
  have stored : ∀ i, match (uploads i).target with
      | .ok path => system.state.blob path = (uploads i).leaves
      | .error _ => False := by
    intro i
    have served := processes_do_not_disturb_each_other apart ready_empty turns i
    obtain ⟨result, ends⟩ := Option.isSome_iff_exists.mp (served.1 (by cases i <;> decide))
    have kept := served.2 result ends
    rw [texts] at kept ⊢
    exact kept.2 (alone i)
  exact ⟨stored true, stored false⟩

end BackendFoundation.BlobProcesses
