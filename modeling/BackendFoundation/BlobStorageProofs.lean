import BackendFoundation.BlobStorage
import Mathlib.Data.List.Induction
import Mathlib.Data.Set.Defs

/-! Which calls make the storage the map from pairs that its port describes. A bucket
and a key are flattened into one path of names as the file system has them, so two pairs
may have one path, and one pair's path may lie below another's; neither happens as long as
no blob is put under a name with a slash or under the bytes of another name, and no
deletion looks below a blob. -/
namespace BackendFoundation.BlobStorageProofs
open PythonValues BlobNames FileNames FileTrees BlobStorage LocalBlobStorage

/-! ## The map -/

abbrev Pair := Str × Str

abbrev Blobs := Pair → Option Bytes

/-- What a call makes of the map. -/
def record (blobs : Blobs) : Call → Blobs
  | .put bucket key data _ => Function.update blobs (bucket, key) (some data)
  | .get _ _ => blobs
  | .delete bucket key => Function.update blobs (bucket, key) none

/-- The map after a sequence of calls. -/
def recorded (calls : List Call) : Blobs := calls.foldl record fun _ => none

/-- How a call ends. -/
def expected (blobs : Blobs) : Call → Except Error Outcome
  | .put bucket key data contentType =>
    .ok (.stored { bucket, key, contentType, size := some data.length })
  | .get bucket key =>
    match blobs (bucket, key) with
    | some data => .ok (.streamed data)
    | none => .error (notFound bucket key)
  | .delete _ _ => .ok .deleted

/-- Validation gives the pair this path. -/
def Placed (blob : Pair) (path : List Name) : Prop := validatePath blob.1 blob.2 = .ok path

instance (blob : Pair) (path : List Name) : Decidable (Placed blob path) :=
  inferInstanceAs (Decidable (validatePath blob.1 blob.2 = .ok path))

/-- The pair passes validation. -/
def Valid (blob : Pair) : Prop := ∃ path, Placed blob path

def Flat (value : Str) : Prop := chr '/' ∉ value

instance (value : Str) : Decidable (Flat value) := inferInstanceAs (Decidable (chr '/' ∉ value))

/-- None of the other pairs has the same path. -/
def Own (pairs : Set Pair) (blob : Pair) : Prop :=
  ∀ other ∈ pairs, ∀ path, Placed blob path → Placed other path → other = blob

/-- A blob is put under flat names only, with which no other pair in use is confused, and a
deletion does not look below a blob. -/
def Meets (pairs : Set Pair) (blobs : Blobs) : Call → Prop
  | .put bucket key _ _ => Flat bucket ∧ Flat key ∧ Own pairs (bucket, key)
  | .get _ _ => True
  | .delete bucket key => ∀ other path below, Placed other path → below ≠ [] →
    Placed (bucket, key) (path ++ below) → blobs other = none

/-! ## Paths -/

section Paths

variable {value bucket key : Str} {path other : List Name} {blob : Pair}

theorem segments_of_flat (flat : Flat value) : segments value = [value] :=
  List.splitOn_eq_singleton flat

theorem segments_ne_nil : segments value ≠ [] := List.splitOn_ne_nil _ _

/-- A slash makes two segments of a name at least. -/
theorem segments_of_not_flat (nested : ¬ Flat value) :
    ∃ first second rest, segments value = first :: second :: rest := by
  obtain ⟨before, following, whole⟩ := List.append_of_mem (Classical.not_not.mp nested)
  unfold segments
  rw [whole, List.splitOn_append_cons_self]
  cases front : before.splitOn (chr '/') with
  | nil => exact absurd front (List.splitOn_ne_nil _ _)
  | cons first rest =>
    cases back : following.splitOn (chr '/') with
    | nil => exact absurd back (List.splitOn_ne_nil _ _)
    | cons second others =>
      cases rest with
      | nil => exact ⟨first, second, others, rfl⟩
      | cons next rest => exact ⟨first, next, rest ++ second :: others, rfl⟩

/-- A pair has two segments, those of a flat pair, or more. -/
theorem segments_cases (bucket key : Str) :
    (Flat bucket ∧ Flat key ∧ segments bucket ++ segments key = [bucket, key]) ∨
      (¬ (Flat bucket ∧ Flat key) ∧ ∃ first second third rest,
        segments bucket ++ segments key = first :: second :: third :: rest) := by
  by_cases flat : Flat bucket
  · by_cases flat' : Flat key
    · rw [segments_of_flat flat, segments_of_flat flat']
      exact .inl ⟨flat, flat', rfl⟩
    · obtain ⟨first, second, rest, two⟩ := segments_of_not_flat flat'
      rw [segments_of_flat flat, two]
      exact .inr ⟨fun both => flat' both.2, _, _, _, _, rfl⟩
  · obtain ⟨first, second, rest, two⟩ := segments_of_not_flat flat
    rw [two]
    cases last : segments key with
    | nil => exact absurd last segments_ne_nil
    | cons third others =>
      cases rest with
      | nil => exact .inr ⟨fun both => flat both.1, _, _, _, _, rfl⟩
      | cons next rest => exact .inr ⟨fun both => flat both.1, _, _, _, _, rfl⟩

theorem placed_of_screened (screened : screen bucket key = .ok ()) :
    Placed (bucket, key) path ↔ (segments bucket ++ segments key).mapM fsencode = some path := by
  unfold Placed validatePath
  rw [screened]
  cases (segments bucket ++ segments key).mapM fsencode with
  | none => simp [bind, Except.bind, throw, throwThe, MonadExceptOf.throw]
  | some names => simp [bind, Except.bind, pure, Except.pure]

theorem screened_of_placed (placed : Placed (bucket, key) path) : screen bucket key = .ok () := by
  unfold Placed validatePath at placed
  cases screened : screen bucket key with
  | error error =>
    rw [screened] at placed
    cases placed
  | ok _ => rfl

/-- A path is made of safe segments as the file system has them. -/
theorem placed_iff : Placed (bucket, key) path ↔
    (∀ segment ∈ segments bucket ++ segments key, SafeSegment segment) ∧
      (segments bucket ++ segments key).mapM fsencode = some path := by
  have screened : screen bucket key = .ok () ↔
      ∀ segment ∈ segments bucket ++ segments key, SafeSegment segment := by
    simp only [screen_segments, List.mem_append, or_imp, forall_and]
  rw [← screened]
  constructor
  · intro placed
    have passed := screened_of_placed placed
    exact ⟨passed, (placed_of_screened passed).mp placed⟩
  · rintro ⟨passed, encoded⟩
    exact (placed_of_screened passed).mpr encoded

theorem placed_inj (placed : Placed blob path) (again : Placed blob other) : path = other := by
  unfold Placed at placed again
  rw [placed] at again
  injection again

/-- The path of a flat pair is its two names. -/
theorem placed_flat (placed : Placed (bucket, key) path) (flat : Flat bucket) (flat' : Flat key) :
    ∃ first second, fsencode bucket = some first ∧ fsencode key = some second ∧
      path = [first, second] := by
  have encoded := (placed_iff.mp placed).2
  rw [segments_of_flat flat, segments_of_flat flat', List.singleton_append, List.mapM_cons,
    List.mapM_cons] at encoded
  cases inBucket : fsencode bucket with
  | none =>
    rw [inBucket] at encoded
    cases encoded
  | some first =>
    cases inKey : fsencode key with
    | none =>
      rw [inBucket, inKey] at encoded
      cases encoded
    | some second =>
      rw [inBucket, inKey] at encoded
      cases encoded
      exact ⟨first, second, rfl, rfl, rfl⟩

/-- The path of a pair has two names, those of a flat pair, or more. -/
theorem path_cases (placed : Placed (bucket, key) path) :
    (Flat bucket ∧ Flat key ∧ ∃ first second, path = [first, second]) ∨
      (¬ (Flat bucket ∧ Flat key) ∧ ∃ first second third rest,
        path = first :: second :: third :: rest) := by
  rcases segments_cases bucket key with ⟨flat, flat', -⟩ | ⟨nested, first, second, third, rest, more⟩
  · obtain ⟨first, second, -, -, names⟩ := placed_flat placed flat flat'
    exact .inl ⟨flat, flat', first, second, names⟩
  · have lengths := length_mapM_fsencode (placed_iff.mp placed).2
    rw [more] at lengths
    cases path with
    | nil => cases lengths
    | cons first path =>
      cases path with
      | nil => cases lengths
      | cons second path =>
        cases path with
        | nil => cases lengths
        | cons third rest => exact .inr ⟨nested, first, second, third, rest, rfl⟩

/-- Pairs without lone surrogates are not confused. -/
theorem own_of_scalars (flat : Flat bucket) (flat' : Flat key) (scalars : encodable bucket = true)
    (scalars' : encodable key = true) :
    Own {blob | encodable blob.1 = true ∧ encodable blob.2 = true} (bucket, key) := by
  rintro ⟨other, otherKey⟩ ⟨plain, plain'⟩ path placed same
  obtain ⟨first, second, inBucket, inKey, rfl⟩ := placed_flat placed flat flat'
  rcases path_cases same with ⟨otherFlat, otherFlat', -⟩ | ⟨-, _, _, _, _, more⟩
  · obtain ⟨_, _, inOther, inOtherKey, names⟩ := placed_flat same otherFlat otherFlat'
    cases names
    have inFirst : other = bucket := fsencode_injective plain scalars inOther inBucket
    have inSecond : otherKey = key := fsencode_injective plain' scalars' inOtherKey inKey
    rw [inFirst, inSecond]
  · cases more

end Paths

/-! ## Files -/

/-- Buckets with their files. -/
abbrev Buckets := Name → Option (Name → Option Bytes)

/-- The base directory: a directory for each bucket, and a file for each key in it. -/
def tree (buckets : Buckets) : Storage :=
  some (.dir fun bucket => (buckets bucket).map fun files => .dir fun key => (files key).map .file)

/-- The buckets have the blobs of the map at their paths, and no other files. -/
def Holds (buckets : Buckets) (blobs : Blobs) : Prop :=
  ∀ bucket key data, (buckets bucket).bind (· key) = some data ↔
    ∃ blob, Placed blob [bucket, key] ∧ blobs blob = some data

/-- The files are those of the map, which has blobs of flat pairs only, each of which has
its path to itself. -/
structure Represents (pairs : Set Pair) (storage : Storage) (blobs : Blobs) : Prop where
  files : ∃ buckets : Buckets, storage = tree buckets ∧ Holds buckets blobs
  stored : ∀ bucket key, blobs (bucket, key) ≠ none →
    Flat bucket ∧ Flat key ∧ Own pairs (bucket, key)

section Trees

variable {buckets : Buckets} {bucket key : Name} {files : Name → Option Bytes}

theorem lookup_tree : (tree buckets).lookup [bucket, key] =
    match (buckets bucket).bind (· key) with
    | some data => .ok (.file data)
    | none => .error .noEntry := by
  unfold tree
  cases there : buckets bucket with
  | none => simp [Node.lookup, there]
  | some files =>
    cases found : files key with
    | none => simp [Node.lookup, there, found]
    | some data => simp [Node.lookup, there, found]

/-- Below the files there is nothing. -/
theorem lookup_below {next : Name} {rest : List Name} :
    (tree buckets).lookup (bucket :: key :: next :: rest) =
      .error (if ((buckets bucket).bind (· key)).isSome then .notDirectory else .noEntry) := by
  unfold tree
  cases there : buckets bucket with
  | none => simp [Node.lookup, there]
  | some files =>
    cases found : files key with
    | none => simp [Node.lookup, there, found]
    | some data => simp [Node.lookup, there, found]

/-- Below a file there is no directory. -/
theorem unlink_below_file {next : Name} {rest : List Name} {data : Bytes}
    (found : (buckets bucket).bind (· key) = some data) :
    (tree buckets).unlink (bucket :: key :: next :: rest) = .error .notDirectory := by
  obtain ⟨files, there, file⟩ := Option.bind_eq_some_iff.mp found
  unfold tree Node.unlink
  simp [Node.alter, there, file]

theorem unlink_below {next : Name} {rest : List Name}
    (absent : (buckets bucket).bind (· key) = none) :
    (tree buckets).unlink (bucket :: key :: next :: rest) = .error .noEntry := by
  unfold tree Node.unlink
  cases there : buckets bucket with
  | none => simp [Node.alter, there]
  | some files =>
    have missing : files key = none := by simpa [there] using absent
    simp [Node.alter, there, missing]

/-- A directory with other files. -/
theorem update_bucket (files : Name → Option Bytes) :
    some (Tree.dir (Function.update
      (fun bucket => (buckets bucket).map fun files => .dir fun key => (files key).map .file)
      bucket (some (.dir fun key => (files key).map .file)))) =
        tree (Function.update buckets bucket (some files)) := by
  unfold tree
  congr 2
  funext other
  by_cases same : other = bucket
  · rw [same, Function.update_self, Function.update_self]
    rfl
  · rw [Function.update_of_ne same, Function.update_of_ne same]

private theorem update_file (file : Option Bytes) :
    Function.update (fun key => (files key).map Tree.file) key (file.map Tree.file) =
      fun other => (Function.update files key file other).map (Tree.file (ν := Name)) := by
  funext other
  by_cases same : other = key
  · rw [same, Function.update_self, Function.update_self]
  · rw [Function.update_of_ne same, Function.update_of_ne same]

theorem write_tree (there : buckets bucket = some files) (key : Name) (data : Bytes) :
    (tree buckets).write data [bucket, key] =
      .ok (tree (Function.update buckets bucket (some (Function.update files key (some data))))) := by
  rw [← update_bucket, ← update_file]
  unfold tree Node.write
  cases found : files key with
  | none => simp [Node.alter, there, found]
  | some old => simp [Node.alter, there, found]

theorem unlink_tree (there : buckets bucket = some files) {data : Bytes}
    (found : files key = some data) : (tree buckets).unlink [bucket, key] =
      .ok (tree (Function.update buckets bucket (some (Function.update files key none)))) := by
  rw [← update_bucket, ← update_file]
  unfold tree Node.unlink
  simp [Node.alter, there, found]

theorem unlink_absent (absent : (buckets bucket).bind (· key) = none) :
    (tree buckets).unlink [bucket, key] = .error .noEntry := by
  unfold tree Node.unlink
  cases there : buckets bucket with
  | none => simp [Node.alter, there]
  | some files =>
    have missing : files key = none := by simpa [there] using absent
    simp [Node.alter, there, missing]

theorem mkdir_tree (absent : buckets bucket = none) : (tree buckets).mkdir [bucket] =
    .ok (tree (Function.update buckets bucket (some fun _ => none))) := by
  rw [← update_bucket]
  unfold tree Node.mkdir
  simp [Node.alter, absent]

theorem mkdir_there (there : buckets bucket = some files) :
    (tree buckets).mkdir [bucket] = .error .exists := by
  unfold tree Node.mkdir
  simp [Node.alter, there]

theorem isDir_there (there : buckets bucket = some files) :
    (tree buckets).isDir [bucket] = true := by
  unfold tree Node.isDir
  simp [Node.lookup, there]

end Trees

/-! ## Calls -/

section Rules

variable {α β : Type} {body : Disk α} {rest : α → Disk β} {handler : Error → Disk α}
  {storage later : Storage} {value : α} {error : Error}

theorem bind_ok (ran : body storage = .ok value later) : (body >>= rest) storage = rest value later := by
  change EStateM.bind body rest storage = _
  unfold EStateM.bind
  rw [ran]

theorem bind_error (ran : body storage = .error error later) :
    (body >>= rest) storage = .error error later := by
  change EStateM.bind body rest storage = _
  unfold EStateM.bind
  rw [ran]

theorem tryCatch_ok (ran : body storage = .ok value later) :
    tryCatch body handler storage = .ok value later := by
  change EStateM.tryCatch body handler storage = _
  unfold EStateM.tryCatch
  rw [ran]

theorem tryCatch_error (ran : body storage = .error error later) :
    tryCatch body handler storage = handler error later := by
  change EStateM.tryCatch body handler storage = _
  unfold EStateM.tryCatch
  rw [ran]
  rfl

theorem changing_ok {call : Storage → Except Errno Storage} (changes : call storage = .ok later) :
    Disk.changing call storage = .ok () later := by
  unfold Disk.changing
  rw [changes]

theorem changing_error {call : Storage → Except Errno Storage} {errno : Errno}
    (fails : call storage = .error errno) :
    Disk.changing call storage = .error (raised errno) storage := by
  unfold Disk.changing
  rw [fails]

/-- A call that returns has done both parts. -/
theorem bind_eq_ok {result : β} (ran : (body >>= rest) storage = .ok result later) :
    ∃ value between, body storage = .ok value between ∧ rest value between = .ok result later := by
  cases first : body storage with
  | ok value between =>
    rw [bind_ok first] at ran
    exact ⟨value, between, rfl, ran⟩
  | error error between =>
    rw [bind_error first] at ran
    cases ran

theorem changing_eq_ok {call : Storage → Except Errno Storage} {done : Unit}
    (changes : Disk.changing call storage = .ok done later) : call storage = .ok later := by
  unfold Disk.changing at changes
  split at changes
  · rename_i changed
    cases changes
    exact changed
  · cases changes

theorem reading_ok {call : Storage → Except Errno α} (reads : call storage = .ok value) :
    Disk.reading call storage = .ok value storage := by
  unfold Disk.reading
  rw [reads]

theorem ofExcept_ok {check : Except Error α} (passes : check = .ok value) (storage : Storage) :
    Disk.ofExcept check storage = .ok value storage := by
  rw [passes]
  rfl

end Rules

section Calls

variable {storage : Storage} {buckets : Buckets} {bucket key : Str} {path : List Name}
  {data : Bytes} {contentType : Option String}

/-- The bucket's directory is there afterwards, with the files it had. -/
theorem mkdirParents_tree (bucket : Name) : mkdirParents [bucket] (tree buckets) =
    .ok () (tree (Function.update buckets bucket (some ((buckets bucket).getD fun _ => none)))) := by
  unfold mkdirParents
  cases there : buckets bucket with
  | none => exact tryCatch_ok (changing_ok (mkdir_tree there))
  | some files =>
    have same : Function.update buckets bucket (some files) = buckets := by
      rw [← there, Function.update_eq_self]
    rw [tryCatch_error (changing_error (mkdir_there there)), Option.getD_some, same]
    change (isDir [bucket] >>= _) (tree buckets) = _
    have found : isDir [bucket] (tree buckets) = .ok true (tree buckets) := by
      unfold isDir
      rw [isDir_there there]
    rw [bind_ok found]
    rfl

/-- A put of a flat pair changes its file in its bucket. -/
theorem put_flat {first second : Name} (placed : Placed (bucket, key) [first, second]) :
    put bucket key data contentType (tree buckets) =
      .ok { bucket, key, contentType, size := some data.length }
        (tree (Function.update buckets first
          (some (Function.update ((buckets first).getD fun _ => none) second (some data))))) := by
  have parent : mkdirParents [first, second].dropLast.reverse (tree buckets) = _ :=
    mkdirParents_tree first
  have written := write_tree (Function.update_self first
    (some ((buckets first).getD fun _ => none)) buckets) second data
  unfold put
  rw [bind_ok (ofExcept_ok placed _), bind_ok parent, bind_ok (changing_ok written),
    Function.update_idem]
  rfl

/-- The pieces of a stream are the data. -/
theorem chunks_flatten (data : Bytes) : (chunks data).flatten = data := by
  fun_induction chunks data with
  | case1 => rfl
  | case2 data some ih => rw [List.flatten_cons, ih, List.take_append_drop]

/-- What is streamed from the path of a pair. -/
theorem get_found (placed : Placed (bucket, key) path)
    (there : storage.lookup path = .ok (.file data)) :
    (Call.get bucket key).perform storage = .ok (.streamed data) storage := by
  have found : pathExists path storage = .ok true storage := by
    unfold pathExists
    rw [there]
    rfl
  have reads : Disk.reading (Node.read · path) storage = .ok data storage := by
    apply reading_ok
    unfold Node.read
    rw [there]
  have pieces : (do return chunks (← Disk.reading (Node.read · path)) : Disk (List Bytes)) storage =
      .ok (chunks data) storage := bind_ok reads
  have gets : LocalBlobStorage.get bucket key storage =
      .ok (do return chunks (← Disk.reading (Node.read · path))) storage := by
    unfold LocalBlobStorage.get
    rw [bind_ok (ofExcept_ok placed _), bind_ok found]
    rfl
  change (LocalBlobStorage.get bucket key >>= _) storage = _
  rw [bind_ok gets, bind_ok pieces]
  change EStateM.Result.ok (Outcome.streamed (chunks data).flatten) _ = _
  rw [chunks_flatten]

theorem get_missing (placed : Placed (bucket, key) path) {errno : Errno}
    (missing : storage.lookup path = .error errno) :
    (Call.get bucket key).perform storage = .error (notFound bucket key) storage := by
  have absent : pathExists path storage = .ok false storage := by
    unfold pathExists
    rw [missing]
    rfl
  have gets : LocalBlobStorage.get bucket key storage = .error (notFound bucket key) storage := by
    unfold LocalBlobStorage.get
    rw [bind_ok (ofExcept_ok placed _), bind_ok absent]
    rfl
  exact bind_error gets

theorem delete_found (placed : Placed (bucket, key) path) {later : Storage}
    (removed : storage.unlink path = .ok later) :
    (Call.delete bucket key).perform storage = .ok .deleted later := by
  have deletes : LocalBlobStorage.delete bucket key storage = .ok () later := by
    unfold LocalBlobStorage.delete
    rw [bind_ok (ofExcept_ok placed _)]
    exact tryCatch_ok (changing_ok removed)
  change (LocalBlobStorage.delete bucket key >>= _) storage = _
  rw [bind_ok deletes]
  rfl

theorem delete_missing (placed : Placed (bucket, key) path)
    (missing : storage.unlink path = .error .noEntry) :
    (Call.delete bucket key).perform storage = .ok .deleted storage := by
  have deletes : LocalBlobStorage.delete bucket key storage = .ok () storage := by
    unfold LocalBlobStorage.delete
    rw [bind_ok (ofExcept_ok placed _), tryCatch_error (changing_error missing)]
    rfl
  change (LocalBlobStorage.delete bucket key >>= _) storage = _
  rw [bind_ok deletes]
  rfl

/-- Only a missing entry is suppressed. -/
theorem delete_fails (placed : Placed (bucket, key) path)
    (fails : storage.unlink path = .error .notDirectory) :
    (Call.delete bucket key).perform storage = .error .notADirectoryError storage := by
  have deletes : LocalBlobStorage.delete bucket key storage = .error .notADirectoryError storage := by
    unfold LocalBlobStorage.delete
    rw [bind_ok (ofExcept_ok placed _), tryCatch_error (changing_error fails)]
    rfl
  exact bind_error deletes

/-- A put that succeeds has written its data at the path of its pair. -/
theorem put_writes (placed : Placed (bucket, key) path) {ref : BlobRef} {later : Storage}
    (stored : put bucket key data contentType storage = .ok ref later) :
    later.lookup path = .ok (.file data) := by
  unfold put at stored
  rw [bind_ok (ofExcept_ok placed _)] at stored
  obtain ⟨_, opened, _, written⟩ := bind_eq_ok stored
  obtain ⟨_, _, writes, returned⟩ := bind_eq_ok written
  cases returned
  exact Node.lookup_write (changing_eq_ok writes)

end Calls

/-! ## Steps and runs -/

section Steps

variable {pairs : Set Pair} {storage : Storage} {blobs : Blobs} {call : Call} {buckets : Buckets}
  {bucket key : Str} {blob : Pair} {first second : Name}

/-- Changing a pair in the map is changing its file in its bucket. -/
theorem holds_update (holds : Holds buckets blobs) (placed : Placed blob [first, second])
    (only : ∀ other, blobs other ≠ none → Placed other [first, second] → other = blob)
    (file : Option Bytes) :
    Holds (Function.update buckets first
      (some (Function.update ((buckets first).getD fun _ => none) second file)))
        (Function.update blobs blob file) := by
  intro bucket key data
  by_cases here : bucket = first ∧ key = second
  · obtain ⟨rfl, rfl⟩ := here
    rw [Function.update_self, Option.bind_some, Function.update_self]
    constructor
    · intro written
      exact ⟨blob, placed, by rw [Function.update_self, written]⟩
    · rintro ⟨other, there, found⟩
      by_cases same : other = blob
      · rwa [same, Function.update_self] at found
      · rw [Function.update_of_ne same] at found
        exact absurd (only other (by simp [found]) there) same
  · have elsewhere : ((Function.update buckets first
        (some (Function.update ((buckets first).getD fun _ => none) second file))) bucket).bind
          (· key) = (buckets bucket).bind (· key) := by
      by_cases inBucket : bucket = first
      · subst inBucket
        have apart : key ≠ second := fun same => here ⟨rfl, same⟩
        rw [Function.update_self, Option.bind_some, Function.update_of_ne apart]
        cases buckets bucket with
        | none => rfl
        | some files => rfl
      · rw [Function.update_of_ne inBucket]
    have other : ∀ other, Placed other [bucket, key] → other ≠ blob := by
      rintro other there rfl
      cases placed_inj there placed
      exact here ⟨rfl, rfl⟩
    rw [elsewhere, holds]
    constructor
    · rintro ⟨found, there, data⟩
      exact ⟨found, there, by rwa [Function.update_of_ne (other found there)]⟩
    · rintro ⟨found, there, data⟩
      exact ⟨found, there, by rwa [Function.update_of_ne (other found there)] at data⟩

/-- Where the map has no blob of a pair there is no file of its own, nor another pair's. -/
theorem Represents.absent (represents : Represents pairs storage blobs) (holds : Holds buckets blobs)
    (member : blob ∈ pairs) (placed : Placed blob [first, second]) (missing : blobs blob = none) :
    (buckets first).bind (· second) = none := by
  cases found : (buckets first).bind (· second) with
  | none => rfl
  | some data =>
    obtain ⟨other, there, stored⟩ := (holds first second data).mp found
    have same := (represents.stored other.1 other.2 (by simp [stored])).2.2 blob member _ there placed
    rw [same, stored] at missing
    cases missing

theorem step_put {data : Bytes} {contentType : Option String}
    (represents : Represents pairs storage blobs) (valid : Valid (bucket, key))
    (member : (bucket, key) ∈ pairs) (flat : Flat bucket) (flat' : Flat key)
    (own : Own pairs (bucket, key)) :
    answer ((Call.put bucket key data contentType).perform storage) =
        .ok (.stored { bucket, key, contentType, size := some data.length }) ∧
      Represents pairs (left ((Call.put bucket key data contentType).perform storage))
        (Function.update blobs (bucket, key) (some data)) := by
  obtain ⟨⟨buckets, rfl, holds⟩, stored⟩ := represents
  obtain ⟨path, placed⟩ := valid
  obtain ⟨first, second, -, -, rfl⟩ := placed_flat placed flat flat'
  have puts : (Call.put bucket key data contentType).perform (tree buckets) = _ :=
    bind_ok (put_flat placed)
  rw [puts]
  refine ⟨rfl, ⟨_, rfl, holds_update holds placed (fun other there same => ?_) (some data)⟩, ?_⟩
  · exact ((stored other.1 other.2 there).2.2 _ member _ same placed).symm
  · intro other otherKey there
    by_cases same : (other, otherKey) = (bucket, key)
    · cases same
      exact ⟨flat, flat', own⟩
    · rw [Function.update_of_ne same] at there
      exact stored other otherKey there

theorem step_get (represents : Represents pairs storage blobs) (valid : Valid (bucket, key))
    (member : (bucket, key) ∈ pairs) :
    answer ((Call.get bucket key).perform storage) = expected blobs (.get bucket key) ∧
      left ((Call.get bucket key).perform storage) = storage := by
  have known := represents
  obtain ⟨⟨buckets, rfl, holds⟩, stored⟩ := represents
  obtain ⟨path, placed⟩ := valid
  cases found : blobs (bucket, key) with
  | some data =>
    obtain ⟨flat, flat', -⟩ := stored bucket key (by simp [found])
    have ends : expected blobs (.get bucket key) = .ok (.streamed data) := by
      simp only [expected, found]
    obtain ⟨first, second, -, -, rfl⟩ := placed_flat placed flat flat'
    have there : (tree buckets).lookup [first, second] = .ok (.file data) := by
      rw [lookup_tree, (holds first second data).mpr ⟨_, placed, found⟩]
    rw [get_found placed there, ends]
    exact ⟨rfl, rfl⟩
  | none =>
    have ends : expected blobs (.get bucket key) = .error (notFound bucket key) := by
      simp only [expected, found]
    have absent : ∃ errno, (tree buckets).lookup path = .error errno := by
      rcases path_cases placed with ⟨_, _, first, second, rfl⟩ | ⟨_, first, second, third, rest, rfl⟩
      · rw [lookup_tree, known.absent holds member placed found]
        exact ⟨_, rfl⟩
      · rw [lookup_below]
        exact ⟨_, rfl⟩
    obtain ⟨errno, missing⟩ := absent
    rw [get_missing placed missing, ends]
    exact ⟨rfl, rfl⟩

theorem step_delete (represents : Represents pairs storage blobs) (valid : Valid (bucket, key))
    (member : (bucket, key) ∈ pairs) (meets : Meets pairs blobs (.delete bucket key)) :
    answer ((Call.delete bucket key).perform storage) = .ok .deleted ∧
      Represents pairs (left ((Call.delete bucket key).perform storage))
        (Function.update blobs (bucket, key) none) := by
  have known := represents
  obtain ⟨⟨buckets, rfl, holds⟩, stored⟩ := represents
  obtain ⟨path, placed⟩ := valid
  cases found : blobs (bucket, key) with
  | some data =>
    obtain ⟨flat, flat', -⟩ := stored bucket key (by simp [found])
    obtain ⟨first, second, -, -, rfl⟩ := placed_flat placed flat flat'
    obtain ⟨files, there, file⟩ :=
      Option.bind_eq_some_iff.mp ((holds first second data).mpr ⟨_, placed, found⟩)
    have updated := holds_update holds placed (fun other there same =>
      ((stored other.1 other.2 there).2.2 _ member _ same placed).symm) none
    rw [there, Option.getD_some] at updated
    rw [delete_found placed (unlink_tree there file)]
    refine ⟨rfl, ⟨_, rfl, updated⟩, ?_⟩
    intro other otherKey there
    by_cases same : (other, otherKey) = (bucket, key)
    · rw [same, Function.update_self] at there
      exact absurd rfl there
    · rw [Function.update_of_ne same] at there
      exact stored other otherKey there
  | none =>
    have missing : (tree buckets).unlink path = .error .noEntry := by
      rcases path_cases placed with ⟨_, _, first, second, rfl⟩ | ⟨_, first, second, third, rest, rfl⟩
      · exact unlink_absent (known.absent holds member placed found)
      · refine unlink_below ?_
        cases file : (buckets first).bind (· second) with
        | none => rfl
        | some data =>
          -- A file on the way would be a blob below which the deletion looks.
          obtain ⟨other, there, data⟩ := (holds first second data).mp file
          have free := meets other [first, second] (third :: rest) there (List.cons_ne_nil _ _) placed
          rw [data] at free
          cases free
    have kept : Function.update blobs (bucket, key) none = blobs := by
      rw [← found, Function.update_eq_self]
    rw [delete_missing placed missing, kept]
    exact ⟨rfl, known⟩

/-- A call that meets the condition ends as the map says, and leaves the map's files. -/
theorem step_represents (represents : Represents pairs storage blobs) (valid : Valid call.blob)
    (member : call.blob ∈ pairs) (meets : Meets pairs blobs call) :
    answer (call.perform storage) = expected blobs call ∧
      Represents pairs (left (call.perform storage)) (record blobs call) := by
  cases call with
  | put bucket key data contentType =>
    exact step_put represents valid member meets.1 meets.2.1 meets.2.2
  | get bucket key =>
    obtain ⟨ends, kept⟩ := step_get represents valid member
    rw [kept]
    exact ⟨ends, represents⟩
  | delete bucket key => exact step_delete represents valid member meets

end Steps

section Runs

variable {pairs : Set Pair} {calls before rest : List Call} {call : Call}

/-- Every call of the sequence meets the condition on the map before it. -/
def AllMeet (pairs : Set Pair) (calls : List Call) : Prop :=
  ∀ before call rest, calls = before ++ call :: rest → Meets pairs (recorded before) call

theorem AllMeet.initial (all : AllMeet pairs (before ++ rest)) : AllMeet pairs before := by
  intro first call others split
  apply all first call (others ++ rest)
  rw [split]
  simp

theorem after_append_one : after (before ++ [call]) = left (call.perform (after before)) := by
  simp [after]

theorem recorded_append_one : recorded (before ++ [call]) = record (recorded before) call := by
  simp [recorded]

theorem empty_represents : Represents pairs empty fun _ => none :=
  ⟨⟨fun _ => none, rfl, fun _ _ _ => by simp⟩, fun _ _ there => absurd rfl there⟩

theorem run_represents (valid : ∀ call ∈ calls, Valid call.blob ∧ call.blob ∈ pairs)
    (all : AllMeet pairs calls) : Represents pairs (after calls) (recorded calls) := by
  induction calls using List.reverseRecOn with
  | nil => exact empty_represents
  | append_singleton before call ih =>
    have represents := ih (fun call member => valid call (by simp [member])) all.initial
    have named := valid call (by simp)
    rw [after_append_one, recorded_append_one]
    exact (step_represents represents named.1 named.2 (all before call [] rfl)).2

/-- In every run whose calls pass validation and meet the condition, each call ends as
the map says, each state reached streams to each pair in use what the map has of it, and
no call changes what is streamed of another pair. -/
theorem storage_is_a_map (pairs : Set Pair) (calls : List Call)
    (valid : ∀ call ∈ calls, Valid call.blob ∧ call.blob ∈ pairs) (all : AllMeet pairs calls) :
    (∀ before call rest, calls = before ++ call :: rest →
      answer (call.perform (after before)) = expected (recorded before) call) ∧
    (∀ before rest, calls = before ++ rest → ∀ bucket key, Valid (bucket, key) →
      (bucket, key) ∈ pairs →
      answer ((Call.get bucket key).perform (after before)) =
        expected (recorded before) (.get bucket key)) ∧
    ∀ before call rest, calls = before ++ call :: rest → ∀ bucket key, Valid (bucket, key) →
      (bucket, key) ∈ pairs → (bucket, key) ≠ call.blob →
      answer ((Call.get bucket key).perform (after (before ++ [call]))) =
        answer ((Call.get bucket key).perform (after before)) := by
  have reached : ∀ before rest, calls = before ++ rest →
      Represents pairs (after before) (recorded before) := by
    rintro before rest rfl
    exact run_represents (fun call member => valid call (by simp [member])) all.initial
  have streams : ∀ before rest, calls = before ++ rest → ∀ bucket key, Valid (bucket, key) →
      (bucket, key) ∈ pairs → answer ((Call.get bucket key).perform (after before)) =
        expected (recorded before) (.get bucket key) :=
    fun before rest split bucket key valid member =>
      (step_get (reached before rest split) valid member).1
  refine ⟨?_, streams, ?_⟩
  · intro before call rest split
    have named := valid call (by simp [split])
    exact (step_represents (reached before _ split) named.1 named.2 (all before call rest split)).1
  · intro before call rest split bucket key valid member other
    rw [streams before (call :: rest) split bucket key valid member,
      streams (before ++ [call]) rest (by simp [split]) bucket key valid member, recorded_append_one]
    have kept : record (recorded before) call (bucket, key) = recorded before (bucket, key) := by
      cases call with
      | put _ _ data _ => exact Function.update_of_ne other _ _
      | get _ _ => rfl
      | delete _ _ => exact Function.update_of_ne other _ _
    unfold expected
    dsimp only
    rw [kept]

def sampleCalls : List Call := [.put (str "a") (str "b") [1] none, .delete (str "a") (str "b")]

/-- A blob is stored, and deleted again. -/
theorem sample_calls_are_a_map :
    answer ((Call.delete (str "a") (str "b")).perform (after [.put (str "a") (str "b") [1] none])) =
      .ok .deleted := by
  have placed : Placed (str "a", str "b") [[97], [98]] := by decide
  have valid : ∀ call ∈ sampleCalls, Valid call.blob ∧
      call.blob ∈ ({blob | encodable blob.1 = true ∧ encodable blob.2 = true} : Set Pair) := by
    intro call member
    simp only [sampleCalls, List.mem_cons, List.not_mem_nil, or_false] at member
    rcases member with rfl | rfl
    · exact ⟨⟨_, placed⟩, encodable_str "a", encodable_str "b"⟩
    · exact ⟨⟨_, placed⟩, encodable_str "a", encodable_str "b"⟩
  have all : AllMeet {blob | encodable blob.1 = true ∧ encodable blob.2 = true} sampleCalls := by
    intro before call rest split
    cases before with
    | nil =>
      cases split
      exact ⟨by decide, by decide,
        own_of_scalars (by decide) (by decide) (encodable_str "a") (encodable_str "b")⟩
    | cons first before =>
      cases before with
      | nil =>
        cases split
        intro other path below there deep whole
        -- A path that is a part of this one is that of no pair.
        have two := placed_inj placed whole
        have short := congrArg List.length two
        rcases path_cases there with ⟨_, _, first, second, rfl⟩ | ⟨_, first, second, third, rest, rfl⟩
        · have below_nil : below = [] := by simpa using short
          exact absurd below_nil deep
        · simp at short
      | cons second before => simp [sampleCalls] at split
  exact (storage_is_a_map _ sampleCalls valid all).1 [.put (str "a") (str "b") [1] none]
    (.delete (str "a") (str "b")) [] rfl

/-- A pair whose path lies below a blob cannot be put. -/
theorem put_below_a_blob_raises :
    Valid (str "a", str "b") ∧ Valid (str "a/b", str "c") ∧
      answer ((Call.put (str "a/b") (str "c") [2] none).perform
        (after [.put (str "a") (str "b") [1] none])) = .error .fileExistsError :=
  ⟨⟨[[97], [98]], by decide⟩, ⟨[[97], [98], [99]], by decide⟩, by decide⟩

end Runs

/-! ## Other calls -/

section Sharing

variable {pairs : Set Pair} {bucket key : Str} {path : List Name}

/-- Joining segments with slashes. -/
def joined (names : List Str) : Str := [chr '/'].intercalate names

theorem segments_joined {names : List Str} (flat : ∀ name ∈ names, chr '/' ∉ name)
    (some : names ≠ []) : segments (joined names) = names :=
  List.splitOn_intercalate _ flat some

/-- The path of a nested pair is another pair's too. -/
theorem nested_path_is_shared (nested : ¬ (Flat bucket ∧ Flat key)) :
    ∃ other otherKey, (other, otherKey) ≠ (bucket, key) ∧
      segments other ++ segments otherKey = segments bucket ++ segments key := by
  have flat : ∀ name ∈ segments bucket ++ segments key, chr '/' ∉ name := by
    intro name member
    rcases List.mem_append.mp member with here | here
    · exact not_mem_of_mem_splitOn here
    · exact not_mem_of_mem_splitOn here
  rcases segments_cases bucket key with ⟨flat, flat', _⟩ | ⟨_, first, second, third, rest, path⟩
  · exact absurd ⟨flat, flat'⟩ nested
  rw [path] at flat
  -- Of the splits after the first and after the second name one is not the pair's own.
  have early : segments (joined [first]) = [first] :=
    segments_joined (fun name member => flat name (by simp_all)) (by simp)
  have early' : segments (joined (second :: third :: rest)) = second :: third :: rest :=
    segments_joined (fun name member => flat name (.tail _ member)) (by simp)
  have late : segments (joined [first, second]) = [first, second] :=
    segments_joined (fun name member => flat name (by simp_all; tauto)) (by simp)
  have late' : segments (joined (third :: rest)) = third :: rest :=
    segments_joined (fun name member => flat name (.tail _ (.tail _ member))) (by simp)
  by_cases own : joined [first] = bucket
  · refine ⟨joined [first, second], joined (third :: rest), ?_, ?_⟩
    · intro same
      have buckets := congrArg (fun pair => segments pair.1) same
      simp only [← own, early, late] at buckets
      simp at buckets
    · rw [late, late', path]
      rfl
  · refine ⟨joined [first], joined (second :: third :: rest), ?_, ?_⟩
    · exact fun same => own (congrArg Prod.fst same)
    · rw [early, early', path]
      rfl

/-- What a put stores for a pair it stores for every other pair with the same path. -/
theorem put_reaches_the_path {storage later : Storage} {data : Bytes} {contentType : Option String}
    {ref : BlobRef} {other : Pair} (placed : Placed (bucket, key) path) (shared : Placed other path)
    (stored : put bucket key data contentType storage = .ok ref later) :
    answer ((Call.get other.1 other.2).perform later) = .ok (.streamed data) := by
  rw [get_found shared (put_writes placed stored)]
  rfl

/-- A put of a nested pair that succeeds puts the same data for another pair. -/
theorem nested_put_reaches_another_pair (valid : Valid (bucket, key))
    (nested : ¬ (Flat bucket ∧ Flat key)) {storage later : Storage} {data : Bytes}
    {contentType : Option String} {ref : BlobRef}
    (stored : put bucket key data contentType storage = .ok ref later) :
    ∃ other otherKey, (other, otherKey) ≠ (bucket, key) ∧ Valid (other, otherKey) ∧
      answer ((Call.get other otherKey).perform later) = .ok (.streamed data) := by
  obtain ⟨other, otherKey, apart, same⟩ := nested_path_is_shared nested
  obtain ⟨path, placed⟩ := valid
  have shared : Placed (other, otherKey) path := by
    rw [placed_iff, same]
    exact placed_iff.mp placed
  exact ⟨other, otherKey, apart, ⟨path, shared⟩, put_reaches_the_path placed shared stored⟩

/-- And so does a put of a pair that has its bytes in common with another. -/
theorem confused_put_reaches_another_pair (confused : ¬ Own pairs (bucket, key))
    {storage later : Storage} {data : Bytes} {contentType : Option String} {ref : BlobRef}
    (stored : put bucket key data contentType storage = .ok ref later) :
    ∃ other ∈ pairs, other ≠ (bucket, key) ∧ Valid other ∧
      answer ((Call.get other.1 other.2).perform later) = .ok (.streamed data) := by
  simp only [Own, Classical.not_forall] at confused
  obtain ⟨other, member, path, placed, shared, apart⟩ := confused
  exact ⟨other, member, apart, ⟨path, shared⟩, put_reaches_the_path placed shared stored⟩

/-- A deletion that looks below a blob raises. -/
theorem delete_below_a_blob_raises {storage : Storage} {blobs : Blobs}
    (represents : Represents pairs storage blobs) (unmet : ¬ Meets pairs blobs (.delete bucket key)) :
    answer ((Call.delete bucket key).perform storage) = .error .notADirectoryError := by
  obtain ⟨⟨buckets, rfl, holds⟩, known⟩ := represents
  simp only [Meets, Classical.not_forall] at unmet
  obtain ⟨other, path, below, there, deep, placed, stored⟩ := unmet
  obtain ⟨data, found⟩ := Option.ne_none_iff_exists'.mp stored
  obtain ⟨flat, flat', -⟩ := known other.1 other.2 stored
  obtain ⟨first, second, -, -, rfl⟩ := placed_flat there flat flat'
  cases below with
  | nil => exact absurd rfl deep
  | cons next rest =>
    have fails : (tree buckets).unlink (first :: second :: next :: rest) = .error .notDirectory :=
      unlink_below_file ((holds first second data).mpr ⟨other, there, found⟩)
    rw [delete_fails placed fails]
    rfl

end Sharing

end BackendFoundation.BlobStorageProofs
