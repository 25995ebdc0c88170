import BackendFoundation.BlobStorage

/-! A stream that `LocalBlobStorage.get` has returned, while other coroutines put and
delete the same blob between its chunks. `write_bytes` rewrites the file that is there;
`unlink` leaves an open file to its readers, and the next put creates another. -/
namespace BackendFoundation.BlobStreams
open BlobStorage FileNames

/-- The files that have been at the blob's path, by their inodes, and the one that is. -/
structure Files where
  contents : List Bytes := []
  entry : Option ℕ := none
  created : ∀ inode ∈ entry, inode < contents.length := by simp

namespace Files

def read (files : Files) (inode : ℕ) : Bytes := (files.contents[inode]?).getD []

/-- The data of the blob. -/
def current (files : Files) : Option Bytes := files.entry.map files.read

def put (data : Bytes) (files : Files) : Files :=
  match entry : files.entry with
  | some inode =>
    { contents := files.contents.set inode data
      entry := some inode
      created := by simpa using files.created inode (by simp [entry]) }
  | none =>
    { contents := files.contents ++ [data]
      entry := some files.contents.length }

def delete (files : Files) : Files := { contents := files.contents }

end Files

/-- Where the generator is suspended; `failed` is the `FileNotFoundError` of `open`. -/
inductive Position where
  | unopened
  | reading (inode offset : ℕ)
  | finished
  | failed
  deriving DecidableEq

structure Stream where
  position : Position := .unopened
  chunks : List Bytes := []

structure State where
  files : Files
  stream : Stream := {}

def chunkSize : ℕ := 64 * 1024

/-- `f.read(64 * 1024)`. Nothing is read ahead: the size of a file object's buffer divides
that of a chunk. -/
def Files.chunk (files : Files) (inode offset : ℕ) : Bytes :=
  ((files.read inode).drop offset).take chunkSize

/-- One round of the loop. -/
def Stream.readChunk (files : Files) (inode offset : ℕ) (stream : Stream) : Stream :=
  if files.chunk inode offset = [] then { stream with position := .finished }
  else
    { position := .reading inode (offset + (files.chunk inode offset).length)
      chunks := stream.chunks ++ [files.chunk inode offset] }

/-- `__anext__`. -/
def Stream.next (files : Files) (stream : Stream) : Stream :=
  match stream.position with
  | .unopened =>
    match files.entry with
    | some inode => stream.readChunk files inode 0
    | none => { stream with position := .failed }
  | .reading inode offset => stream.readChunk files inode offset
  | .finished => stream
  | .failed => stream

inductive Event where
  | put (data : Bytes)
  | delete
  | next

def State.step (state : State) : Event → State
  | .put data => { state with files := state.files.put data }
  | .delete => { state with files := state.files.delete }
  | .next => { state with stream := state.stream.next state.files }

def run (state : State) (events : List Event) : State := events.foldl State.step state

/-! ## What a stream should be -/

/-- The stream is between its first read and its last when this happens. -/
def State.reads (state : State) (event : Event) : Bool :=
  match state.stream.position, event with
  | .unopened, .next => true
  | .reading _ _, _ => true
  | _, _ => false

/-- The states between the first and the last read. -/
def moments (state : State) : List Event → List State
  | [] => []
  | event :: rest => (if state.reads event then [state] else []) ++ moments (state.step event) rest

structure Snapshot (start : State) (events : List Event) : Prop where
  chunks : ∀ chunk ∈ (run start events).stream.chunks, chunk ≠ [] ∧ chunk.length ≤ chunkSize
  whole : (run start events).stream.position = .finished → ∃ moment ∈ moments start events,
    moment.files.current = some (run start events).stream.chunks.flatten

/-- The event does not rewrite the file that is being read, or the new data begin with what
has been streamed, or they end with what has not been. -/
def Harmless (state : State) : Event → Prop
  | .put data => ∀ inode offset, state.stream.position = .reading inode offset →
      state.files.entry = some inode →
      state.stream.chunks.flatten <+: data ∨ data.drop offset = (state.files.read inode).drop offset
  | _ => True

/-- Every event of the run is harmless where it happens. -/
def HarmlessRun (state : State) : List Event → Prop
  | [] => True
  | event :: rest => Harmless state event ∧ HarmlessRun (state.step event) rest

/-! ## Files -/

section Files

variable {files : Files} {data : Bytes} {inode : ℕ}

theorem put_current : (files.put data).current = some data := by
  unfold Files.put Files.current Files.read
  split
  · rename_i inode entry
    simp [List.getElem?_set_self (files.created inode (by simp [entry]))]
  · simp

theorem put_rewrites (data : Bytes) (entry : files.entry = some inode) :
    (files.put data).entry = some inode ∧ (files.put data).read inode = data := by
  have bound := files.created inode (by simp [entry])
  unfold Files.put Files.read
  split
  · rename_i own same
    obtain rfl : own = inode := Option.some.inj (same.symm.trans entry)
    simp [List.getElem?_set_self bound]
  · rename_i absent
    cases absent.symm.trans entry

theorem put_length : files.contents.length ≤ (files.put data).contents.length := by
  unfold Files.put
  split <;> simp

/-- A put leaves every file but the one at the path as it is. -/
theorem put_spares (created : inode < files.contents.length) (other : files.entry ≠ some inode) :
    (files.put data).read inode = files.read inode := by
  unfold Files.put Files.read
  split
  · rename_i own entry
    have apart : own ≠ inode := fun same => other (same ▸ entry)
    simp [List.getElem?_set_ne apart]
  · simp [List.getElem?_append_left created]

end Files

/-! ## What a stream follows -/

/-- What the stream has yielded, and will yield if nothing rewrites its file, is what the
blob was at one of these moments or is now. -/
inductive Follows (past : List State) (state : State) : Prop where
  | unopened (position : state.stream.position = .unopened) (fresh : state.stream.chunks = [])
  | reading (inode offset : ℕ) (position : state.stream.position = .reading inode offset)
      (created : inode < state.files.contents.length)
      (streamed : state.stream.chunks.flatten.length = offset)
      (moment : State) (member : moment ∈ past ++ [state])
      (whole : moment.files.current =
        some (state.stream.chunks.flatten ++ (state.files.read inode).drop offset))
  | finished (position : state.stream.position = .finished) (moment : State)
      (member : moment ∈ past) (whole : moment.files.current = some state.stream.chunks.flatten)
  | failed (position : state.stream.position = .failed)

section Steps

variable {past : List State} {state : State} {files : Files} {stream : Stream}
variable {inode offset : ℕ} {data : Bytes}

theorem chunk_append : files.chunk inode offset ++
    (files.read inode).drop (offset + (files.chunk inode offset).length) =
      (files.read inode).drop offset := by
  unfold Files.chunk
  rw [← List.drop_drop, List.length_take]
  by_cases long : chunkSize ≤ ((files.read inode).drop offset).length
  · rw [Nat.min_eq_left long, List.take_append_drop]
  · have short := Nat.le_of_not_le long
    rw [Nat.min_eq_right short, List.drop_length, List.append_nil, List.take_of_length_le short]

theorem drop_of_no_chunk (exhausted : files.chunk inode offset = []) :
    (files.read inode).drop offset = [] := by
  simpa [Files.chunk, chunkSize, List.take_eq_nil_iff] using exhausted

theorem readChunk_follows (created : inode < files.contents.length)
    (streamed : stream.chunks.flatten.length = offset) {moment : State} (member : moment ∈ past)
    (whole : moment.files.current =
      some (stream.chunks.flatten ++ (files.read inode).drop offset)) :
    Follows past ⟨files, stream.readChunk files inode offset⟩ := by
  unfold Stream.readChunk
  split
  · rename_i exhausted
    refine .finished rfl moment member ?_
    rw [whole, drop_of_no_chunk exhausted, List.append_nil]
  · refine .reading inode _ rfl created ?_ moment (List.mem_append_left _ member) ?_
    · simp [streamed]
    · rw [whole, ← chunk_append]
      simp

theorem next_follows (follows : Follows past state) :
    Follows (past ++ if state.reads .next then [state] else []) (state.step .next) := by
  cases follows with
  | unopened position fresh =>
    simp only [State.step, State.reads, Stream.next, position, if_true]
    cases entry : state.files.entry with
    | none => exact .failed rfl
    | some inode =>
      refine readChunk_follows (state.files.created inode (by simp [entry])) (by simp [fresh])
        (List.mem_append_right _ List.mem_cons_self) ?_
      simp [Files.current, entry, fresh]
  | reading inode offset position created streamed moment member whole =>
    simp only [State.step, State.reads, Stream.next, position, if_true]
    exact readChunk_follows created streamed member whole
  | finished position moment member whole =>
    simp only [State.step, State.reads, Stream.next, position]
    exact .finished position moment (List.mem_append_left _ member) whole
  | failed position =>
    simp only [State.step, State.reads, Stream.next, position]
    exact .failed position

theorem put_follows (follows : Follows past state) (harmless : Harmless state (.put data)) :
    Follows (past ++ if state.reads (.put data) then [state] else []) (state.step (.put data)) := by
  cases follows with
  | unopened position fresh => exact .unopened position fresh
  | reading inode offset position created streamed moment member whole =>
    simp only [State.reads, position, if_true]
    have created' : inode < (state.files.put data).contents.length :=
      Nat.lt_of_lt_of_le created put_length
    by_cases entry : state.files.entry = some inode
    · have rewritten := (put_rewrites data entry).2
      rcases harmless inode offset position entry with begins | ends
      · refine .reading inode offset position created' streamed (state.step (.put data))
          (List.mem_append_right _ List.mem_cons_self) ?_
        obtain ⟨rest, rfl⟩ := begins
        have tail : (state.stream.chunks.flatten ++ rest).drop offset = rest := by
          rw [← streamed, List.drop_left]
        simp only [State.step, rewritten, tail]
        exact put_current
      · refine .reading inode offset position created' streamed moment
          (List.mem_append_left _ member) ?_
        simp only [State.step, rewritten, ends]
        exact whole
    · refine .reading inode offset position created' streamed moment
        (List.mem_append_left _ member) ?_
      simp only [State.step, put_spares created entry]
      exact whole
  | finished position moment member whole =>
    exact .finished position moment (List.mem_append_left _ member) whole
  | failed position => exact .failed position

theorem delete_follows (follows : Follows past state) :
    Follows (past ++ if state.reads .delete then [state] else []) (state.step .delete) := by
  cases follows with
  | unopened position fresh => exact .unopened position fresh
  | reading inode offset position created streamed moment member whole =>
    simp only [State.reads, position, if_true]
    exact .reading inode offset position created streamed moment (List.mem_append_left _ member)
      whole
  | finished position moment member whole =>
    exact .finished position moment (List.mem_append_left _ member) whole
  | failed position => exact .failed position

theorem step_follows {event : Event} (follows : Follows past state)
    (harmless : Harmless state event) :
    Follows (past ++ if state.reads event then [state] else []) (state.step event) := by
  cases event with
  | put data => exact put_follows follows harmless
  | delete => exact delete_follows follows
  | next => exact next_follows follows

theorem run_follows {events : List Event} (follows : Follows past state)
    (harmless : HarmlessRun state events) :
    Follows (past ++ moments state events) (run state events) := by
  induction events generalizing past state with
  | nil => simpa [moments, run] using follows
  | cons event rest ih =>
    have later := ih (step_follows follows harmless.1) harmless.2
    simpa [moments, run, List.append_assoc] using later

/-- Chunks as the loop yields them. -/
def Chunked (stream : Stream) : Prop :=
  ∀ chunk ∈ stream.chunks, chunk ≠ [] ∧ chunk.length ≤ chunkSize

theorem readChunk_chunked (chunked : Chunked stream) :
    Chunked (stream.readChunk files inode offset) := by
  unfold Stream.readChunk
  split
  · exact chunked
  · rename_i more
    intro chunk member
    rcases List.mem_append.mp member with old | new
    · exact chunked chunk old
    · obtain rfl := List.mem_singleton.mp new
      exact ⟨more, List.length_take_le _ _⟩

theorem step_chunked {event : Event} (chunked : Chunked state.stream) :
    Chunked (state.step event).stream := by
  cases event with
  | put data => exact chunked
  | delete => exact chunked
  | next =>
    simp only [State.step, Stream.next]
    split
    · split
      · exact readChunk_chunked chunked
      · exact chunked
    · exact readChunk_chunked chunked
    · exact chunked
    · exact chunked

theorem run_chunked {events : List Event} (chunked : Chunked state.stream) :
    Chunked (run state events).stream := by
  induction events generalizing state with
  | nil => exact chunked
  | cons event rest ih => exact ih (step_chunked chunked)

/-- **A stream is a snapshot**, if every put that rewrites its file fits what has been
streamed or what has not. -/
theorem stream_is_snapshot (files : Files) (events : List Event)
    (harmless : HarmlessRun { files } events) : Snapshot { files } events where
  chunks := run_chunked fun _ never => absurd never List.not_mem_nil
  whole finished := by
    have follows : Follows ([] ++ moments { files } events) (run { files } events) :=
      run_follows (.unopened rfl rfl) harmless
    rw [List.nil_append] at follows
    cases follows with
    | unopened position => cases position.symm.trans finished
    | reading _ _ position => cases position.symm.trans finished
    | failed position => cases position.symm.trans finished
    | finished _ moment member whole => exact ⟨moment, member, whole⟩

end Steps

/-! ## Exactness, and a stream that nothing disturbs -/

/-- What the stream will have yielded in the end, if nothing rewrites its file. -/
def State.promise (state : State) : Bytes :=
  match state.stream.position with
  | .reading inode offset =>
    state.stream.chunks.flatten ++ (state.files.read inode).drop offset
  | _ => state.stream.chunks.flatten

/-- A rewrite of the open file makes a stream of its own data, or leaves it one of the data
before, in the harmless cases only. -/
theorem rewrite_keeps_iff {state : State} {inode : ℕ} {data : Bytes}
    (position : state.stream.position = .reading inode state.stream.chunks.flatten.length)
    (entry : state.files.entry = some inode) :
    (state.step (.put data)).promise ∈ [data, state.promise] ↔ Harmless state (.put data) := by
  have after : (state.step (.put data)).promise = state.stream.chunks.flatten ++
      data.drop state.stream.chunks.flatten.length := by
    simp only [State.promise, State.step, position, (put_rewrites data entry).2]
  have harmless_iff : Harmless state (.put data) ↔ state.stream.chunks.flatten <+: data ∨
      data.drop state.stream.chunks.flatten.length =
        (state.files.read inode).drop state.stream.chunks.flatten.length := by
    simp [Harmless, position, entry]
  have begins : state.stream.chunks.flatten ++ data.drop state.stream.chunks.flatten.length = data ↔
      state.stream.chunks.flatten <+: data := by
    constructor
    · exact fun whole => ⟨_, whole⟩
    · rintro ⟨rest, rfl⟩
      rw [List.drop_left]
  have before : state.promise = state.stream.chunks.flatten ++
      (state.files.read inode).drop state.stream.chunks.flatten.length := by
    simp only [State.promise, position]
  rw [harmless_iff, after, before, List.mem_pair, begins, List.append_cancel_left_eq]

theorem run_finished {n : ℕ} {state : State} (position : state.stream.position = .finished) :
    (run state (List.replicate n .next)).stream = state.stream := by
  induction n generalizing state with
  | zero => rfl
  | succ n ih =>
    have stays : (state.step .next).stream = state.stream := by
      simp only [State.step, Stream.next, position]
    rw [← stays]
    exact ih (by rw [stays, position])

theorem drop_chunk {files : Files} {inode offset : ℕ} :
    (files.read inode).drop (offset + (files.chunk inode offset).length) =
      ((files.read inode).drop offset).drop chunkSize := by
  rw [← List.drop_drop]
  unfold Files.chunk
  by_cases long : chunkSize ≤ ((files.read inode).drop offset).length
  · rw [List.length_take, Nat.min_eq_left long]
  · have short := Nat.le_of_not_le long
    rw [List.take_of_length_le short, List.drop_length, List.drop_eq_nil_of_le short]

/-- A stream that nothing disturbs yields the chunks of its file. -/
theorem reads_chunks {n : ℕ} {state : State} {inode offset : ℕ}
    (position : state.stream.position = .reading inode offset)
    (enough : ((state.files.read inode).drop offset).length < n) :
    (run state (List.replicate n .next)).stream =
      ⟨.finished, state.stream.chunks ++
        LocalBlobStorage.chunks ((state.files.read inode).drop offset)⟩ := by
  induction n generalizing state offset with
  | zero => exact absurd enough (Nat.not_lt_zero _)
  | succ n ih =>
    have first : (state.step .next) =
        { state with stream := state.stream.readChunk state.files inode offset } := by
      simp only [State.step, Stream.next, position]
    have rest : run state (List.replicate (n + 1) .next) =
        run (state.step .next) (List.replicate n .next) := rfl
    rw [rest, first, LocalBlobStorage.chunks]
    unfold Stream.readChunk
    by_cases exhausted : state.files.chunk inode offset = []
    · rw [if_pos exhausted, if_pos (drop_of_no_chunk exhausted), List.append_nil]
      exact run_finished rfl
    · have more : (state.files.read inode).drop offset ≠ [] := by
        intro none
        exact exhausted (by rw [Files.chunk, none, List.take_nil])
      have shorter : ((state.files.read inode).drop
          (offset + (state.files.chunk inode offset).length)).length < n := by
        have some_chunk := List.length_pos_of_ne_nil exhausted
        have some_rest := List.length_pos_of_ne_nil more
        rw [← List.drop_drop, List.length_drop]
        omega
      have later := @ih ⟨state.files, ⟨.reading inode (offset + (state.files.chunk inode offset).length),
        state.stream.chunks ++ [state.files.chunk inode offset]⟩⟩ _ rfl shorter
      rw [if_neg exhausted, if_neg more, later, drop_chunk]
      simp [Files.chunk, chunkSize]

theorem stream_alone {files : Files} {data : Bytes} (current : files.current = some data) {n : ℕ}
    (enough : data.length < n) : (run { files } (List.replicate n .next)).stream =
      ⟨.finished, LocalBlobStorage.chunks data⟩ := by
  obtain ⟨inode, entry, rfl⟩ := Option.map_eq_some_iff.mp current
  obtain ⟨n, rfl⟩ := Nat.exists_eq_succ_of_ne_zero (Nat.ne_zero_of_lt enough)
  have opened : State.step { files } .next =
      State.step ⟨files, ⟨.reading inode 0, []⟩⟩ .next := by
    simp only [State.step, Stream.next, entry, Stream.readChunk]
  have run_opened : run { files } (List.replicate (n + 1) .next) =
      run ⟨files, ⟨.reading inode 0, []⟩⟩ (List.replicate (n + 1) .next) := by
    change run (State.step { files } .next) _ = run (State.step _ .next) _
    rw [opened]
  have whole := @reads_chunks (n + 1) ⟨files, ⟨.reading inode 0, []⟩⟩ inode 0 rfl (by simpa using enough)
  simpa [run_opened] using whole

/-! ## Rewrites -/

/-- The first chunk of a blob of one byte more. -/
def head (byte : UInt8) : Bytes := List.replicate chunkSize byte

theorem head_length (byte : UInt8) : (head byte).length = chunkSize := List.length_replicate

def blob (byte : UInt8) : Bytes := head byte ++ [byte]

def stored (data : Bytes) : Files := { contents := [data], entry := some 0 }

/-- The state in which the first chunk has been yielded. -/
def halfway (byte : UInt8) : State := ⟨stored (blob byte), ⟨.reading 0 chunkSize, [head byte]⟩⟩

theorem first_chunk (byte : UInt8) :
    State.step { files := stored (blob byte) } .next = halfway byte := by
  have chunk : (stored (blob byte)).chunk 0 0 = head byte := List.take_left' (head_length byte)
  have some_chunk : head byte ≠ [] := by
    apply List.ne_nil_of_length_pos
    rw [head_length]
    decide
  change State.mk _ (Stream.readChunk _ _ _ _) = _
  rw [Stream.readChunk, chunk, if_neg some_chunk, head_length, Nat.zero_add]
  rfl

theorem append_is_snapshot : Snapshot { files := stored (blob 0) }
    [.next, .put (blob 0 ++ [1]), .delete, .next, .next] := by
  refine stream_is_snapshot (stored (blob 0)) _ ⟨trivial, ?_, trivial, trivial, trivial, trivial⟩
  rw [first_chunk]
  intro _ _ _ _
  have streamed : (halfway 0).stream.chunks.flatten = head 0 := List.append_nil _
  rw [streamed, blob, List.append_assoc]
  exact .inl (List.prefix_append _ _)

/-- The state in which the blob has been written anew after its first chunk, and has so
many bytes more been read. -/
def torn (more : ℕ) (chunks : List Bytes) : State :=
  ⟨stored (blob 1), ⟨.reading 0 (chunkSize + more), head 0 :: chunks⟩⟩

theorem torn_next : (torn 0 []).step .next = torn 1 [[1]] := by
  have last : (torn 0 []).files.chunk 0 (chunkSize + 0) = [1] := by
    have tail : (blob 1).drop chunkSize = [1] := List.drop_left' (head_length 1)
    change ((blob 1).drop chunkSize).take chunkSize = [1]
    rw [tail]
    rfl
  change State.mk _ (Stream.readChunk _ _ _ _) = _
  rw [Stream.readChunk, last, if_neg (List.cons_ne_nil _ _)]
  rfl

theorem torn_end : (torn 1 [[1]]).step .next =
    ⟨stored (blob 1), ⟨.finished, [head 0, [1]]⟩⟩ := by
  have length : (blob 1).length = chunkSize + 1 := by
    rw [blob, List.length_append, head_length, List.length_singleton]
  have none : (torn 1 [[1]]).files.chunk 0 (chunkSize + 1) = [] := by
    change ((blob 1).drop (chunkSize + 1)).take chunkSize = []
    rw [List.drop_eq_nil_of_le (Nat.le_of_eq length), List.take_nil]
  change State.mk _ (Stream.readChunk _ _ _ _) = _
  rw [Stream.readChunk, none, if_pos rfl]
  rfl

/-- The stream of a blob that is written anew between its chunks. -/
def rewrite : List Event := [.next, .put (blob 1), .next, .next]

/-- It yields the first chunk of the one and the last byte of the other. -/
theorem rewritten_is_torn : ¬ Snapshot { files := stored (blob 0) } rewrite := by
  have put : (halfway 0).step (.put (blob 1)) = torn 0 [] := rfl
  have ran : run { files := stored (blob 0) } rewrite =
      ⟨stored (blob 1), ⟨.finished, [head 0, [1]]⟩⟩ := by
    simp only [run, rewrite, List.foldl_cons, List.foldl_nil, first_chunk, put, torn_next, torn_end]
  have passed : moments { files := stored (blob 0) } rewrite =
      [{ files := stored (blob 0) }, halfway 0, torn 0 [], torn 1 [[1]]] := by
    simp only [rewrite, moments, first_chunk, put, torn_next]
    rfl
  intro snapshot
  have whole := snapshot.whole
  rw [ran, passed] at whole
  obtain ⟨moment, member, same⟩ := whole rfl
  have mixed : moment.files.current = some (blob 0) ∨ moment.files.current = some (blob 1) := by
    simp only [List.mem_cons, List.not_mem_nil, or_false] at member
    rcases member with rfl | rfl | rfl | rfl
    exacts [.inl rfl, .inl rfl, .inr rfl, .inr rfl]
  have first : (head 0 ++ [1] : Bytes) ≠ blob 0 := by
    intro equal
    exact absurd (List.append_cancel_left equal) (by decide)
  have second : (head 0 ++ [1] : Bytes) ≠ blob 1 := by
    intro equal
    have heads : head 0 = head 1 := List.append_cancel_right equal
    rcases (List.replicate_inj.mp heads).2 with empty | bytes
    · exact absurd empty (by decide)
    · exact absurd bytes (by decide)
  rcases mixed with was | was
  · exact first (Option.some.inj (same.symm.trans was))
  · exact second (Option.some.inj (same.symm.trans was))

end BackendFoundation.BlobStreams
