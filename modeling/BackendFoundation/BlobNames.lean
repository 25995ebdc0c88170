import BackendFoundation.PythonValues

/-! The names that `_validate_path` of `app/infrastructure/storage/local.py` lets through
before it looks at a file: both parts of a blob's name are screened, segment by segment. -/
namespace BackendFoundation.BlobNames
open PythonValues

/-- What the adapter raises. -/
inductive Error where
  | valueError (message : String)
  /-- The `ValueError` that begins with `Invalid path: `, for a path that the file system
  encoding does not have. -/
  | invalidPath (segments : List Str)
  | fileNotFoundError (message : Str)
  | fileExistsError
  | notADirectoryError
  | isADirectoryError
  deriving DecidableEq

def segments (value : Str) : List Str := value.splitOn (chr '/')

def checkSegment (partName : String) (segment : Str) : Except Error Unit :=
  if segment = str ".." then .error (.valueError (partName ++ " cannot contain '..' segments"))
  else if segment = str "." then .error (.valueError (partName ++ " cannot contain '.' segments"))
  else if segment = [] then .error (.valueError (partName ++ " cannot contain empty segments"))
  else .ok ()

/-- One round of the loop over the two parts. -/
def checkPart (partName : String) (value : Str) : Except Error Unit :=
  if value = [] then .error (.valueError (partName ++ " cannot be empty"))
  else if chr (Char.ofNat 0) ∈ value then
    .error (.valueError (partName ++ " cannot contain NUL bytes"))
  else if chr (Char.ofNat 92) ∈ value then
    .error (.valueError (partName ++ " cannot contain backslashes"))
  else if value.head? = some (chr '/') then
    .error (.valueError (partName ++ " cannot be an absolute path"))
  else if chr ':' ∈ value then
    .error (.valueError (partName ++ " contains forbidden character ':'"))
  else (segments value).forM (checkSegment partName)

/-- The loop over the two parts. -/
def screen (bucket key : Str) : Except Error Unit := do
  checkPart "bucket" bucket
  checkPart "key" key

/-! ## Screening -/

/-- What a segment has to be to name a place right below any directory. -/
structure SafeSegment (segment : Str) : Prop where
  ne_nil : segment ≠ []
  ne_dot : segment ≠ str "."
  ne_dots : segment ≠ str ".."
  slash : chr '/' ∉ segment
  nul : chr (Char.ofNat 0) ∉ segment
  backslash : chr (Char.ofNat 92) ∉ segment
  colon : chr ':' ∉ segment

instance (segment : Str) : Decidable (SafeSegment segment) :=
  decidable_of_iff
    (segment ≠ [] ∧ segment ≠ str "." ∧ segment ≠ str ".." ∧ chr '/' ∉ segment ∧
      chr (Char.ofNat 0) ∉ segment ∧ chr (Char.ofNat 92) ∉ segment ∧ chr ':' ∉ segment)
    ⟨fun ⟨filled, dot, dots, slash, nul, backslash, colon⟩ =>
      ⟨filled, dot, dots, slash, nul, backslash, colon⟩,
    fun ⟨filled, dot, dots, slash, nul, backslash, colon⟩ =>
      ⟨filled, dot, dots, slash, nul, backslash, colon⟩⟩

/-- The value is these segments with slashes between them. -/
structure SafeName (value : Str) (parts : List Str) : Prop where
  ne_nil : parts ≠ []
  joined : [chr '/'].intercalate parts = value
  safe : ∀ part ∈ parts, SafeSegment part

section Screening

variable {value : Str} {parts : List Str} {partName : String} {error : Error}

theorem SafeName.segments_eq (written : SafeName value parts) : segments value = parts := by
  rw [← written.joined]
  exact List.splitOn_intercalate _ (fun part member => (written.safe part member).slash)
    written.ne_nil

theorem safeName_segments (safe : ∀ part ∈ segments value, SafeSegment part) :
    SafeName value (segments value) :=
  ⟨List.splitOn_ne_nil _ _, List.intercalate_splitOn _, safe⟩

/-- What no segment may have in it the value may not. -/
theorem not_mem_of_segments {c : CodePoint} (other : c ≠ chr '/') :
    c ∉ value ↔ ∀ part ∈ segments value, c ∉ part := by
  rw [mem_splitOn other]
  simp only [segments, not_exists, not_and]

theorem forM_ok {α : Type} {check : α → Except Error Unit} {items : List α} :
    items.forM check = .ok () ↔ ∀ item ∈ items, check item = .ok () := by
  induction items with
  | nil => simp [pure, Except.pure]
  | cons item rest ih =>
    change (check item >>= fun _ => rest.forM check) = .ok () ↔ _
    cases first : check item with
    | error error => simp [first, bind, Except.bind]
    | ok _ =>
      change rest.forM check = .ok () ↔ _
      rw [ih]
      simp [first]

theorem checkSegment_ok {segment : Str} : checkSegment partName segment = .ok () ↔
    segment ≠ [] ∧ segment ≠ str "." ∧ segment ≠ str ".." := by
  unfold checkSegment
  split
  · simp [*]
  · split
    · simp [*]
    · split
      · simp [*]
      · simp [*]

/-- A slash in front would leave an empty segment before it. -/
theorem relative_of_safe (safe : ∀ segment ∈ segments value, SafeSegment segment) :
    value.head? ≠ some (chr '/') := by
  intro absolute
  obtain ⟨rest, rfl⟩ := List.head?_eq_some_iff.mp absolute
  refine (safe [] ?_).ne_nil rfl
  rw [segments, List.splitOn_cons_eq_if_modifyHead, if_pos (beq_self_eq_true _)]
  exact List.mem_cons_self

/-- A part passes when its segments are safe; its first and its last one are no exceptions. -/
theorem checkPart_ok : checkPart partName value = .ok () ↔
    ∀ segment ∈ segments value, SafeSegment segment := by
  have nul := @not_mem_of_segments value (chr (Char.ofNat 0)) (by decide)
  have backslash := @not_mem_of_segments value (chr (Char.ofNat 92)) (by decide)
  have colon := @not_mem_of_segments value (chr ':') (by decide)
  constructor
  · intro passed
    unfold checkPart at passed
    split at passed
    · cases passed
    split at passed
    · cases passed
    rename_i noNul
    split at passed
    · cases passed
    rename_i noBackslash
    split at passed
    · cases passed
    split at passed
    · cases passed
    rename_i noColon
    intro segment member
    have plain := checkSegment_ok.mp (forM_ok.mp passed segment member)
    exact ⟨plain.1, plain.2.1, plain.2.2, not_mem_of_mem_splitOn member,
      nul.mp noNul segment member, backslash.mp noBackslash segment member,
      colon.mp noColon segment member⟩
  · intro safe
    have nonempty : value ≠ [] := by
      rintro rfl
      exact (safe [] (by decide)).ne_nil rfl
    have relative := relative_of_safe safe
    unfold checkPart
    rw [if_neg nonempty, if_neg (nul.mpr fun part member => (safe part member).nul),
      if_neg (backslash.mpr fun part member => (safe part member).backslash), if_neg relative,
      if_neg (colon.mpr fun part member => (safe part member).colon)]
    exact forM_ok.mpr fun part member =>
      checkSegment_ok.mpr ⟨(safe part member).ne_nil, (safe part member).ne_dot,
        (safe part member).ne_dots⟩

theorem forM_error {α : Type} {check : α → Except Error Unit} {items : List α}
    (failed : items.forM check = .error error) : ∃ item ∈ items, check item = .error error := by
  induction items with
  | nil => cases failed
  | cons item rest ih =>
    change (check item >>= fun _ => rest.forM check) = .error error at failed
    cases first : check item with
    | error raised =>
      rw [first] at failed
      cases failed
      exact ⟨item, List.mem_cons_self, first⟩
    | ok _ =>
      rw [first] at failed
      obtain ⟨later, member, raised⟩ := ih failed
      exact ⟨later, List.mem_cons_of_mem _ member, raised⟩

theorem checkSegment_error {segment : Str} (failed : checkSegment partName segment = .error error) :
    ∃ message, error = .valueError (partName ++ message) := by
  unfold checkSegment at failed
  split at failed
  · cases failed
    exact ⟨_, rfl⟩
  split at failed
  · cases failed
    exact ⟨_, rfl⟩
  split at failed
  · cases failed
    exact ⟨_, rfl⟩
  cases failed

/-- A rejected part is named in the message. -/
theorem checkPart_error (failed : checkPart partName value = .error error) :
    ∃ message, error = .valueError (partName ++ message) := by
  unfold checkPart at failed
  split at failed
  · cases failed
    exact ⟨_, rfl⟩
  split at failed
  · cases failed
    exact ⟨_, rfl⟩
  split at failed
  · cases failed
    exact ⟨_, rfl⟩
  split at failed
  · cases failed
    exact ⟨_, rfl⟩
  split at failed
  · cases failed
    exact ⟨_, rfl⟩
  obtain ⟨segment, -, raised⟩ := forM_error failed
  exact checkSegment_error raised

/-- Both parts pass when the segments of both are safe. -/
theorem screen_segments {bucket key : Str} : screen bucket key = .ok () ↔
    (∀ segment ∈ segments bucket, SafeSegment segment) ∧
      ∀ segment ∈ segments key, SafeSegment segment := by
  rw [← @checkPart_ok bucket "bucket", ← @checkPart_ok key "key"]
  unfold screen
  cases checkPart "bucket" bucket with
  | error raised => simp [bind, Except.bind]
  | ok _ => simp [bind, Except.bind]

theorem screen_ok {bucket key : Str} : screen bucket key = .ok () ↔
    (∃ parts, SafeName bucket parts) ∧ ∃ parts, SafeName key parts := by
  have named : ∀ {value}, (∀ segment ∈ segments value, SafeSegment segment) ↔
      ∃ parts, SafeName value parts := by
    intro value
    constructor
    · exact fun safe => ⟨_, safeName_segments safe⟩
    · rintro ⟨parts, written⟩
      rw [written.segments_eq]
      exact written.safe
  rw [screen_segments, named, named]

theorem screen_error {bucket key : Str} (failed : screen bucket key = .error error) :
    ∃ message, error = .valueError ("bucket" ++ message) ∨ error = .valueError ("key" ++ message) := by
  unfold screen at failed
  cases first : checkPart "bucket" bucket with
  | error raised =>
    rw [first] at failed
    cases failed
    obtain ⟨message, rfl⟩ := checkPart_error first
    exact ⟨message, .inl rfl⟩
  | ok _ =>
    rw [first] at failed
    obtain ⟨message, rfl⟩ := checkPart_error failed
    exact ⟨message, .inr rfl⟩

end Screening

end BackendFoundation.BlobNames
