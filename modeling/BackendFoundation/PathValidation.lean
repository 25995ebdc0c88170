import BackendFoundation.BlobStorageProofs
import BackendFoundation.SymbolicLinks

/-! `LocalBlobStorage._validate_path` of `app/infrastructure/storage/local.py` for every
string and for files with symbolic links. The segments of both names are screened first;
then the path they make is resolved through the links and has to end below the base. -/
namespace BackendFoundation.PathValidation
open PythonValues BlobNames FileNames SymbolicLinks

/-! ## `pathlib` on POSIX -/

/-- A name in a directory. -/
structure Name where
  text : Str
  ne_nil : text ≠ []
  ne_dot : text ≠ str "."
  ne_dots : text ≠ str ".."
  flat : chr '/' ∉ text
  deriving DecidableEq

/-- What a part between two slashes asks for. -/
def step (part : Str) (flat : chr '/' ∉ part) : Step Name :=
  if none : part = [] then .stay
  else if dot : part = str "." then .stay
  else if dots : part = str ".." then .up
  else .down ⟨part, none, dot, dots, flat⟩

def parse (value : Str) : PurePath Name where
  absolute := value.head? == some (chr '/')
  steps := (segments value).pmap step fun _ => not_mem_of_mem_splitOn

abbrev Tree := Files Name Bytes

/-- How the host writes paths as bytes, and the exception for a path it cannot write. -/
structure Platform where
  encodes : CodePoint → Bool
  ascii : ∀ c : CodePoint, c.val < 128 → encodes c = true
  reason : List Name → String

namespace Platform

/-- A path that ends in this name can be passed to `lstat`. -/
def readable (platform : Platform) (name : Name) : Bool :=
  name.text.all fun c => platform.encodes c && c != chr (Char.ofNat 0)

def Encodes (platform : Platform) (value : Str) : Prop :=
  ∀ c ∈ value, platform.encodes c = true

/-- UTF-8 with the bytes that are no UTF-8 as lone surrogates. -/
def utf8 (reason : List Name → String) : Platform where
  encodes c := c.val < 0xD800 || (0xDC80 ≤ c.val && c.val ≤ 0xDCFF) || 0xDFFF < c.val
  ascii c low := by
    have below : c.val < 0xD800 := Nat.lt_trans low (by decide)
    simp [below]
  reason := reason

theorem encodes_str (reason : List Name → String) (value : String) :
    (utf8 reason).Encodes (str value) := by
  intro c member
  have whole := List.all_eq_true.mp (encodable_str value) c member
  simp only [utf8, Bool.or_eq_true] at whole ⊢
  exact whole.elim (fun low => .inl (.inl low)) .inr

/-- The path of names that have been read. -/
structure Resolved (platform : Platform) where
  names : List Name
  readable : ∀ name ∈ names, platform.readable name = true

structure Host (platform : Platform) where
  tree : Tree
  getcwd : Resolved platform

end Platform

open Platform (utf8 encodes_str)

variable {platform : Platform}

def asPath (path : platform.Resolved) : PurePath Name where
  absolute := true
  steps := path.names.map .down

/-- `path.resolve()`, or the text of the exception it raises. -/
def resolve (path : PurePath Name) (host : platform.Host) :
    Except String platform.Resolved :=
  match ends : realpath platform.readable host.tree host.getcwd.names path with
  | .ok names => .ok ⟨names, realpath_readable host.getcwd.readable ends⟩
  | .error unread => .error (platform.reason unread)

/-! ## `LocalBlobStorage` -/

abbrev Disk (platform : Platform) := EStateM Error platform.Host

def outside : Error := .valueError "Path traversal detected: resolved path is outside base_path"

/-- The base path has been resolved by `__init__`. -/
structure LocalBlobStorage (platform : Platform) where
  basePath : platform.Resolved

namespace LocalBlobStorage

/-- `_validate_path`. -/
def validatePath (storage : LocalBlobStorage platform) (bucket key : Str) :
    Disk platform platform.Resolved := do
  match screen bucket key with
  | .error error => throw error
  | .ok _ =>
    match resolve (((asPath storage.basePath).join (parse bucket)).join (parse key)) (← get) with
    | .error reason => throw (.valueError ("Invalid path: " ++ reason))
    | .ok fullPath =>
      if storage.basePath.names <+: fullPath.names then return fullPath else throw outside

end LocalBlobStorage

/-! ## Resolving -/

section Resolving

variable {value : Str} {parts : List Str} {host : platform.Host}

/-- Joined to a path, a safe name adds its segments and nothing else. -/
theorem parse_safe (written : SafeName value parts) : ∃ names : List Name,
    names.map Name.text = parts ∧
      parse value = { absolute := false, steps := names.map .down } := by
  refine ⟨parts.pmap (fun part safe => ⟨part, safe.ne_nil, safe.ne_dot, safe.ne_dots, safe.slash⟩)
    written.safe, ?_, ?_⟩
  · rw [List.map_pmap]
    exact List.pmap_eq_map _ |>.trans (List.map_id _)
  · have relative : (value.head? == some (chr '/')) = false := by
      rw [beq_eq_false_iff_ne]
      refine relative_of_safe ?_
      rw [written.segments_eq]
      exact written.safe
    have same := written.segments_eq
    subst same
    unfold parse
    rw [relative, List.map_pmap]
    refine congrArg (PurePath.mk false) (List.pmap_congr_left _ fun part _ flat safe => ?_)
    unfold step
    rw [dif_neg safe.ne_nil, dif_neg safe.ne_dot, dif_neg safe.ne_dots]

/-- The file system encoding has all characters of a safe name if it has those of its
segments. -/
theorem readable_safe (written : SafeName value parts) {names : List Name}
    (named : names.map Name.text = parts) :
    (∀ name ∈ names, platform.readable name = true) ↔ platform.Encodes value := by
  subst named
  constructor
  · intro asked c member
    by_cases slash : c = chr '/'
    · subst slash
      exact platform.ascii _ (by decide)
    · obtain ⟨part, inside, member⟩ := (mem_splitOn slash).mp member
      have among : part ∈ names.map Name.text := by
        rw [← written.segments_eq]
        exact inside
      obtain ⟨name, there, rfl⟩ := List.mem_map.mp among
      have whole := List.all_eq_true.mp (asked name there) c member
      exact (Bool.and_eq_true_iff.mp whole).1
  · intro encoded name there
    have safe := written.safe name.text (List.mem_map_of_mem there)
    refine List.all_eq_true.mpr fun c member => Bool.and_eq_true_iff.mpr ⟨encoded c ?_, ?_⟩
    · have slash : c ≠ chr '/' := fun same => safe.slash (same ▸ member)
      refine (mem_splitOn slash).mpr ⟨name.text, ?_, member⟩
      have inside : name.text ∈ segments value := by
        rw [written.segments_eq]
        exact List.mem_map_of_mem there
      exact inside
    · exact bne_iff_ne.mpr fun same => safe.nul (same ▸ member)

theorem resolve_ok {path : PurePath Name} {names : List Name}
    (ends : realpath platform.readable host.tree host.getcwd.names path = .ok names) :
    ∃ full, resolve path host = .ok full ∧ full.names = names := by
  unfold resolve
  split
  · rename_i found same
    rw [ends] at same
    cases same
    exact ⟨_, rfl, rfl⟩
  · rename_i same
    rw [ends] at same
    cases same

theorem resolve_error {path : PurePath Name} {unread : List Name}
    (ends : realpath platform.readable host.tree host.getcwd.names path = .error unread) :
    resolve path host = .error (platform.reason unread) := by
  unfold resolve
  split
  · rename_i same
    rw [ends] at same
    cases same
  · rename_i same
    rw [ends] at same
    cases same
    rfl

/-- Without links on the way to it or below, a path down from a place is its own canonical
path. -/
theorem realpath_downs {base below : List Name} (free : host.tree.Unlinked base)
    (asked : ∀ name ∈ base ++ below, platform.readable name = true) :
    realpath platform.readable host.tree host.getcwd.names
      { absolute := true, steps := (base ++ below).map .down } = .ok (base ++ below) := by
  unfold realpath
  rw [List.map_map]
  exact walk_downs (fun _ on => free.not_link on) asked

theorem realpath_downs_error {base below : List Name} (free : host.tree.Unlinked base)
    {unread : Name} (there : unread ∈ below) (unasked : platform.readable unread = false) :
    ∃ failed, realpath platform.readable host.tree host.getcwd.names
      { absolute := true, steps := (base ++ below).map .down } = .error failed := by
  unfold realpath
  rw [List.map_map]
  exact walk_downs_error (fun _ on => free.not_link on) (List.mem_append_right base there) unasked

end Resolving

/-! ## `_validate_path` -/

section Validation

variable {storage : LocalBlobStorage platform} {bucket key : Str} {host after : platform.Host}
  {path : platform.Resolved} {bucketParts keyParts : List Str} {error : Error}

/-- The three ways in which validation ends after the screening. -/
theorem validatePath_screened (screened : screen bucket key = .ok ()) :
    storage.validatePath bucket key host =
      match resolve (((asPath storage.basePath).join (parse bucket)).join (parse key)) host with
      | .error reason => .error (.valueError ("Invalid path: " ++ reason)) host
      | .ok fullPath =>
        if storage.basePath.names <+: fullPath.names then .ok fullPath host
        else .error outside host := by
  unfold LocalBlobStorage.validatePath
  rw [screened]
  change (match resolve (((asPath storage.basePath).join (parse bucket)).join (parse key)) host with
    | .error reason => throw (.valueError ("Invalid path: " ++ reason))
    | .ok fullPath =>
      if storage.basePath.names <+: fullPath.names then return fullPath else throw outside :
        Disk platform platform.Resolved) host = _
  cases resolve (((asPath storage.basePath).join (parse bucket)).join (parse key)) host with
  | error reason => rfl
  | ok fullPath =>
    dsimp only
    split
    · rfl
    · rfl

theorem validatePath_rejected (failed : screen bucket key = .error error) :
    storage.validatePath bucket key host = .error error host := by
  unfold LocalBlobStorage.validatePath
  rw [failed]
  rfl

/-- The path of safe names, before it is resolved. -/
theorem joined_safe (bucketSafe : SafeName bucket bucketParts) (keySafe : SafeName key keyParts) :
    ∃ bucketNames keyNames : List Name,
      bucketNames.map Name.text = bucketParts ∧ keyNames.map Name.text = keyParts ∧
        ((asPath storage.basePath).join (parse bucket)).join (parse key) =
          { absolute := true, steps := (storage.basePath.names ++ (bucketNames ++ keyNames)).map .down } := by
  obtain ⟨bucketNames, bucketText, bucketParsed⟩ := parse_safe bucketSafe
  obtain ⟨keyNames, keyText, keyParsed⟩ := parse_safe keySafe
  refine ⟨bucketNames, keyNames, bucketText, keyText, ?_⟩
  rw [bucketParsed, keyParsed]
  simp [PurePath.join, asPath]

/-- Without links safe names are placed where they are written. -/
theorem validatePath_safe (free : host.tree.Unlinked storage.basePath.names)
    (bucketSafe : SafeName bucket bucketParts) (keySafe : SafeName key keyParts)
    (bucketEncoded : platform.Encodes bucket) (keyEncoded : platform.Encodes key) :
    ∃ path, storage.validatePath bucket key host = .ok path host ∧
      path.names.map Name.text =
        storage.basePath.names.map Name.text ++ bucketParts ++ keyParts := by
  obtain ⟨bucketNames, keyNames, bucketText, keyText, joined⟩ :=
    @joined_safe _ storage _ _ _ _ bucketSafe keySafe
  have asked : ∀ name ∈ storage.basePath.names ++ (bucketNames ++ keyNames),
      platform.readable name = true := by
    intro name member
    rcases List.mem_append.mp member with above | below
    · exact storage.basePath.readable name above
    · rcases List.mem_append.mp below with inBucket | inKey
      · exact (readable_safe bucketSafe bucketText).mpr bucketEncoded name inBucket
      · exact (readable_safe keySafe keyText).mpr keyEncoded name inKey
  obtain ⟨full, resolved, names⟩ := resolve_ok (realpath_downs free asked)
  refine ⟨full, ?_, ?_⟩
  · rw [validatePath_screened (screen_ok.mpr ⟨⟨_, bucketSafe⟩, _, keySafe⟩), joined, resolved]
    exact if_pos (names ▸ List.prefix_append _ _)
  · rw [names, List.map_append, List.map_append, bucketText, keyText, List.append_assoc]

/-- A character that the file system encoding does not have is found when the path is
resolved. -/
theorem validatePath_unencodable (free : host.tree.Unlinked storage.basePath.names)
    (bucketSafe : SafeName bucket bucketParts) (keySafe : SafeName key keyParts)
    (unencodable : ¬ (platform.Encodes bucket ∧ platform.Encodes key)) :
    ∃ reason, storage.validatePath bucket key host =
      .error (.valueError ("Invalid path: " ++ reason)) host := by
  obtain ⟨bucketNames, keyNames, bucketText, keyText, joined⟩ :=
    @joined_safe _ storage _ _ _ _ bucketSafe keySafe
  rw [← readable_safe bucketSafe bucketText, ← readable_safe keySafe keyText,
    ← List.forall_mem_append] at unencodable
  obtain ⟨unread, unencodable⟩ := Classical.not_forall.mp unencodable
  obtain ⟨there, unasked⟩ := Classical.not_imp.mp unencodable
  obtain ⟨failed, ends⟩ := realpath_downs_error free there (Bool.eq_false_iff.mpr unasked)
  refine ⟨platform.reason failed, ?_⟩
  rw [validatePath_screened (screen_ok.mpr ⟨⟨_, bucketSafe⟩, _, keySafe⟩), joined,
    resolve_error ends]

/-- Whatever links there are, validation ends below the base or with a `ValueError`, and it
leaves everything as it was. -/
theorem validatePath_contained (storage : LocalBlobStorage platform) (bucket key : Str)
    (host : platform.Host) :
    (∃ path, storage.validatePath bucket key host = .ok path host ∧
      storage.basePath.names <+: path.names) ∨
    ∃ message, storage.validatePath bucket key host = .error (.valueError message) host := by
  cases screened : screen bucket key with
  | error error =>
    rw [validatePath_rejected screened]
    obtain ⟨message, rfl | rfl⟩ := screen_error screened
    · exact .inr ⟨_, rfl⟩
    · exact .inr ⟨_, rfl⟩
  | ok _ =>
    rw [validatePath_screened screened]
    cases resolve (((asPath storage.basePath).join (parse bucket)).join (parse key)) host with
    | error reason => exact .inr ⟨_, rfl⟩
    | ok fullPath =>
      dsimp only
      by_cases below : storage.basePath.names <+: fullPath.names
      · rw [if_pos below]
        exact .inl ⟨fullPath, rfl, below⟩
      · rw [if_neg below]
        exact .inr ⟨_, rfl⟩

theorem accepted_safe (passed : storage.validatePath bucket key host = .ok path after) :
    (∃ parts, SafeName bucket parts) ∧ ∃ parts, SafeName key parts := by
  cases screened : screen bucket key with
  | error error =>
    rw [validatePath_rejected screened] at passed
    cases passed
  | ok _ => exact screen_ok.mp screened

theorem accepted_encoded (free : host.tree.Unlinked storage.basePath.names)
    (passed : storage.validatePath bucket key host = .ok path after) :
    platform.Encodes bucket ∧ platform.Encodes key := by
  obtain ⟨⟨bucketParts, bucketSafe⟩, keyParts, keySafe⟩ := accepted_safe passed
  by_contra unencodable
  obtain ⟨reason, ends⟩ := validatePath_unencodable free bucketSafe keySafe unencodable
  rw [ends] at passed
  cases passed

/-- An accepted path is at least two names below the base. -/
theorem accepted_placed (free : host.tree.Unlinked storage.basePath.names)
    (passed : storage.validatePath bucket key host = .ok path after) :
    ∃ bucketParts keyParts, SafeName bucket bucketParts ∧ SafeName key keyParts ∧
      path.names.map Name.text =
        storage.basePath.names.map Name.text ++ bucketParts ++ keyParts ∧
      storage.basePath.names.length + 2 ≤ path.names.length := by
  obtain ⟨⟨bucketParts, bucketSafe⟩, keyParts, keySafe⟩ := accepted_safe passed
  have encoded := accepted_encoded free passed
  obtain ⟨full, ends, placed⟩ := validatePath_safe free bucketSafe keySafe encoded.1 encoded.2
  rw [ends] at passed
  cases passed
  refine ⟨bucketParts, keyParts, bucketSafe, keySafe, placed, ?_⟩
  have lengths := congrArg List.length placed
  simp only [List.length_map, List.length_append] at lengths
  have bucketSome := List.length_pos_of_ne_nil bucketSafe.ne_nil
  have keySome := List.length_pos_of_ne_nil keySafe.ne_nil
  omega

/-- The containment check rejects no name that the screening has let through. -/
theorem screened_inside (free : host.tree.Unlinked storage.basePath.names)
    (screened : screen bucket key = .ok ())
    (raised : storage.validatePath bucket key host = .error outside after) : False := by
  obtain ⟨⟨bucketParts, bucketSafe⟩, keyParts, keySafe⟩ := screen_ok.mp screened
  by_cases encoded : platform.Encodes bucket ∧ platform.Encodes key
  · obtain ⟨full, ends, -⟩ := validatePath_safe free bucketSafe keySafe encoded.1 encoded.2
    rw [ends] at raised
    cases raised
  · obtain ⟨reason, ends⟩ := validatePath_unencodable free bucketSafe keySafe encoded
    rw [ends] at raised
    injection raised with same
    injection same with texts
    have letters := congrArg String.toList texts
    rw [String.toList_append] at letters
    injection letters with first
    exact absurd first (by decide)

/-- Validation accepts the safe names and no others. -/
theorem validation_accepts_safe_names (storage : LocalBlobStorage platform) (bucket key : Str)
    (host : platform.Host) :
    (host.tree.Unlinked storage.basePath.names →
      ((∃ path after, storage.validatePath bucket key host = .ok path after) ↔
        ((∃ parts, SafeName bucket parts) ∧ ∃ parts, SafeName key parts) ∧
          platform.Encodes bucket ∧ platform.Encodes key) ∧
      (∀ path after, storage.validatePath bucket key host = .ok path after →
        ∃ bucketParts keyParts, SafeName bucket bucketParts ∧ SafeName key keyParts ∧
          path.names.map Name.text =
            storage.basePath.names.map Name.text ++ bucketParts ++ keyParts ∧
          storage.basePath.names.length + 2 ≤ path.names.length) ∧
      ∀ after, screen bucket key = .ok () →
        storage.validatePath bucket key host ≠ .error outside after) ∧
    (∀ path after, storage.validatePath bucket key host = .ok path after →
      storage.basePath.names <+: path.names ∧ after = host) ∧
    ∀ error after, storage.validatePath bucket key host = .error error after →
      (∃ message, error = .valueError message) ∧ after = host := by
  have contained := validatePath_contained storage bucket key host
  refine ⟨fun free => ⟨⟨?_, ?_⟩, ?_, ?_⟩, ?_, ?_⟩
  · rintro ⟨path, after, passed⟩
    exact ⟨accepted_safe passed, accepted_encoded free passed⟩
  · rintro ⟨⟨⟨bucketParts, bucketSafe⟩, keyParts, keySafe⟩, bucketEncoded, keyEncoded⟩
    obtain ⟨path, passed, -⟩ := validatePath_safe free bucketSafe keySafe bucketEncoded keyEncoded
    exact ⟨path, host, passed⟩
  · intro path after passed
    exact accepted_placed free passed
  · intro after screened raised
    exact screened_inside free screened raised
  · intro path after passed
    rcases contained with ⟨full, ends, below⟩ | ⟨message, ends⟩
    · rw [ends] at passed
      cases passed
      exact ⟨below, rfl⟩
    · rw [ends] at passed
      cases passed
  · intro error after raised
    rcases contained with ⟨full, ends, below⟩ | ⟨message, ends⟩
    · rw [ends] at raised
      cases raised
    · rw [ends] at raised
      cases raised
      exact ⟨⟨message, rfl⟩, rfl⟩

def srv : Name := ⟨str "srv", by decide, by decide, by decide, by decide⟩

def tmp : Name := ⟨str "tmp", by decide, by decide, by decide, by decide⟩

/-- A base directory, and a link elsewhere. -/
def served : (utf8 fun _ => "surrogates not allowed").Host where
  tree := [([srv], .dir), ([tmp], .link (parse (str "/var/tmp")))]
  getcwd := ⟨[], List.forall_mem_nil _⟩

theorem served_unlinked : served.tree.Unlinked [srv] := by
  intro link target there
  by_cases base : link = [srv]
  · subst base
    cases there
  · by_cases other : link = [tmp]
    · subst other
      decide
    · unfold served at there
      rw [List.lookup_cons, beq_false_of_ne base, List.lookup_cons, beq_false_of_ne other] at there
      cases there

theorem nested_key_is_placed :
    ∃ path after, LocalBlobStorage.validatePath ⟨⟨[srv], by decide⟩⟩ (str "images")
      (str "2024/cat.png") served = .ok path after := by
  refine (((validation_accepts_safe_names _ _ _ served).1 served_unlinked).1).mpr ⟨⟨?_, ?_⟩, ?_, ?_⟩
  · exact ⟨[str "images"], by decide, by decide, by decide⟩
  · exact ⟨[str "2024", str "cat.png"], by decide, by decide, by decide⟩
  · exact encodes_str _ "images"
  · exact encodes_str _ "2024/cat.png"

end Validation

/-! ## Without links -/

section Unlinked

variable {reason : List Name → String} {c : CodePoint} {text bucket key : Str}

theorem encodeChar_isSome (c : CodePoint) :
    (encodeChar c).isSome = (utf8 reason).encodes c := by
  unfold encodeChar utf8
  grind

theorem fsencode_isSome : (fsencode text).isSome ↔ (utf8 reason).Encodes text := by
  induction text with
  | nil => exact iff_of_true rfl (List.forall_mem_nil _)
  | cons c text ih =>
    unfold Platform.Encodes at ih ⊢
    rw [List.forall_mem_cons, ← ih, ← encodeChar_isSome, fsencode]
    cases encodeChar c with
    | none => simp
    | some first =>
      cases fsencode text with
      | none => simp
      | some bytes => simp

/-- A text can be encoded when its segments can. -/
theorem encodes_segments :
    (utf8 reason).Encodes text ↔ ∀ segment ∈ segments text, (fsencode segment).isSome := by
  constructor
  · intro whole segment member
    refine (@fsencode_isSome reason segment).mpr fun c inside => ?_
    have slash : c ≠ chr '/' := fun same => not_mem_of_mem_splitOn member (same ▸ inside)
    exact whole c ((mem_splitOn slash).mpr ⟨segment, member, inside⟩)
  · intro parts c member
    by_cases slash : c = chr '/'
    · subst slash
      exact (utf8 reason).ascii _ (by decide)
    · obtain ⟨segment, inside, member⟩ := (mem_splitOn slash).mp member
      exact (@fsencode_isSome reason segment).mp (parts segment inside) c member

/-- Without links it is the validation on which `BlobStorage` relies. -/
theorem validatePath_unlinked (storage : LocalBlobStorage (utf8 reason))
    {host : (utf8 reason).Host} (free : host.tree.Unlinked storage.basePath.names)
    (bucket key : Str) :
    match BlobStorage.LocalBlobStorage.validatePath bucket key with
    | .ok path => ∃ full below, storage.validatePath bucket key host = .ok full host ∧
        full.names.map Name.text = storage.basePath.names.map Name.text ++ below ∧
        below.mapM fsencode = some path
    | .error (.invalidPath _) => ∃ reason, storage.validatePath bucket key host =
        .error (.valueError ("Invalid path: " ++ reason)) host
    | .error error => storage.validatePath bucket key host = .error error host := by
  unfold BlobStorage.LocalBlobStorage.validatePath
  cases screened : screen bucket key with
  | error error =>
    obtain ⟨message, rfl | rfl⟩ := screen_error screened
    · exact validatePath_rejected screened
    · exact validatePath_rejected screened
  | ok _ =>
    obtain ⟨⟨bucketParts, bucketSafe⟩, keyParts, keySafe⟩ := screen_ok.mp screened
    have written : (utf8 reason).Encodes bucket ∧ (utf8 reason).Encodes key ↔
        ((segments bucket ++ segments key).mapM fsencode).isSome := by
      rw [encodes_segments, encodes_segments, mapM_fsencode_isSome]
      exact List.forall_mem_append.symm
    cases encoded : (segments bucket ++ segments key).mapM fsencode with
    | none =>
      rw [encoded] at written
      exact validatePath_unencodable free bucketSafe keySafe fun both => by cases written.mp both
    | some path =>
      rw [encoded] at written
      obtain ⟨inBucket, inKey⟩ := written.mpr rfl
      obtain ⟨full, ends, placed⟩ := validatePath_safe free bucketSafe keySafe inBucket inKey
      refine ⟨full, segments bucket ++ segments key, ends, ?_, encoded⟩
      rw [placed, bucketSafe.segments_eq, keySafe.segments_eq, List.append_assoc]

end Unlinked

end BackendFoundation.PathValidation
