import BackendFoundation.PathValidation
import BackendFoundation.PercentEncoding

/-! `LocalBlobStorage.presign_get`: the validated path of a blob as a `file:` URL. The
path is encoded as the file system has it, lone surrogates as the bytes they stand for,
and every byte that is not plain in a URL is percent-encoded. -/
namespace BackendFoundation.FileUrls
open PythonValues BlobNames FileNames PathValidation PercentEncoding
open Platform (utf8)

/-! ## The standard library -/

def slash : UInt8 := 47

/-- `_ALWAYS_SAFE` of `urllib.parse`, and the slash that `quote_from_bytes` keeps. -/
def kept (octet : UInt8) : Bool :=
  (65 ≤ octet.toNat && octet.toNat ≤ 90) || (97 ≤ octet.toNat && octet.toNat ≤ 122) ||
    (48 ≤ octet.toNat && octet.toNat ≤ 57) || octet == 95 || octet == 46 || octet == 45 ||
    octet == 126 || octet == slash

def ascii (octet : UInt8) : CodePoint := ⟨octet.toNat, Nat.lt_trans octet.toNat_lt (by decide)⟩

def quoteFromBytes (bytes : Bytes) : Str := (encode kept bytes).map ascii

variable {reason : List Name → String}

/-- `str(path)` of an absolute path. -/
def pathText (path : (utf8 reason).Resolved) : Str :=
  chr '/' :: [chr '/'].intercalate (path.names.map Name.text)

/-- `path.as_uri()`. -/
def asUri (path : (utf8 reason).Resolved) : Option Str :=
  (fsencode (pathText path)).map fun bytes => str "file://" ++ quoteFromBytes bytes

/-- `presign_get`; the URL does not expire. -/
def presignGet (storage : LocalBlobStorage (utf8 reason)) (bucket key : Str) (_ttlS : Int) :
    Disk (utf8 reason) Str := do
  let targetPath ← storage.validatePath bucket key
  match asUri targetPath with
  | some uri => return uri
  | none => throw (.valueError (reason targetPath.names))

/-! ## What a `file:` URL refers to -/

/-- The names on the way to the file, as a reader of the URL has them. -/
def location (uri : Str) : Option (List Bytes) := do
  let path ← uri.dropPrefix? (str "file://")
  if path.all (·.val < 128) then
    let parts ← ((path.map fun c => UInt8.ofNat c.val).splitOn slash).mapM decode
    return parts.filter (· ≠ [])
  else none

/-! ## Encoded paths -/

section Encoding

variable {c : CodePoint} {text other : Str} {bytes rest : Bytes}

theorem ofNat_eq_slash {value : ℕ} (small : value < 256) (same : slash = UInt8.ofNat value) :
    value = 47 := by
  have values := congrArg UInt8.toNat same
  rw [UInt8.toNat_ofNat_of_lt' small] at values
  exact values.symm

/-- Only a slash has the byte of a slash. -/
theorem slash_mem_encodeChar (encoded : encodeChar c = some bytes) (member : slash ∈ bytes) :
    c = chr '/' := by
  have bound := c.isLt
  have found : ∃ value, value < 256 ∧ (value = c.val ∧ c.val < 0x80 ∨ 0x80 ≤ value) ∧
      slash = UInt8.ofNat value := by
    unfold encodeChar at encoded
    split at encoded
    · cases encoded
      exact ⟨c.val, by omega, .inl ⟨rfl, by omega⟩, List.mem_singleton.mp member⟩
    split at encoded
    · cases encoded
      simp only [List.mem_cons, List.not_mem_nil, or_false] at member
      rcases member with same | same
      · exact ⟨_, by omega, .inr (by omega), same⟩
      · exact ⟨_, by omega, .inr (by omega), same⟩
    split at encoded
    · cases encoded
      exact ⟨_, by omega, .inr (by omega), List.mem_singleton.mp member⟩
    split at encoded
    · cases encoded
    split at encoded
    · cases encoded
      simp only [List.mem_cons, List.not_mem_nil, or_false] at member
      rcases member with same | same | same
      · exact ⟨_, by omega, .inr (by omega), same⟩
      · exact ⟨_, by omega, .inr (by omega), same⟩
      · exact ⟨_, by omega, .inr (by omega), same⟩
    · cases encoded
      simp only [List.mem_cons, List.not_mem_nil, or_false] at member
      rcases member with same | same | same | same
      · exact ⟨_, by omega, .inr (by omega), same⟩
      · exact ⟨_, by omega, .inr (by omega), same⟩
      · exact ⟨_, by omega, .inr (by omega), same⟩
      · exact ⟨_, by omega, .inr (by omega), same⟩
  obtain ⟨value, small, range, same⟩ := found
  have named := ofNat_eq_slash small same
  have code : c.val = 47 := by omega
  exact Fin.ext code

/-- Splitting a path at its slashes commutes with encoding it. -/
theorem splitOn_fsencode (text : Str) :
    (text.splitOn (chr '/')).mapM fsencode = (fsencode text).map (·.splitOn slash) := by
  induction text with
  | nil => rfl
  | cons c text ih =>
    rw [List.splitOn_cons_eq_if_modifyHead]
    by_cases same : c = chr '/'
    · subst same
      have plain : encodeChar (chr '/') = some [slash] := by decide
      rw [if_pos (beq_self_eq_true _), List.mapM_cons, ih, fsencode, fsencode, plain]
      cases fsencode text with
      | none => rfl
      | some bytes =>
        have parts : (slash :: bytes).splitOn slash = [] :: bytes.splitOn slash := by
          rw [List.splitOn_cons_eq_if_modifyHead, if_pos (beq_self_eq_true _)]
        exact congrArg some parts.symm
    · rw [if_neg (by simpa using same), fsencode]
      cases split : text.splitOn (chr '/') with
      | nil => exact absurd split (List.splitOn_ne_nil _ _)
      | cons head others =>
        rw [split, List.mapM_cons] at ih
        rw [List.modifyHead_cons, List.mapM_cons, fsencode]
        cases encoded : encodeChar c with
        | none => rfl
        | some first =>
          have absent : slash ∉ first := fun member => same (slash_mem_encodeChar encoded member)
          cases begun : fsencode head with
          | none =>
            rw [begun] at ih
            cases whole : fsencode text with
            | none => rfl
            | some bytes =>
              rw [whole] at ih
              cases ih
          | some start =>
            cases later : others.mapM fsencode with
            | none =>
              rw [begun, later] at ih
              cases whole : fsencode text with
              | none => rfl
              | some bytes =>
                rw [whole] at ih
                cases ih
            | some rest =>
              rw [begun, later] at ih
              cases whole : fsencode text with
              | none =>
                rw [whole] at ih
                cases ih
              | some bytes =>
                rw [whole] at ih
                have parts : start :: rest = bytes.splitOn slash := Option.some.inj ih
                change some ((first ++ start) :: rest) = some ((first ++ bytes).splitOn slash)
                rw [splitOn_append_of_not_mem absent, ← parts]
                rfl

/-! ## Quoted paths -/

theorem separates_slash : Separates kept slash where
  kept := by decide
  sign := by decide
  digit := by decide

theorem kept_percent : kept percent = false := by decide

/-- What a quoted text is made of: letters, digits, the plain marks and the percent sign. -/
def Plain (c : CodePoint) : Prop := c = chr '%' ∨ ∃ octet, kept octet = true ∧ c = ascii octet

theorem plain_scheme : ∀ c ∈ str "file://", c = chr ':' ∨ Plain c := by
  have octets : str "file://" = [102, 105, 108, 101, 58, 47, 47].map ascii := rfl
  have plain : ([102, 105, 108, 101, 58, 47, 47] : Bytes).all
      (fun octet => octet == 58 || kept octet) = true := rfl
  rw [octets]
  intro c member
  obtain ⟨octet, written, rfl⟩ := List.mem_map.mp member
  have either := List.all_eq_true.mp plain octet written
  rw [Bool.or_eq_true, beq_iff_eq] at either
  rcases either with rfl | kept
  · exact .inl rfl
  · exact .inr (.inr ⟨octet, kept, rfl⟩)

theorem plain_quoted (bytes : Bytes) : ∀ c ∈ quoteFromBytes bytes, Plain c := by
  intro c member
  obtain ⟨octet, written, rfl⟩ := List.mem_map.mp member
  rcases mem_encode written with plain | rfl | ⟨digit, small, rfl⟩
  · exact .inr ⟨octet, plain, rfl⟩
  · exact .inl (by decide)
  · refine .inr ⟨_, ?_, rfl⟩
    unfold kept
    rw [toNat_hexDigit small]
    grind

theorem kept_lt {octet : UInt8} (plain : kept octet = true) : octet.toNat < 128 := by
  unfold kept at plain
  simp only [Bool.or_eq_true, Bool.and_eq_true, decide_eq_true_eq, beq_iff_eq] at plain
  rcases plain with ((((((range | range) | range) | rfl) | rfl) | rfl) | rfl) | rfl
  · omega
  · omega
  · omega
  · decide
  · decide
  · decide
  · decide
  · decide

theorem ofNat_ascii (octets : Bytes) :
    (octets.map ascii).map (fun c => UInt8.ofNat c.val) = octets := by
  rw [List.map_map]
  calc octets.map _ = octets.map id := List.map_congr_left fun octet _ => UInt8.ofNat_toNat
    _ = octets := List.map_id _

/-- The reader of a URL gets the parts of the path between its slashes. -/
theorem location_quoted (bytes : Bytes) : location (str "file://" ++ quoteFromBytes bytes) =
    some ((bytes.splitOn slash).filter (· ≠ [])) := by
  have low : (quoteFromBytes bytes).all (·.val < 128) = true := by
    refine List.all_eq_true.mpr fun c member => decide_eq_true ?_
    rcases plain_quoted bytes c member with rfl | ⟨octet, plain, rfl⟩
    · decide
    · exact kept_lt plain
  unfold location
  rw [List.dropPrefix?_append_of_beq _ (beq_self_eq_true _)]
  change (if (quoteFromBytes bytes).all (·.val < 128) = true then _ else none) = _
  rw [if_pos low]
  unfold quoteFromBytes
  rw [ofNat_ascii, decode_parts separates_slash kept_percent]
  rfl

/-- The parts that are empty are so before and after they are encoded. -/
theorem mapM_fsencode_filter {texts : List Str} {parts : List Bytes}
    (encoded : texts.mapM fsencode = some parts) :
    (texts.filter (· ≠ [])).mapM fsencode = some (parts.filter (· ≠ [])) := by
  induction texts generalizing parts with
  | nil =>
    cases encoded
    rfl
  | cons text texts ih =>
    rw [List.mapM_cons] at encoded
    cases first : fsencode text with
    | none =>
      rw [first] at encoded
      cases encoded
    | some start =>
      cases later : texts.mapM fsencode with
      | none =>
        rw [first, later] at encoded
        cases encoded
      | some rest =>
        rw [first, later] at encoded
        cases encoded
        by_cases empty : text = []
        · subst empty
          cases first
          rw [List.filter_cons, if_neg (by simp), List.filter_cons, if_neg (by simp)]
          exact ih later
        · have filled : start ≠ [] := by
            rintro rfl
            exact fsencode_ne_nil empty first
          rw [List.filter_cons, if_pos (by simpa using empty), List.mapM_cons, first, ih later,
            List.filter_cons, if_pos (by simpa using filled)]
          rfl

end Encoding

/-! ## Presigned URLs -/

section Presigning

variable {path : (utf8 reason).Resolved}

/-- The names of a path are what is between the slashes of its text. -/
theorem splitOn_pathText (path : (utf8 reason).Resolved) :
    ((pathText path).splitOn (chr '/')).filter (· ≠ []) = path.names.map Name.text := by
  have filled : ∀ part ∈ path.names.map Name.text, part ≠ [] := by
    intro part member
    obtain ⟨name, -, rfl⟩ := List.mem_map.mp member
    exact name.ne_nil
  have kept : (path.names.map Name.text).filter (· ≠ []) = path.names.map Name.text :=
    List.filter_eq_self.mpr fun part member => decide_eq_true (filled part member)
  unfold pathText
  rw [List.splitOn_cons_eq_if_modifyHead, if_pos (beq_self_eq_true _), List.filter_cons,
    if_neg (by simp)]
  by_cases none : path.names.map Name.text = []
  · rw [none]
    decide
  · rw [List.splitOn_intercalate _ _ none, kept]
    intro part member
    obtain ⟨name, -, rfl⟩ := List.mem_map.mp member
    exact name.flat

theorem pathText_encodes (path : (utf8 reason).Resolved) :
    (utf8 reason).Encodes (pathText path) := by
  intro c member
  by_cases plain : c = chr '/'
  · subst plain
    exact (utf8 reason).ascii _ (by decide)
  · obtain ⟨part, inside, member⟩ := (mem_splitOn plain).mp member
    have among : part ∈ path.names.map Name.text := by
      rw [← splitOn_pathText]
      exact List.mem_filter.mpr ⟨inside, decide_eq_true (List.ne_nil_of_mem member)⟩
    obtain ⟨name, there, rfl⟩ := List.mem_map.mp among
    have whole := List.all_eq_true.mp (path.readable name there) c member
    exact (Bool.and_eq_true_iff.mp whole).1

/-- A resolved path has a URL, and its names can be read from it. -/
theorem asUri_located (path : (utf8 reason).Resolved) :
    ∃ bytes names, fsencode (pathText path) = some bytes ∧
      asUri path = some (str "file://" ++ quoteFromBytes bytes) ∧
      location (str "file://" ++ quoteFromBytes bytes) = some names ∧
      (path.names.map Name.text).mapM fsencode = some names := by
  obtain ⟨bytes, encoded⟩ := Option.isSome_iff_exists.mp
    (fsencode_isSome.mpr (pathText_encodes path))
  refine ⟨bytes, _, encoded, ?_, location_quoted bytes, ?_⟩
  · unfold asUri
    rw [encoded]
    rfl
  · have parts := splitOn_fsencode (pathText path)
    rw [encoded] at parts
    rw [← splitOn_pathText]
    exact mapM_fsencode_filter parts

theorem asUri_named (path : (utf8 reason).Resolved) : ∃ uri, asUri path = some uri := by
  obtain ⟨bytes, -, -, written, -⟩ := asUri_located path
  exact ⟨_, written⟩

/-- Two paths have one URL when the file system has one path for them. -/
theorem asUri_inj {path other : (utf8 reason).Resolved} :
    asUri path = asUri other ↔ fsencode (pathText path) = fsencode (pathText other) := by
  constructor
  · intro same
    obtain ⟨bytes, -, encoded, written, -⟩ := asUri_located path
    obtain ⟨others, -, encodedOther, writtenOther, -⟩ := asUri_located other
    rw [written, writtenOther] at same
    have quoted := List.append_cancel_left (Option.some.inj same)
    have octets : encode kept bytes = encode kept others := by
      have read := congrArg (List.map fun c => UInt8.ofNat c.val) quoted
      unfold quoteFromBytes at read
      rw [ofNat_ascii, ofNat_ascii] at read
      exact read
    rw [encoded, encodedOther, encode_injective kept_percent octets]
  · intro same
    unfold asUri
    rw [same]

theorem cons_intercalate {parts : List Str} (filled : parts ≠ []) :
    chr '/' :: [chr '/'].intercalate parts = parts.flatMap (chr '/' :: ·) := by
  induction parts with
  | nil => exact absurd rfl filled
  | cons part rest ih =>
    cases rest with
    | nil => simp
    | cons next rest =>
      have later := ih (List.cons_ne_nil next rest)
      rw [List.intercalate_cons_of_ne_nil (List.cons_ne_nil next rest), List.flatMap_cons, ← later,
        List.append_assoc]
      rfl

variable {storage : LocalBlobStorage (utf8 reason)} {bucket key : Str} {ttlS : Int}
  {host after : (utf8 reason).Host} {uri : Str} {error : Error}

theorem presignGet_accepted (ttlS : Int)
    (passed : storage.validatePath bucket key host = .ok path after) :
    ∃ uri, asUri path = some uri ∧ presignGet storage bucket key ttlS host = .ok uri after := by
  obtain ⟨uri, written⟩ := asUri_named path
  refine ⟨uri, written, ?_⟩
  change EStateM.bind _ _ _ = _
  unfold EStateM.bind
  rw [passed]
  change (match asUri path with
    | some uri => return uri
    | none => throw (.valueError (reason path.names)) : Disk (utf8 reason) Str) after = _
  rw [written]
  rfl

theorem presignGet_rejected (failed : storage.validatePath bucket key host = .error error after) :
    presignGet storage bucket key ttlS host = .error error after := by
  change EStateM.bind _ _ _ = _
  unfold EStateM.bind
  rw [failed]

/-- A URL is that of a validated path. -/
theorem presignGet_ok (presigned : presignGet storage bucket key ttlS host = .ok uri after) :
    ∃ path, storage.validatePath bucket key host = .ok path after ∧ asUri path = some uri := by
  cases validated : storage.validatePath bucket key host with
  | ok path later =>
    obtain ⟨written, named, ends⟩ := presignGet_accepted ttlS validated
    rw [ends] at presigned
    cases presigned
    exact ⟨path, rfl, named⟩
  | error error later =>
    rw [presignGet_rejected validated] at presigned
    cases presigned

/-- A presigned URL is plain text from which a reader gets the names on the path that
`_validate_path` has returned; nothing else is refused. -/
theorem presigned_urls_are_read_back (storage : LocalBlobStorage (utf8 reason)) (bucket key : Str)
    (ttlS : Int) (host : (utf8 reason).Host) :
    (∀ path after, storage.validatePath bucket key host = .ok path after →
      ∃ uri names, presignGet storage bucket key ttlS host = .ok uri after ∧
        (∀ c ∈ uri, c = chr ':' ∨ Plain c) ∧ location uri = some names ∧
        (path.names.map Name.text).mapM fsencode = some names) ∧
    ∀ error after, storage.validatePath bucket key host = .error error after →
      presignGet storage bucket key ttlS host = .error error after := by
  refine ⟨fun path after passed => ?_, fun error after failed => presignGet_rejected failed⟩
  obtain ⟨bytes, names, -, written, read, encoded⟩ := asUri_located path
  obtain ⟨uri, named, ends⟩ := presignGet_accepted ttlS passed
  rw [written] at named
  cases named
  refine ⟨_, names, ends, ?_, read, encoded⟩
  intro c member
  rcases List.mem_append.mp member with scheme | quoted
  · exact plain_scheme c scheme
  · exact .inr (plain_quoted bytes c quoted)

/-- Below the base directory of the sample host names are placed as they are written. -/
theorem served_accepts {bucket key : String} {bucketParts keyParts : List Str}
    (bucketSafe : SafeName (str bucket) bucketParts) (keySafe : SafeName (str key) keyParts) :
    ∃ path, LocalBlobStorage.validatePath ⟨⟨[srv], by decide⟩⟩ (str bucket) (str key) served =
        .ok path served ∧ path.names.map Name.text = [str "srv"] ++ bucketParts ++ keyParts :=
  validatePath_safe served_unlinked bucketSafe keySafe (Platform.encodes_str _ bucket)
    (Platform.encodes_str _ key)

theorem spaced_key_is_read_back :
    ∃ uri after, presignGet ⟨⟨[srv], by decide⟩⟩ (str "images") (str "a b.png") 60 served =
        .ok uri after ∧
      location uri = some [[115, 114, 118], [105, 109, 97, 103, 101, 115],
        [97, 32, 98, 46, 112, 110, 103]] := by
  obtain ⟨path, passed, placed⟩ := @served_accepts "images" "a b.png" [str "images"] [str "a b.png"]
    ⟨by decide, by decide, by decide⟩ ⟨by decide, by decide, by decide⟩
  obtain ⟨uri, names, presigned, -, read, encoded⟩ :=
    (presigned_urls_are_read_back ⟨⟨[srv], by decide⟩⟩ _ _ 60 served).1 path served passed
  refine ⟨uri, served, presigned, ?_⟩
  rw [placed] at encoded
  rw [read, ← encoded]
  decide

/-- The text of a blob's path, where there are no links. -/
theorem pathText_placed (free : host.tree.Unlinked storage.basePath.names)
    (passed : storage.validatePath bucket key host = .ok path after) :
    pathText path = (storage.basePath.names.map Name.text).flatMap (chr '/' :: ·) ++
      chr '/' :: (bucket ++ chr '/' :: key) := by
  obtain ⟨bucketParts, keyParts, bucketSafe, keySafe, placed, -⟩ := accepted_placed free passed
  have filled : storage.basePath.names.map Name.text ++ bucketParts ++ keyParts ≠ [] :=
    fun nothing => keySafe.ne_nil (List.append_eq_nil_iff.mp nothing).2
  unfold pathText
  rw [placed, cons_intercalate filled, List.flatMap_append, List.flatMap_append,
    ← cons_intercalate bucketSafe.ne_nil, ← cons_intercalate keySafe.ne_nil, bucketSafe.joined,
    keySafe.joined, List.append_assoc]
  rfl

variable {bucket' key' : Str} {ttlS' : Int} {host' after' : (utf8 reason).Host} {uri' : Str}

/-- Two blobs have one URL, whenever the URLs were made, when what is written between their
buckets' beginnings and their keys' ends is the same for the file system; for names without
surrogates this is the same text. -/
theorem presigned_urls_tell_blobs_apart (free : host.tree.Unlinked storage.basePath.names)
    (free' : host'.tree.Unlinked storage.basePath.names)
    (presigned : presignGet storage bucket key ttlS host = .ok uri after)
    (presigned' : presignGet storage bucket' key' ttlS' host' = .ok uri' after') :
    (uri = uri' ↔
      fsencode (bucket ++ chr '/' :: key) = fsencode (bucket' ++ chr '/' :: key')) ∧
    (encodable (bucket ++ key) = true → encodable (bucket' ++ key') = true →
      (uri = uri' ↔ bucket ++ chr '/' :: key = bucket' ++ chr '/' :: key')) := by
  obtain ⟨path, passed, named⟩ := presignGet_ok presigned
  obtain ⟨path', passed', named'⟩ := presignGet_ok presigned'
  have texts : uri = uri' ↔
      fsencode (bucket ++ chr '/' :: key) = fsencode (bucket' ++ chr '/' :: key') := by
    have placed := pathText_placed free passed
    have whole := pathText_encodes path
    rw [placed] at whole
    have above := fsencode_isSome.mpr fun c member => whole c (List.mem_append_left _ member)
    have root : (fsencode [chr '/']).isSome := by decide
    calc uri = uri' ↔ asUri path = asUri path' := by
          rw [named, named', Option.some.injEq]
      _ ↔ fsencode (pathText path) = fsencode (pathText path') := asUri_inj
      _ ↔ fsencode ([chr '/'] ++ (bucket ++ chr '/' :: key)) =
          fsencode ([chr '/'] ++ (bucket' ++ chr '/' :: key')) := by
          rw [placed, pathText_placed free' passed']
          exact fsencode_append_cancel above
      _ ↔ _ := fsencode_append_cancel root
  refine ⟨texts, fun scalars others => ?_⟩
  rw [texts]
  constructor
  · intro same
    have encodes := accepted_encoded free passed
    have slashed : ∀ {first second : Str}, encodable (first ++ second) = true →
        encodable (first ++ chr '/' :: second) = true := by
      intro first second plain
      unfold encodable at plain ⊢
      rw [List.all_append, Bool.and_eq_true] at plain ⊢
      exact ⟨plain.1, by rw [List.all_cons, plain.2]; rfl⟩
    have written : (utf8 reason).Encodes (bucket ++ chr '/' :: key) := by
      intro c member
      rcases List.mem_append.mp member with inBucket | later
      · exact encodes.1 c inBucket
      · rcases List.mem_cons.mp later with rfl | inKey
        · exact (utf8 reason).ascii _ (by decide)
        · exact encodes.2 c inKey
    obtain ⟨bytes, encoded⟩ := Option.isSome_iff_exists.mp (fsencode_isSome.mpr written)
    exact fsencode_injective (slashed scalars) (slashed others) encoded (same ▸ encoded)
  · intro same
    rw [same]

theorem slash_may_be_in_either_part :
    ∃ uri uri' after after',
      presignGet ⟨⟨[srv], by decide⟩⟩ (str "a") (str "b/c") 60 served = .ok uri after ∧
      presignGet ⟨⟨[srv], by decide⟩⟩ (str "a/b") (str "c") 5 served = .ok uri' after' ∧
      uri = uri' := by
  obtain ⟨path, passed, -⟩ := @served_accepts "a" "b/c" [str "a"] [str "b", str "c"]
    ⟨by decide, by decide, by decide⟩ ⟨by decide, by decide, by decide⟩
  obtain ⟨path', passed', -⟩ := @served_accepts "a/b" "c" [str "a", str "b"] [str "c"]
    ⟨by decide, by decide, by decide⟩ ⟨by decide, by decide, by decide⟩
  obtain ⟨uri, -, presigned⟩ := presignGet_accepted 60 passed
  obtain ⟨uri', -, presigned'⟩ := presignGet_accepted 5 passed'
  exact ⟨uri, uri', served, served, presigned, presigned',
    ((presigned_urls_tell_blobs_apart served_unlinked served_unlinked presigned presigned').2
      (by decide) (by decide)).mpr (by decide)⟩

end Presigning

end BackendFoundation.FileUrls
