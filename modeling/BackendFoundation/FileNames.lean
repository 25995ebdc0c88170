import BackendFoundation.PythonValues

/-! Names as the file system has them: UTF-8, with the bytes that are no UTF-8 read as lone
surrogates and written back from them. Two texts can have the same bytes, unless both are
without surrogates. -/
namespace BackendFoundation.FileNames
open PythonValues

abbrev Bytes := List UInt8

/-- `c.encode("utf-8", "surrogateescape")`. -/
def encodeChar (c : CodePoint) : Option Bytes :=
  if c.val < 0x80 then some [.ofNat c.val]
  else if c.val < 0x800 then some [.ofNat (0xC0 + c.val / 64), .ofNat (0x80 + c.val % 64)]
  else if 0xDC80 ≤ c.val ∧ c.val ≤ 0xDCFF then some [.ofNat (c.val - 0xDC00)]
  else if 0xD800 ≤ c.val ∧ c.val ≤ 0xDFFF then none
  else if c.val < 0x10000 then
    some [.ofNat (0xE0 + c.val / 4096), .ofNat (0x80 + c.val / 64 % 64), .ofNat (0x80 + c.val % 64)]
  else some [.ofNat (0xF0 + c.val / 262144), .ofNat (0x80 + c.val / 4096 % 64),
    .ofNat (0x80 + c.val / 64 % 64), .ofNat (0x80 + c.val % 64)]

/-- `os.fsencode(text)`; the other surrogates cannot be encoded. -/
def fsencode : Str → Option Bytes
  | [] => some []
  | c :: rest => do return (← encodeChar c) ++ (← fsencode rest)

section Encoding

variable {c : CodePoint} {text other : Str} {bytes rest : Bytes}

theorem fsencode_append (text other : Str) :
    fsencode (text ++ other) = do return (← fsencode text) ++ (← fsencode other) := by
  induction text with
  | nil =>
    cases encoded : fsencode other with
    | none => simp [fsencode, encoded]
    | some bytes => simp [fsencode, encoded]
  | cons c text ih =>
    rw [List.cons_append, fsencode, fsencode, ih]
    cases encodeChar c with
    | none => rfl
    | some first =>
      cases fsencode text with
      | none => rfl
      | some bytes =>
        cases fsencode other with
        | none => rfl
        | some rest => exact congrArg some (List.append_assoc first bytes rest).symm

theorem fsencode_append_cancel {before : Str} (encodes : (fsencode before).isSome) :
    fsencode (before ++ text) = fsencode (before ++ other) ↔ fsencode text = fsencode other := by
  obtain ⟨bytes, encoded⟩ := Option.isSome_iff_exists.mp encodes
  rw [fsencode_append, fsencode_append, encoded]
  cases fsencode text with
  | none =>
    cases fsencode other with
    | none => simp
    | some _ => simp
  | some first =>
    cases fsencode other with
    | none => simp
    | some second => simp

/-! ## Reading UTF-8 -/

/-- The first character of a text without surrogates, and how many bytes it takes. -/
def readScalar (bytes : Bytes) : ℕ × ℕ :=
  let unit := fun index => (bytes.getD index 0).toNat
  if unit 0 < 0x80 then (unit 0, 1)
  else if unit 0 < 0xE0 then ((unit 0 - 0xC0) * 64 + (unit 1 - 0x80), 2)
  else if unit 0 < 0xF0 then
    ((unit 0 - 0xE0) * 4096 + (unit 1 - 0x80) * 64 + (unit 2 - 0x80), 3)
  else
    ((unit 0 - 0xF0) * 262144 + (unit 1 - 0x80) * 4096 + (unit 2 - 0x80) * 64 + (unit 3 - 0x80), 4)

theorem readScalar_encodeChar (scalar : c.val < 0xD800 ∨ 0xDFFF < c.val)
    (encoded : encodeChar c = some bytes) (rest : Bytes) :
    readScalar (bytes ++ rest) = (c.val, bytes.length) := by
  have bound := c.isLt
  have unit : ∀ value, value < 256 → (UInt8.ofNat value).toNat = value := fun value small =>
    UInt8.toNat_ofNat_of_lt' small
  unfold encodeChar at encoded
  split at encoded
  · cases encoded
    simp only [readScalar, List.cons_append, List.nil_append, List.getD_cons_zero,
      unit c.val (by omega)]
    rw [if_pos (by omega)]
    rfl
  split at encoded
  · cases encoded
    simp only [readScalar, List.cons_append, List.nil_append, List.getD_cons_zero,
      List.getD_cons_succ, unit (0xC0 + c.val / 64) (by omega), unit (0x80 + c.val % 64) (by omega)]
    rw [if_neg (by omega), if_pos (by omega)]
    exact Prod.ext (by dsimp only; omega) rfl
  split at encoded
  · omega
  split at encoded
  · cases encoded
  split at encoded
  · cases encoded
    simp only [readScalar, List.cons_append, List.nil_append, List.getD_cons_zero,
      List.getD_cons_succ, unit (0xE0 + c.val / 4096) (by omega),
      unit (0x80 + c.val / 64 % 64) (by omega), unit (0x80 + c.val % 64) (by omega)]
    rw [if_neg (by omega), if_neg (by omega), if_pos (by omega)]
    exact Prod.ext (by dsimp only; omega) rfl
  · cases encoded
    simp only [readScalar, List.cons_append, List.nil_append, List.getD_cons_zero,
      List.getD_cons_succ, unit (0xF0 + c.val / 262144) (by omega),
      unit (0x80 + c.val / 4096 % 64) (by omega), unit (0x80 + c.val / 64 % 64) (by omega),
      unit (0x80 + c.val % 64) (by omega)]
    rw [if_neg (by omega), if_neg (by omega), if_neg (by omega)]
    exact Prod.ext (by dsimp only; omega) rfl

theorem encodeChar_ne_nil : encodeChar c ≠ some [] := by
  unfold encodeChar
  grind

theorem fsencode_cons (encoded : fsencode (c :: text) = some bytes) :
    ∃ first rest, encodeChar c = some first ∧ fsencode text = some rest ∧ bytes = first ++ rest := by
  rw [fsencode] at encoded
  cases first : encodeChar c with
  | none =>
    rw [first] at encoded
    cases encoded
  | some start =>
    cases later : fsencode text with
    | none =>
      rw [first, later] at encoded
      cases encoded
    | some rest =>
      rw [first, later] at encoded
      exact ⟨start, rest, rfl, rfl, (Option.some.inj encoded).symm⟩

/-- Without surrogates no two texts have the same bytes. -/
theorem fsencode_injective (scalars : encodable text = true) (others : encodable other = true)
    (first : fsencode text = some bytes) (second : fsencode other = some bytes) : text = other := by
  induction text generalizing other bytes with
  | nil =>
    cases first
    cases other with
    | nil => rfl
    | cons d other =>
      obtain ⟨start, rest, encoded, -, whole⟩ := fsencode_cons second
      rw [(List.append_eq_nil_iff.mp whole.symm).1] at encoded
      exact absurd encoded encodeChar_ne_nil
  | cons c text ih =>
    obtain ⟨start, rest, encoded, later, rfl⟩ := fsencode_cons first
    cases other with
    | nil =>
      injection second with whole
      rw [(List.append_eq_nil_iff.mp whole.symm).1] at encoded
      exact absurd encoded encodeChar_ne_nil
    | cons d other =>
      obtain ⟨begin, tail, written, after, whole⟩ := fsencode_cons second
      unfold encodable at scalars others ih
      simp only [List.all_cons, Bool.and_eq_true, Bool.or_eq_true, decide_eq_true_eq]
        at scalars others
      have scalar := readScalar_encodeChar scalars.1 encoded rest
      rw [whole, readScalar_encodeChar others.1 written tail] at scalar
      have same : c = d := Fin.ext (congrArg Prod.fst scalar).symm
      subst same
      rw [encoded] at written
      cases written
      rw [ih scalars.2 others.2 later (List.append_cancel_left whole ▸ after)]

theorem fsencode_ne_nil (filled : text ≠ []) : fsencode text ≠ some [] := by
  cases text with
  | nil => exact absurd rfl filled
  | cons c text =>
    intro encoded
    obtain ⟨start, rest, first, -, whole⟩ := fsencode_cons encoded
    rw [(List.append_eq_nil_iff.mp whole.symm).1] at first
    exact encodeChar_ne_nil first

theorem mapM_fsencode_isSome {texts : List Str} :
    (texts.mapM fsencode).isSome ↔ ∀ text ∈ texts, (fsencode text).isSome := by
  induction texts with
  | nil => exact iff_of_true rfl (List.forall_mem_nil _)
  | cons text texts ih =>
    rw [List.forall_mem_cons, ← ih, List.mapM_cons]
    cases fsencode text with
    | none => simp
    | some start =>
      cases texts.mapM fsencode with
      | none => simp
      | some rest => simp

theorem length_mapM_fsencode {texts : List Str} {parts : List Bytes}
    (encoded : texts.mapM fsencode = some parts) : parts.length = texts.length := by
  induction texts generalizing parts with
  | nil =>
    cases encoded
    rfl
  | cons text texts ih =>
    rw [List.mapM_cons] at encoded
    cases first : fsencode text with
    | none =>
      rw [first] at encoded
      cases encoded
    | some start =>
      cases later : texts.mapM fsencode with
      | none =>
        rw [first, later] at encoded
        cases encoded
      | some rest =>
        rw [first, later] at encoded
        cases encoded
        rw [List.length_cons, List.length_cons, ih later]

end Encoding

end BackendFoundation.FileNames
