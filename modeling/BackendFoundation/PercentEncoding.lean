import Mathlib.Data.List.Basic

/-! Percent-encoding of octets. Those of a chosen set stand for themselves; each of the
others is written as a percent sign and two hexadecimal digits. -/
namespace BackendFoundation.PercentEncoding

abbrev Octets := List UInt8

def percent : UInt8 := 37

/-- A digit below sixteen, in capitals. -/
def hexDigit (digit : ℕ) : UInt8 := UInt8.ofNat (if digit < 10 then 48 + digit else 55 + digit)

/-- The value of a digit in either case. -/
def digitValue (octet : UInt8) : Option ℕ :=
  if 48 ≤ octet.toNat ∧ octet.toNat ≤ 57 then some (octet.toNat - 48)
  else if 65 ≤ octet.toNat ∧ octet.toNat ≤ 70 then some (octet.toNat - 55)
  else if 97 ≤ octet.toNat ∧ octet.toNat ≤ 102 then some (octet.toNat - 87)
  else none

def encodeOctet (kept : UInt8 → Bool) (octet : UInt8) : Octets :=
  if kept octet then [octet]
  else [percent, hexDigit (octet.toNat / 16), hexDigit (octet.toNat % 16)]

def encode (kept : UInt8 → Bool) (octets : Octets) : Octets := octets.flatMap (encodeOctet kept)

/-- What an encoded text stands for, unless a percent sign has no digits after it. -/
def decode : Octets → Option Octets
  | [] => some []
  | octet :: rest =>
    if octet = percent then
      match rest with
      | high :: low :: rest => do
        let high ← digitValue high
        let low ← digitValue low
        return UInt8.ofNat (high * 16 + low) :: (← decode rest)
      | _ => none
    else (decode rest).map (octet :: ·)

theorem toNat_hexDigit {digit : ℕ} (small : digit < 16) :
    (hexDigit digit).toNat = if digit < 10 then 48 + digit else 55 + digit := by
  unfold hexDigit
  split
  · exact UInt8.toNat_ofNat_of_lt' (by simp only [UInt8.size]; omega)
  · exact UInt8.toNat_ofNat_of_lt' (by simp only [UInt8.size]; omega)

theorem digitValue_hexDigit {digit : ℕ} (small : digit < 16) :
    digitValue (hexDigit digit) = some digit := by
  unfold digitValue
  rw [toNat_hexDigit small]
  by_cases decimal : digit < 10
  · rw [if_pos decimal, if_pos (by omega)]
    exact congrArg some (by omega)
  · rw [if_neg decimal, if_neg (by omega), if_pos (by omega)]
    exact congrArg some (by omega)

section Sets

variable {kept : UInt8 → Bool} {octets : Octets} {separator : UInt8}

/-- The octets of an encoded one: itself, or the sign and two digits. -/
theorem mem_encodeOctet {octet written : UInt8} (member : written ∈ encodeOctet kept octet) :
    (kept octet = true ∧ written = octet) ∨ written = percent ∨
      ∃ digit < 16, written = hexDigit digit := by
  have bound := octet.toNat_lt
  unfold encodeOctet at member
  split at member
  · rename_i plain
    exact .inl ⟨plain, List.mem_singleton.mp member⟩
  · simp only [List.mem_cons, List.not_mem_nil, or_false] at member
    rcases member with rfl | rfl | rfl
    · exact .inr (.inl rfl)
    · exact .inr (.inr ⟨_, by omega, rfl⟩)
    · exact .inr (.inr ⟨_, by omega, rfl⟩)

theorem mem_encode {written : UInt8} (member : written ∈ encode kept octets) :
    kept written = true ∨ written = percent ∨ ∃ digit < 16, written = hexDigit digit := by
  obtain ⟨octet, -, member⟩ := List.mem_flatMap.mp member
  rcases mem_encodeOctet member with ⟨plain, rfl⟩ | rest
  · exact .inl plain
  · exact .inr rest

/-- Any other octet stands for itself. -/
theorem decode_cons {octet : UInt8} (other : octet ≠ percent) (rest : Octets) :
    decode (octet :: rest) = (decode rest).map (octet :: ·) := by
  rcases rest with _ | ⟨high, _ | ⟨low, rest⟩⟩
  · simp [decode, other]
  · simp [decode, other]
  · rw [decode, if_neg other]

/-- One encoded octet is read back, whatever follows. -/
theorem decode_encodeOctet (sign : kept percent = false) (octet : UInt8) (rest : Octets) :
    decode (encodeOctet kept octet ++ rest) = (decode rest).map (octet :: ·) := by
  have bound := octet.toNat_lt
  unfold encodeOctet
  split
  · rename_i plain
    have other : octet ≠ percent := by
      rintro rfl
      rw [sign] at plain
      cases plain
    exact decode_cons other rest
  · change decode (percent :: hexDigit (octet.toNat / 16) :: hexDigit (octet.toNat % 16) :: rest) = _
    rw [decode, if_pos rfl]
    simp only [digitValue_hexDigit (show octet.toNat / 16 < 16 by omega),
      digitValue_hexDigit (show octet.toNat % 16 < 16 by omega)]
    have whole : UInt8.ofNat (octet.toNat / 16 * 16 + octet.toNat % 16) = octet := by
      rw [Nat.div_add_mod', UInt8.ofNat_toNat]
    change (decode rest).bind _ = _
    rw [whole]
    cases decode rest with
    | none => rfl
    | some octets => rfl

theorem decode_encode (sign : kept percent = false) (octets : Octets) :
    decode (encode kept octets) = some octets := by
  induction octets with
  | nil => rfl
  | cons octet rest ih =>
    change decode (encodeOctet kept octet ++ encode kept rest) = _
    rw [decode_encodeOctet sign, ih]
    rfl

theorem encode_injective (sign : kept percent = false) : Function.Injective (encode kept) := by
  intro octets others same
  have decoded := congrArg decode same
  rw [decode_encode sign, decode_encode sign] at decoded
  exact Option.some.inj decoded

/-! ## Separators -/

/-- An octet that stands for itself and is in the encoding of no other. -/
structure Separates (kept : UInt8 → Bool) (separator : UInt8) : Prop where
  kept : kept separator = true
  sign : separator ≠ percent
  digit : ∀ digit < 16, separator ≠ hexDigit digit

theorem splitOn_append_of_not_mem {α : Type} [BEq α] [LawfulBEq α] {separator : α}
    {first rest : List α} (absent : separator ∉ first) :
    (first ++ rest).splitOn separator = (rest.splitOn separator).modifyHead (first ++ ·) := by
  induction first with
  | nil =>
    cases split : rest.splitOn separator with
    | nil => exact absurd split (List.splitOn_ne_nil _ _)
    | cons head others => simp [split]
  | cons c first ih =>
    have other : (c == separator) = false := by
      rw [beq_eq_false_iff_ne]
      rintro rfl
      exact absent List.mem_cons_self
    rw [List.cons_append, List.splitOn_cons_eq_if_modifyHead, other,
      ih fun member => absent (List.mem_cons_of_mem _ member)]
    cases split : rest.splitOn separator with
    | nil => exact absurd split (List.splitOn_ne_nil _ _)
    | cons head others => rfl

/-- The parts of an encoded text are the encoded parts of the text. -/
theorem splitOn_encode (separates : Separates kept separator) (octets : Octets) :
    (encode kept octets).splitOn separator = (octets.splitOn separator).map (encode kept) := by
  induction octets with
  | nil => rfl
  | cons octet rest ih =>
    change (encodeOctet kept octet ++ encode kept rest).splitOn separator = _
    rw [List.splitOn_cons_eq_if_modifyHead]
    by_cases same : octet = separator
    · subst same
      rw [encodeOctet, if_pos separates.kept, List.singleton_append,
        List.splitOn_cons_eq_if_modifyHead, if_pos (beq_self_eq_true _),
        if_pos (beq_self_eq_true _), ih]
      rfl
    · have absent : separator ∉ encodeOctet kept octet := by
        intro member
        rcases mem_encodeOctet member with ⟨-, rfl⟩ | rfl | ⟨digit, small, rfl⟩
        · exact same rfl
        · exact separates.sign rfl
        · exact separates.digit digit small rfl
      rw [splitOn_append_of_not_mem absent, ih, if_neg (by simpa using same)]
      cases split : rest.splitOn separator with
      | nil => exact absurd split (List.splitOn_ne_nil _ _)
      | cons head others => rfl

/-- Decoded one by one the parts are what they were. -/
theorem decode_parts (separates : Separates kept separator) (sign : kept percent = false)
    (octets : Octets) :
    ((encode kept octets).splitOn separator).mapM decode = some (octets.splitOn separator) := by
  rw [splitOn_encode separates]
  induction octets.splitOn separator with
  | nil => rfl
  | cons part rest ih =>
    rw [List.map_cons, List.mapM_cons, decode_encode sign, ih]
    rfl

end Sets

end BackendFoundation.PercentEncoding
