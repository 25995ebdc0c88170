import Mathlib.Data.List.Basic
import Mathlib.Data.Fin.Basic
import Mathlib.Data.Nat.Log
import Mathlib.Algebra.Order.Field.Rat
import Mathlib.Tactic.Linarith
import Mathlib.Tactic.Positivity
import Mathlib.Tactic.NormNum

/-! The values of the Python runtime the services compute with: strings as
sequences of code points, UUIDs with their textual form, instants, and decoded
JSON. Only what the modelled code observes of them is represented. -/
namespace BackendFoundation.PythonValues

abbrev CodePoint := Fin 0x110000

instance codePoint_neZero : NeZero 0x110000 := ⟨by decide⟩

instance uuid_neZero : NeZero (2 ^ 128) := ⟨by decide⟩

/-- A Python string. Unlike `String` it may hold lone surrogates. -/
abbrev Str := List CodePoint

def chr (c : Char) : CodePoint := ⟨c.toNat, by
  have valid := c.valid
  simp only [UInt32.isValidChar, Nat.isValidChar] at valid
  have value : c.toNat = c.val.toNat := rfl
  omega⟩

def str (s : String) : Str := s.toList.map chr

/-- `s.encode("utf-8")` succeeds: no code point is a surrogate. -/
def encodable (s : Str) : Bool := s.all fun c => c.val < 0xD800 || 0xDFFF < c.val

/-- The characters of a `String` are no surrogates. -/
@[simp] theorem encodable_str (s : String) : encodable (str s) = true := by
  simp only [encodable, str, List.all_map, List.all_eq_true, Function.comp_apply,
    Bool.or_eq_true, decide_eq_true_eq]
  intro c _
  have valid := c.valid
  simp only [UInt32.isValidChar, Nat.isValidChar] at valid
  have value : (chr c).val = c.val.toNat := rfl
  omega

/-- The parts of a split do not have the separator in them. -/
theorem not_mem_of_mem_splitOn {α : Type} [BEq α] [LawfulBEq α] {separator : α} {text part : List α}
    (member : part ∈ text.splitOn separator) : separator ∉ part := by
  induction text generalizing part with
  | nil =>
    rw [List.splitOn_nil, List.mem_singleton] at member
    rw [member]
    exact List.not_mem_nil
  | cons c rest ih =>
    rw [List.splitOn_cons_eq_if_modifyHead] at member
    split at member
    · rcases List.mem_cons.mp member with rfl | later
      · exact List.not_mem_nil
      · exact ih later
    · rename_i other
      cases parts : rest.splitOn separator with
      | nil => exact absurd parts (List.splitOn_ne_nil _ _)
      | cons first others =>
        rw [parts] at ih member
        rcases List.mem_cons.mp member with rfl | later
        · intro inside
          rcases List.mem_cons.mp inside with same | inside
          · exact other (by simp [same])
          · exact ih List.mem_cons_self inside
        · exact ih (List.mem_cons_of_mem _ later)

/-- Whatever else is in the text is in one of them. -/
theorem mem_splitOn {α : Type} [BEq α] [LawfulBEq α] {separator c : α} {text : List α}
    (other : c ≠ separator) : c ∈ text ↔ ∃ part ∈ text.splitOn separator, c ∈ part := by
  induction text with
  | nil => simp
  | cons d rest ih =>
    rw [List.splitOn_cons_eq_if_modifyHead]
    by_cases same : (d == separator) = true
    · rw [if_pos same, eq_of_beq same]
      simp [other, ih]
    · rw [if_neg same]
      cases split : rest.splitOn separator with
      | nil => exact absurd split (List.splitOn_ne_nil _ _)
      | cons first others =>
        rw [split] at ih
        simp [ih, or_assoc]

/-- Joined without it they are the text without it. -/
theorem flatten_splitOn {α : Type} [BEq α] [LawfulBEq α] (separator : α) (text : List α) :
    (text.splitOn separator).flatten = text.filter (· != separator) := by
  induction text with
  | nil => rfl
  | cons c rest ih =>
    rw [List.splitOn_cons_eq_if_modifyHead]
    split
    · rename_i same
      rw [List.flatten_cons, List.nil_append, ih, List.filter_cons, if_neg (by simpa using same)]
    · rename_i other
      rw [List.filter_cons, if_pos (by simpa using other), ← ih]
      cases parts : rest.splitOn separator with
      | nil => exact absurd parts (List.splitOn_ne_nil _ _)
      | cons first others => rfl

/-- A UTC `datetime`, in microseconds since the epoch. -/
abbrev DateTime := Int

def minutes (n : Int) : Int := n * 60000000
def days (n : Int) : Int := n * 86400000000

/-- The integer nearest to `a / b`, the even one of two. -/
def roundDiv (a b : ℕ) : ℕ :=
  if 2 * (a % b) < b then a / b
  else if b < 2 * (a % b) then a / b + 1
  else a / b + a / b % 2

/-- The double nearest to `us / 10**6`: its 53 bits, and how many of them are behind the point. -/
def doubleSeconds (us : ℕ) : ℕ × ℕ :=
  let shift := 72 - Nat.log2 (us * 2 ^ 20 / 1000000)
  (roundDiv (us * 2 ^ shift) 1000000, shift)

/-- `int(us / 10**6)`. -/
def wholeSeconds (us : ℕ) : ℕ := (doubleSeconds us).1 / 2 ^ (doubleSeconds us).2

/-- `int(delta.total_seconds())`: `int` rounds towards zero. -/
def intSeconds (delta : Int) : Int := delta.sign * wholeSeconds delta.natAbs

/-- `int(t.timestamp())`. -/
def timestamp (t : DateTime) : Int := intSeconds t

def magnitude (us : ℕ) : ℚ := (doubleSeconds us).1 / 2 ^ (doubleSeconds us).2

/-- `t.timestamp()`. -/
def timestampDouble (t : DateTime) : ℚ := t.sign * magnitude t.natAbs

theorem le_roundDiv {a b m : ℕ} (positive : 0 < b) : m ≤ roundDiv a b ↔
    2 * (m * b) < 2 * a + b ∨ 2 * (m * b) = 2 * a + b ∧ m % 2 = 0 := by
  have parts := Nat.div_add_mod a b
  have small := Nat.mod_lt a positive
  rw [Nat.mul_comm] at parts
  unfold roundDiv
  generalize a / b = q at *
  generalize a % b = r at *
  rcases Nat.lt_trichotomy m (q + 1) with below | rfl | above
  · have scaled : m * b ≤ q * b := Nat.mul_le_mul_right b (by omega)
    refine iff_of_true ?_ (.inl (by omega))
    split
    · omega
    · split <;> omega
  · rw [Nat.add_mul, Nat.one_mul]
    split
    · omega
    · split <;> omega
  · have scaled : (q + 2) * b ≤ m * b := Nat.mul_le_mul_right b (by omega)
    rw [Nat.add_mul] at scaled
    refine iff_of_false ?_ (by omega)
    split
    · omega
    · split <;> omega

theorem roundDiv_le {a b m : ℕ} (positive : 0 < b) (fits : a ≤ m * b) : roundDiv a b ≤ m := by
  by_contra above
  have next := (le_roundDiv positive).mp (Nat.lt_of_not_le above)
  rw [Nat.succ_eq_add_one, Nat.add_mul, Nat.one_mul] at next
  omega

section Doubles

variable {us later m : ℕ}

/-- Whole seconds are doubles, so nothing is rounded beyond them. -/
theorem le_doubleSeconds (fits : m * 1000000 ≤ us) :
    m * 2 ^ (doubleSeconds us).2 ≤ (doubleSeconds us).1 := by
  unfold doubleSeconds
  dsimp only
  generalize 72 - Nat.log2 (us * 2 ^ 20 / 1000000) = shift
  have scaled := Nat.mul_le_mul_right (2 ^ shift) fits
  rw [Nat.mul_right_comm] at scaled
  exact (le_roundDiv (by omega)).mpr (.inl (by omega))

theorem doubleSeconds_le (fits : us ≤ m * 1000000) :
    (doubleSeconds us).1 ≤ m * 2 ^ (doubleSeconds us).2 := by
  unfold doubleSeconds
  dsimp only
  generalize 72 - Nat.log2 (us * 2 ^ 20 / 1000000) = shift
  have scaled := Nat.mul_le_mul_right (2 ^ shift) fits
  rw [Nat.mul_right_comm] at scaled
  exact roundDiv_le (by omega) scaled

/-- A later double has no more bits behind the point. -/
theorem shift_antitone (after : us ≤ later) : (doubleSeconds later).2 ≤ (doubleSeconds us).2 := by
  have larger : us * 2 ^ 20 / 1000000 ≤ later * 2 ^ 20 / 1000000 :=
    Nat.div_le_div_right (Nat.mul_le_mul_right _ after)
  have bits := Nat.log_mono_right (b := 2) larger
  rw [← Nat.log2_eq_log_two, ← Nat.log2_eq_log_two] at bits
  unfold doubleSeconds
  dsimp only
  omega

/-- A time that is rounded up to a whole second is, an even number of seconds later, rounded up
to one again. -/
theorem le_doubleSeconds_later {gap : ℕ} (even : gap % 2 = 0) (after : us + gap * 1000000 ≤ later)
    (whole : m * 2 ^ (doubleSeconds us).2 ≤ (doubleSeconds us).1) :
    (m + gap) * 2 ^ (doubleSeconds later).2 ≤ (doubleSeconds later).1 := by
  by_cases fits : (m + gap) * 1000000 ≤ later
  · exact le_doubleSeconds fits
  have fewer : (doubleSeconds later).2 ≤ (doubleSeconds us).2 := shift_antitone (by omega)
  have steps : 2 ^ (doubleSeconds later).2 ≤ 2 ^ (doubleSeconds us).2 :=
    Nat.pow_le_pow_right (by omega) fewer
  have rounded : m * 2 ^ (doubleSeconds us).2 ≤ roundDiv (us * 2 ^ (doubleSeconds us).2) 1000000 := whole
  change _ ≤ roundDiv (later * 2 ^ (doubleSeconds later).2) 1000000
  rw [le_roundDiv (by omega)] at rounded ⊢
  generalize (doubleSeconds later).2 = fine at *
  generalize (doubleSeconds us).2 = shift at *
  -- What is missing to the whole second is at most half a step, and later no more than before.
  obtain ⟨missing, before⟩ := Nat.exists_eq_add_of_le (show us ≤ m * 1000000 by omega)
  obtain ⟨missing', behind⟩ := Nat.exists_eq_add_of_le (show later ≤ (m + gap) * 1000000 by omega)
  have less : missing' * 2 ^ fine ≤ missing * 2 ^ shift := Nat.mul_le_mul (by omega) steps
  rw [Nat.mul_right_comm, before, Nat.add_mul] at rounded
  rw [Nat.mul_right_comm, behind, Nat.add_mul]
  rcases rounded with strict | ⟨tie, parity⟩
  · left
    omega
  · rcases Nat.lt_or_eq_of_le less with strict | same
    · left
      omega
    · right
      refine ⟨by omega, ?_⟩
      have equal : 2 ^ fine = 2 ^ shift := by
        by_contra different
        have shorter : 2 ^ fine < 2 ^ shift := by omega
        have strict : missing' * 2 ^ fine < missing * 2 ^ shift :=
          Nat.mul_lt_mul_of_le_of_lt (by omega) shorter (by omega)
        omega
      rw [equal, Nat.add_mul, Nat.add_mod, parity, Nat.mul_mod, even]
      simp

/-- Whole seconds are less than one, or one, off. -/
theorem wholeSeconds_bounds (us : ℕ) :
    us / 1000000 ≤ wholeSeconds us ∧ wholeSeconds us ≤ us / 1000000 + 1 := by
  constructor
  · exact (Nat.le_div_iff_mul_le (Nat.two_pow_pos _)).mpr (le_doubleSeconds (Nat.div_mul_le_self _ _))
  · refine Nat.div_le_of_le_mul ?_
    rw [Nat.mul_comm]
    exact doubleSeconds_le (by omega)

theorem le_magnitude (fits : m * 1000000 ≤ us) : (m : ℚ) ≤ magnitude us := by
  rw [magnitude, le_div_iff₀ (by positivity)]
  exact_mod_cast le_doubleSeconds fits

theorem magnitude_le (fits : us ≤ m * 1000000) : magnitude us ≤ m := by
  rw [magnitude, div_le_iff₀ (by positivity)]
  exact_mod_cast doubleSeconds_le fits

theorem magnitude_nonneg (us : ℕ) : 0 ≤ magnitude us := by
  unfold magnitude
  positivity

end Doubles

/-- The whole seconds of a duration are less than a second, or a second, off. -/
theorem intSeconds_near (delta : Int) :
    delta - 1000000 ≤ intSeconds delta * 1000000 ∧
      intSeconds delta * 1000000 ≤ delta + 1000000 := by
  obtain ⟨lower, upper⟩ := wholeSeconds_bounds delta.natAbs
  unfold intSeconds
  rcases Int.lt_trichotomy delta 0 with negative | rfl | positive
  · rw [Int.sign_eq_neg_one_of_neg negative]
    omega
  · simp
  · rw [Int.sign_eq_one_of_pos positive]
    omega

section Times

variable {t later n : Int}

theorem timestampDouble_of_nonneg (positive : 0 ≤ t) : timestampDouble t = magnitude t.natAbs := by
  rcases Int.lt_or_eq_of_le positive with positive | rfl
  · simp [timestampDouble, Int.sign_eq_one_of_pos positive]
  · simp [timestampDouble, magnitude, doubleSeconds, roundDiv]

theorem timestampDouble_of_neg (negative : t < 0) : timestampDouble t = -magnitude t.natAbs := by
  simp [timestampDouble, Int.sign_eq_neg_one_of_neg negative]

/-- A time after a whole second is not rounded to one before it. -/
theorem le_timestampDouble (fits : n * 1000000 ≤ t) : (n : ℚ) ≤ timestampDouble t := by
  rcases lt_or_ge t 0 with negative | positive
  · rw [timestampDouble_of_neg negative]
    have below : magnitude t.natAbs ≤ (n.natAbs : ℚ) := magnitude_le (by omega)
    have size : ((n.natAbs : ℤ) : ℚ) = -n := by exact_mod_cast Int.ofNat_natAbs_of_nonpos (by omega)
    rw [Int.cast_natCast] at size
    linarith
  · rw [timestampDouble_of_nonneg positive]
    rcases lt_or_ge n 0 with small | large
    · exact (by exact_mod_cast small.le : (n : ℚ) ≤ 0).trans (magnitude_nonneg _)
    · have above : (n.natAbs : ℚ) ≤ magnitude t.natAbs := le_magnitude (by omega)
      have size : ((n.natAbs : ℤ) : ℚ) = n := by exact_mod_cast Int.natAbs_of_nonneg large
      rw [Int.cast_natCast] at size
      linarith

theorem timestampDouble_le (fits : t ≤ n * 1000000) : timestampDouble t ≤ n := by
  rcases lt_or_ge t 0 with negative | positive
  · rw [timestampDouble_of_neg negative]
    rcases lt_or_ge n 0 with small | large
    · have above : (n.natAbs : ℚ) ≤ magnitude t.natAbs := le_magnitude (by omega)
      have size : ((n.natAbs : ℤ) : ℚ) = -n := by exact_mod_cast Int.ofNat_natAbs_of_nonpos small.le
      rw [Int.cast_natCast] at size
      linarith
    · have nonneg : (0 : ℚ) ≤ n := by exact_mod_cast large
      linarith [magnitude_nonneg t.natAbs]
  · rw [timestampDouble_of_nonneg positive]
    have below : magnitude t.natAbs ≤ (n.natAbs : ℚ) := magnitude_le (by omega)
    have size : ((n.natAbs : ℤ) : ℚ) = n := by exact_mod_cast Int.natAbs_of_nonneg (by omega)
    rw [Int.cast_natCast] at size
    linarith

/-- An `int(t.timestamp())` that is rounded up stays behind the timestamp of an even number of
seconds later by that number. -/
theorem timestamp_add_le {gap : ℕ} (even : gap % 2 = 0) (positive : 0 ≤ t)
    (after : t + gap * 1000000 ≤ later) : (timestamp t : ℚ) + gap ≤ timestampDouble later := by
  have seconds : timestamp t = wholeSeconds t.natAbs := by
    unfold timestamp intSeconds
    rcases Int.lt_or_eq_of_le positive with positive | rfl
    · rw [Int.sign_eq_one_of_pos positive, Int.one_mul]
    · rfl
  have rounded : (wholeSeconds t.natAbs + gap) * 2 ^ (doubleSeconds later.natAbs).2 ≤
      (doubleSeconds later.natAbs).1 :=
    le_doubleSeconds_later even (by omega) (Nat.div_mul_le_self _ _)
  rw [seconds, timestampDouble_of_nonneg (by omega), magnitude, le_div_iff₀ (by positivity)]
  exact_mod_cast rounded

end Times

/-! ## UUIDs -/

structure UUID where
  int : Fin (2 ^ 128)
  deriving DecidableEq, Repr

/-- `str.replace(old, "")` for a nonempty `old`; `skip` characters of an
occurrence already found are still to be dropped. -/
def removeAll (old : Str) (skip : ℕ) : Str → Str
  | [] => []
  | c :: rest =>
    match skip with
    | skip + 1 => removeAll old skip rest
    | 0 =>
      if old.isPrefixOf (c :: rest) then removeAll old (old.length - 1) rest
      else c :: removeAll old 0 rest

/-- `str.strip(chars)`, with the character set as a predicate. -/
def stripBoth (chars : CodePoint → Bool) (s : Str) : Str :=
  ((s.dropWhile chars).reverse.dropWhile chars).reverse

/-- `str.isspace` of one character. -/
def isSpace (c : CodePoint) : Bool :=
  (0x9 ≤ c.val && c.val ≤ 0xd) || (0x1c ≤ c.val && c.val ≤ 0x20) || c.val == 0x85 ||
    c.val == 0xa0 || c.val == 0x1680 || (0x2000 ≤ c.val && c.val ≤ 0x200a) ||
    c.val == 0x2028 || c.val == 0x2029 || c.val == 0x202f || c.val == 0x205f || c.val == 0x3000

/-- The zeros of the decimal digit runs outside ASCII. -/
def decimalZeros : List ℕ :=
  [0x660, 0x6f0, 0x7c0, 0x966, 0x9e6, 0xa66, 0xae6, 0xb66, 0xbe6, 0xc66, 0xce6, 0xd66, 0xde6,
    0xe50, 0xed0, 0xf20, 0x1040, 0x1090, 0x17e0, 0x1810, 0x1946, 0x19d0, 0x1a80, 0x1a90, 0x1b50,
    0x1bb0, 0x1c40, 0x1c50, 0xa620, 0xa8d0, 0xa900, 0xa9d0, 0xa9f0, 0xaa50, 0xabf0, 0xff10,
    0x104a0, 0x10d30, 0x11066, 0x110f0, 0x11136, 0x111d0, 0x112f0, 0x11450, 0x114d0, 0x11650,
    0x116c0, 0x11730, 0x118e0, 0x11950, 0x11c50, 0x11d50, 0x11da0, 0x11f50, 0x16a60, 0x16ac0,
    0x16b50, 0x1d7ce, 0x1d7d8, 0x1d7e2, 0x1d7ec, 0x1d7f6, 0x1e140, 0x1e2f0, 0x1e4f0, 0x1e950,
    0x1fbf0]

/-- What `int` reads in place of a character: ASCII stands for itself, another
space for a blank, another decimal digit for its value, the rest for `?`. -/
def toAscii (c : CodePoint) : CodePoint :=
  if c.val < 127 then c
  else if isSpace c then chr ' '
  else match decimalZeros.find? fun first => first ≤ c.val && c.val ≤ first + 9 with
    | some first => Fin.ofNat _ (48 + (c.val - first))
    | none => chr '?'

def hexValue (c : CodePoint) : Option ℕ :=
  if 48 ≤ c.val ∧ c.val ≤ 57 then some (c.val - 48)
  else if 65 ≤ c.val ∧ c.val ≤ 70 then some (c.val - 55)
  else if 97 ≤ c.val ∧ c.val ≤ 102 then some (c.val - 87)
  else none

/-- The digits of an integer literal in base 16: single underscores may stand
between digits, and there is at least one digit. -/
def hexDigits (value : ℕ) (separated : Bool) : Str → Option ℕ
  | [] => if separated then none else some value
  | c :: rest =>
    if c = chr '_' then if separated then none else hexDigits value true rest
    else match hexValue c with
      | some digit => hexDigits (16 * value + digit) false rest
      | none => none

/-- An unsigned literal, after an optional `0x` and one underscore. -/
def hexMagnitude (s : Str) : Option ℕ :=
  match s with
  | first :: x :: rest =>
    if first = chr '0' ∧ (x = chr 'x' ∨ x = chr 'X') then
      hexDigits 0 true (if rest.head? = some (chr '_') then rest.tail else rest)
    else hexDigits 0 true s
  | _ => hexDigits 0 true s

/-- `int(s, 16)`; `none` is `ValueError`. -/
def intBase16 (s : Str) : Option Int :=
  let text := stripBoth (fun c => (0x9 ≤ c.val && c.val ≤ 0xd) || c.val == 0x20) (s.map toAscii)
  match text with
  | sign :: rest =>
    if sign = chr '+' then (hexMagnitude rest).map Int.ofNat
    else if sign = chr '-' then (hexMagnitude rest).map fun n => -(n : Int)
    else (hexMagnitude text).map Int.ofNat
  | [] => none

/-- `UUID(s)` for a string; `none` is `ValueError`. -/
def UUID.ofStr (s : Str) : Option UUID :=
  let hex := removeAll (str "uuid:") 0 (removeAll (str "urn:") 0 s)
  let hex := (stripBoth (fun c => c == chr '{' || c == chr '}') hex).filter (· ≠ chr '-')
  if hex.length ≠ 32 then none
  else match intBase16 hex with
    | some (.ofNat n) => if bound : n < 2 ^ 128 then some ⟨⟨n, bound⟩⟩ else none
    | _ => none

def hexChar (digit : ℕ) : CodePoint :=
  if digit < 10 then Fin.ofNat _ (48 + digit) else Fin.ofNat _ (87 + digit)

/-- `'%0{width}x' % n` for an `n` that fits. -/
def hexWord (n : ℕ) : ℕ → Str
  | 0 => []
  | width + 1 => hexWord (n / 16) width ++ [hexChar (n % 16)]

/-- `str(uuid)`. -/
def UUID.toStr (uuid : UUID) : Str :=
  let hex := hexWord uuid.int 32
  hex.take 8 ++ chr '-' :: (hex.drop 8).take 4 ++ chr '-' :: (hex.drop 12).take 4 ++
    chr '-' :: (hex.drop 16).take 4 ++ chr '-' :: hex.drop 20

/-- A character of a canonical hexadecimal word. -/
def IsHexChar (c : CodePoint) : Prop := (48 ≤ c.val ∧ c.val ≤ 57) ∨ (97 ≤ c.val ∧ c.val ≤ 102)

private theorem hexChar_val {digit : ℕ} (small : digit < 16) :
    (hexChar digit).val = if digit < 10 then 48 + digit else 87 + digit := by
  unfold hexChar
  split <;> simp [Fin.ofNat] <;> omega

private theorem isHexChar_hexChar {digit : ℕ} (small : digit < 16) : IsHexChar (hexChar digit) := by
  unfold IsHexChar
  rw [hexChar_val small]
  split <;> omega

private theorem hexValue_hexChar {digit : ℕ} (small : digit < 16) :
    hexValue (hexChar digit) = some digit := by
  unfold hexValue
  rw [hexChar_val small]
  split
  · rw [if_pos (by omega)]
    simp
  · rw [if_neg (by omega), if_neg (by omega), if_pos (by omega)]
    simp

private theorem hexWord_length (n width : ℕ) : (hexWord n width).length = width := by
  induction width generalizing n with
  | zero => rfl
  | succ width ih => simp [hexWord, ih]

private theorem hexWord_chars (n width : ℕ) : ∀ c ∈ hexWord n width, IsHexChar c := by
  induction width generalizing n with
  | zero => simp [hexWord]
  | succ width ih =>
    intro c member
    rcases List.mem_append.mp member with inside | last
    · exact ih _ c inside
    · rw [List.mem_singleton.mp last]
      exact isHexChar_hexChar (Nat.mod_lt _ (by omega))

private theorem hexDigits_append (value : ℕ) (separated : Bool) (digit : ℕ) (small : digit < 16)
    (s : Str) (chars : ∀ c ∈ s, IsHexChar c) (result : ℕ)
    (read : s ≠ [] → hexDigits value separated s = some result) (start : s = [] → result = value) :
    hexDigits value separated (s ++ [hexChar digit]) = some (16 * result + digit) := by
  have plain : ∀ c, IsHexChar c → c ≠ chr '_' := by
    rintro c isHex rfl
    have underscore : (chr '_').val = 95 := rfl
    simp only [IsHexChar, underscore] at isHex
    omega
  induction s generalizing value separated with
  | nil =>
    rw [start rfl]
    simp [hexDigits, plain _ (isHexChar_hexChar small), hexValue_hexChar small]
  | cons c rest ih =>
    have readAll := read (List.cons_ne_nil _ _)
    have notUnderscore := plain c (chars c List.mem_cons_self)
    simp only [List.cons_append, hexDigits, notUnderscore, if_false] at readAll ⊢
    cases digitValue : hexValue c with
    | none => simp [digitValue] at readAll
    | some d =>
      simp only [digitValue] at readAll ⊢
      refine ih _ _ (fun x member => chars x (List.mem_cons_of_mem _ member)) (fun _ => readAll) ?_
      rintro rfl
      simpa [hexDigits, eq_comm] using readAll

private theorem hexDigits_hexWord (n width : ℕ) (bound : n < 16 ^ width) (separated : Bool) :
    hexWord n width ≠ [] → hexDigits 0 separated (hexWord n width) = some n := by
  induction width generalizing n with
  | zero => exact fun nonempty => absurd rfl nonempty
  | succ width ih =>
    intro _
    have high : n / 16 < 16 ^ width := by
      rw [pow_succ] at bound
      exact Nat.div_lt_of_lt_mul (by omega)
    have joined := hexDigits_append 0 separated (n % 16) (Nat.mod_lt _ (by omega))
      (hexWord (n / 16) width) (hexWord_chars _ _) (n / 16) (ih _ high) (by
        intro empty
        have : width = 0 := by simpa [hexWord_length] using congrArg List.length empty
        subst this
        simp only [pow_zero] at high
        omega)
    rw [hexWord, joined]
    congr 1
    omega

private theorem isHexChar_ne {c d : CodePoint} (isHex : IsHexChar c) (other : ¬ IsHexChar d) :
    c ≠ d := fun same => other (same ▸ isHex)

private theorem removeAll_absent (old : Str) (first : CodePoint) (s : Str)
    (starts : old.head? = some first) (absent : first ∉ s) : removeAll old 0 s = s := by
  induction s with
  | nil => rfl
  | cons c rest ih =>
    obtain ⟨different, absent⟩ := List.ne_and_not_mem_of_not_mem_cons absent
    cases old with
    | nil => cases starts
    | cons x old =>
      cases starts
      simp [removeAll, List.isPrefixOf, different, ih absent]

private theorem stripBoth_kept (chars : CodePoint → Bool) (s : Str)
    (kept : ∀ c ∈ s, chars c = false) : stripBoth chars s = s := by
  have unchanged : ∀ t : Str, (∀ c ∈ t, chars c = false) → t.dropWhile chars = t := by
    intro t kept
    cases t with
    | nil => rfl
    | cons c rest => simp [kept c List.mem_cons_self]
  rw [stripBoth, unchanged s kept, unchanged _ (fun c member => kept c (List.mem_reverse.mp member)),
    List.reverse_reverse]

/-- A hexadecimal digit of either case. -/
def IsHexDigit (c : CodePoint) : Prop :=
  (48 ≤ c.val ∧ c.val ≤ 57) ∨ (65 ≤ c.val ∧ c.val ≤ 70) ∨ (97 ≤ c.val ∧ c.val ≤ 102)

instance (c : CodePoint) : Decidable (IsHexDigit c) :=
  inferInstanceAs (Decidable (_ ∨ _ ∨ _))

private theorem isHexDigit_ne {c d : CodePoint} (isHex : IsHexDigit c) (other : ¬ IsHexDigit d) :
    c ≠ d := fun same => other (same ▸ isHex)

private theorem hexValue_digit {c : CodePoint} (isHex : IsHexDigit c) :
    ∃ digit, hexValue c = some digit ∧ digit < 16 := by
  unfold hexValue
  rcases isHex with decimal | upper | lower
  · exact ⟨_, if_pos decimal, by omega⟩
  · exact ⟨_, by rw [if_neg (by omega), if_pos upper], by omega⟩
  · exact ⟨_, by rw [if_neg (by omega), if_neg (by omega), if_pos lower], by omega⟩

/-- Hexadecimal digits read as a number that their count bounds. -/
private theorem hexDigits_bound (value : ℕ) (separated : Bool) (s : Str)
    (chars : ∀ c ∈ s, IsHexDigit c) (start : s = [] → separated = false) :
    ∃ n, hexDigits value separated s = some n ∧ n < (value + 1) * 16 ^ s.length := by
  induction s generalizing value separated with
  | nil => exact ⟨value, by simp [hexDigits, start rfl], by simp⟩
  | cons c rest ih =>
    have isHex := chars c List.mem_cons_self
    have notUnderscore := isHexDigit_ne isHex (d := chr '_') (by decide)
    obtain ⟨digit, read, small⟩ := hexValue_digit isHex
    obtain ⟨n, others, bound⟩ := ih (16 * value + digit) false
      (fun c member => chars c (List.mem_cons_of_mem _ member)) (fun _ => rfl)
    refine ⟨n, by simp [hexDigits, notUnderscore, read, others], bound.trans_le ?_⟩
    rw [List.length_cons, pow_succ', ← Nat.mul_assoc]
    exact Nat.mul_le_mul_right _ (by omega)

/-- Such digits are all that `int` reads. -/
private theorem intBase16_digits {s : Str} (chars : ∀ c ∈ s, IsHexDigit c) (two : 2 ≤ s.length) :
    intBase16 s = (hexDigits 0 true s).map .ofNat := by
  have ascii : s.map toAscii = s := by
    conv_rhs => rw [← List.map_id s]
    refine List.map_congr_left fun c member => if_pos ?_
    have isHex := chars c member
    unfold IsHexDigit at isHex
    omega
  have kept : ∀ c ∈ s, ((0x9 ≤ c.val && c.val ≤ 0xd) || c.val == 0x20) = false := by
    intro c member
    have isHex := chars c member
    unfold IsHexDigit at isHex
    have low : ¬ c.val ≤ 0xd := by omega
    have blank : ¬ c.val = 0x20 := by omega
    simp [low, blank]
  unfold intBase16
  rw [ascii, stripBoth_kept _ _ kept]
  match s, chars, two with
  | first :: second :: rest, chars, _ =>
    have isFirst := chars first List.mem_cons_self
    have isSecond := chars second (List.mem_cons_of_mem _ List.mem_cons_self)
    have noPlus := isHexDigit_ne isFirst (d := chr '+') (by decide)
    have noMinus := isHexDigit_ne isFirst (d := chr '-') (by decide)
    have noX := isHexDigit_ne isSecond (d := chr 'x') (by decide)
    have noCapitalX := isHexDigit_ne isSecond (d := chr 'X') (by decide)
    simp [noPlus, noMinus, hexMagnitude, noX, noCapitalX]

private theorem isHexDigit_of_char {c : CodePoint} (isHex : IsHexChar c) : IsHexDigit c := by
  rcases isHex with decimal | lower
  · exact .inl decimal
  · exact .inr (.inr lower)

/-- A word of hexadecimal characters of full width reads as its value. -/
private theorem intBase16_hexWord (n width : ℕ) (bound : n < 16 ^ (width + 2)) :
    intBase16 (hexWord n (width + 2)) = some (.ofNat n) := by
  have length := hexWord_length n (width + 2)
  have nonempty : hexWord n (width + 2) ≠ [] := List.ne_nil_of_length_pos (by omega)
  rw [intBase16_digits (fun c member => isHexDigit_of_char (hexWord_chars _ _ c member)) (by omega),
    hexDigits_hexWord n (width + 2) bound true nonempty]
  rfl

/-- The characters of a UUID's text. -/
theorem UUID.mem_toStr (uuid : UUID) : ∀ c ∈ uuid.toStr, IsHexChar c ∨ c = chr '-' := by
  have chars := hexWord_chars uuid.int 32
  intro c member
  simp only [UUID.toStr, List.mem_append, List.mem_cons] at member
  have taken : ∀ k m, c ∈ ((hexWord uuid.int 32).drop k).take m → IsHexChar c :=
    fun k m inside => chars c (List.mem_of_mem_drop (List.mem_of_mem_take inside))
  rcases member with (((inside | same | inside) | same | inside) | same | inside) | same | inside
  · exact .inl (chars c (List.mem_of_mem_take inside))
  · exact .inr same
  · exact .inl (taken _ _ inside)
  · exact .inr same
  · exact .inl (taken _ _ inside)
  · exact .inr same
  · exact .inl (taken _ _ inside)
  · exact .inr same
  · exact .inl (chars c (List.mem_of_mem_drop inside))

private theorem toStr_without_hyphens (uuid : UUID) :
    uuid.toStr.filter (· ≠ chr '-') = hexWord uuid.int 32 := by
  have chars := hexWord_chars uuid.int 32
  have kept : ∀ s : Str, (∀ c ∈ s, IsHexChar c) → s.filter (· ≠ chr '-') = s := by
    intro s inside
    refine List.filter_eq_self.mpr fun c member => ?_
    simpa using isHexChar_ne (inside c member) (d := chr '-') (by unfold IsHexChar; decide)
  have part : ∀ k m, (((hexWord uuid.int 32).drop k).take m).filter (· ≠ chr '-') =
      ((hexWord uuid.int 32).drop k).take m := fun k m => kept _ fun c inside =>
    chars c (List.mem_of_mem_drop (List.mem_of_mem_take inside))
  have first : ((hexWord uuid.int 32).take 8).filter (· ≠ chr '-') = (hexWord uuid.int 32).take 8 :=
    kept _ fun c inside => chars c (List.mem_of_mem_take inside)
  have last : ((hexWord uuid.int 32).drop 20).filter (· ≠ chr '-') = (hexWord uuid.int 32).drop 20 :=
    kept _ fun c inside => chars c (List.mem_of_mem_drop inside)
  have hyphen : ∀ s : Str, (chr '-' :: s).filter (· ≠ chr '-') = s.filter (· ≠ chr '-') := by
    intro s
    simp
  rw [UUID.toStr]
  simp only [List.filter_append, hyphen, part, first, last, List.append_assoc]
  have joined : ∀ k m, ((hexWord uuid.int 32).drop k).take m ++ (hexWord uuid.int 32).drop (k + m) =
      (hexWord uuid.int 32).drop k := by
    intro k m
    rw [← List.drop_drop]
    exact List.take_append_drop _ _
  rw [joined 16 4, joined 12 4, joined 8 4, List.take_append_drop]

/-- Reading the text of a UUID gives the UUID back. -/
theorem UUID.ofStr_toStr (uuid : UUID) : UUID.ofStr uuid.toStr = some uuid := by
  have chars := UUID.mem_toStr uuid
  have absent : chr 'u' ∉ uuid.toStr := by
    intro member
    rcases chars _ member with isHex | same
    · exact absurd isHex (by unfold IsHexChar; decide)
    · exact absurd same (by decide)
  have kept : ∀ c ∈ uuid.toStr, (c == chr '{' || c == chr '}') = false := by
    intro c member
    rcases chars c member with isHex | rfl
    · have left := isHexChar_ne isHex (d := chr '{') (by unfold IsHexChar; decide)
      have right := isHexChar_ne isHex (d := chr '}') (by unfold IsHexChar; decide)
      simp [left, right]
    · decide
  have word := intBase16_hexWord uuid.int 30 (by
    have := uuid.int.isLt
    norm_num at this ⊢
    omega)
  unfold UUID.ofStr
  rw [removeAll_absent _ (chr 'u') _ (by decide) absent,
    removeAll_absent _ (chr 'u') _ (by decide) absent]
  dsimp only
  rw [stripBoth_kept _ _ kept, toStr_without_hyphens]
  simp [hexWord_length, word]

/-- The hexadecimal digits of the text of a UUID are grouped by hyphens. -/
theorem UUID.toStr_groups (uuid : UUID) :
    (uuid.toStr.splitOn (chr '-')).map List.length = [8, 4, 4, 4, 12] := by
  have apart : ∀ s : Str, (∀ c ∈ s, c ∈ hexWord uuid.int 32) → chr '-' ∉ s := by
    intro s inside member
    exact absurd (hexWord_chars _ _ _ (inside _ member)) (by unfold IsHexChar; decide)
  have part : ∀ k m, chr '-' ∉ ((hexWord uuid.int 32).drop k).take m := fun k m =>
    apart _ fun c member => List.mem_of_mem_drop (List.mem_of_mem_take member)
  have whole : uuid.toStr = [chr '-'].intercalate [(hexWord uuid.int 32).take 8,
      ((hexWord uuid.int 32).drop 8).take 4, ((hexWord uuid.int 32).drop 12).take 4,
      ((hexWord uuid.int 32).drop 16).take 4, (hexWord uuid.int 32).drop 20] := by
    simp [UUID.toStr, List.intercalate_cons_cons]
  rw [whole, List.splitOn_intercalate]
  · simp [hexWord_length]
  · simp only [List.mem_cons, List.not_mem_nil, or_false, forall_eq_or_imp, forall_eq]
    exact ⟨apart _ fun c => List.mem_of_mem_take, part 8 4, part 12 4, part 16 4,
      apart _ fun c => List.mem_of_mem_drop⟩
  · simp

/-- `UUID` reads 32 hexadecimal digits with hyphens anywhere between them. -/
theorem UUID.ofStr_of_digits {text : Str} (chars : ∀ c ∈ text, IsHexDigit c ∨ c = chr '-')
    (digits : (text.filter (· ≠ chr '-')).length = 32) : ∃ uuid, UUID.ofStr text = some uuid := by
  have absent : chr 'u' ∉ text := by
    intro member
    rcases chars _ member with isHex | same
    · exact absurd isHex (by decide)
    · exact absurd same (by decide)
  have kept : ∀ c ∈ text, (c == chr '{' || c == chr '}') = false := by
    intro c member
    rcases chars c member with isHex | rfl
    · have left := isHexDigit_ne isHex (d := chr '{') (by decide)
      have right := isHexDigit_ne isHex (d := chr '}') (by decide)
      simp [left, right]
    · decide
  have hex : ∀ c ∈ text.filter (· ≠ chr '-'), IsHexDigit c := by
    intro c member
    obtain ⟨inside, hyphenless⟩ := List.mem_filter.mp member
    exact (chars c inside).resolve_right (by simpa using hyphenless)
  obtain ⟨n, read, bound⟩ := hexDigits_bound 0 true _ hex fun empty => by
    rw [empty] at digits
    cases digits
  rw [digits] at bound
  have small : n < 2 ^ 128 := by
    norm_num at bound ⊢
    exact bound
  refine ⟨⟨⟨n, small⟩⟩, ?_⟩
  unfold UUID.ofStr
  rw [removeAll_absent _ (chr 'u') _ (by decide) absent,
    removeAll_absent _ (chr 'u') _ (by decide) absent]
  dsimp only
  rw [stripBoth_kept _ _ kept, if_neg (not_not_intro digits), intBase16_digits hex (by omega), read]
  exact dif_pos small

theorem UUID.toStr_length (uuid : UUID) : uuid.toStr.length = 36 := by
  simp [UUID.toStr, hexWord_length]

theorem UUID.toStr_ne_nil (uuid : UUID) : uuid.toStr ≠ [] := by
  simp [UUID.toStr]

/-! ## Dictionaries -/

section Dictionaries

variable {κ α : Type} [BEq κ] [LawfulBEq κ]

/-- `dictionary[key] = value`: an entry keeps its place, and a new one is the last. -/
def setItem (dictionary : List (κ × α)) (key : κ) (value : α) : List (κ × α) :=
  if (dictionary.lookup key).isSome then
    dictionary.map fun entry => if entry.1 == key then (entry.1, value) else entry
  else dictionary ++ [(key, value)]

theorem lookup_setItem_self (dictionary : List (κ × α)) (key : κ) (value : α) :
    (setItem dictionary key value).lookup key = some value := by
  unfold setItem
  split
  · rename_i there
    induction dictionary with
    | nil => cases there
    | cons entry rest ih =>
      obtain ⟨other, old⟩ := entry
      by_cases same : other = key
      · simp [same]
      · have apart : (key == other) = false := by simpa using Ne.symm same
        rw [List.lookup_cons, apart] at there
        rw [List.map_cons, if_neg (by simpa using same), List.lookup_cons, apart]
        exact ih there
  · rename_i absent
    rw [List.lookup_append, Option.not_isSome_iff_eq_none.mp absent]
    simp

theorem lookup_setItem_of_ne (dictionary : List (κ × α)) {key other : κ} (value : α)
    (different : other ≠ key) : (setItem dictionary key value).lookup other = dictionary.lookup other := by
  have apart : (other == key) = false := by simpa using different
  unfold setItem
  split
  · rename_i there
    clear there
    induction dictionary with
    | nil => rfl
    | cons entry rest ih =>
      obtain ⟨name, old⟩ := entry
      by_cases same : name = key
      · rw [List.map_cons, if_pos (by simpa using same), List.lookup_cons, List.lookup_cons, same,
          apart]
        exact ih
      · rw [List.map_cons, if_neg (by simpa using same), List.lookup_cons, List.lookup_cons, ih]
  · rw [List.lookup_append]
    simp [List.lookup_cons, apart]

end Dictionaries

/-! ## JSON -/

/-- A decoded JSON value. Of a number with a fraction or an exponent only
whether it is zero is kept: nothing else of it is observed. -/
inductive Json where
  | null
  | bool (value : Bool)
  | int (value : Int)
  | float (isZero : Bool)
  | str (value : Str)
  | arr (items : List Json)
  | obj (fields : List (Str × Json))

namespace Json

/-- Truth of a value in a Python condition. -/
def truthy : Json → Bool
  | .null => false
  | .bool value => value
  | .int value => value != 0
  | .float isZero => !isZero
  | .str value => !value.isEmpty
  | .arr items => !items.isEmpty
  | .obj fields => !fields.isEmpty

/-- `value == text`. -/
def isStr (text : Str) : Json → Bool
  | .str value => value == text
  | _ => false

end Json

/-- A mapping with string keys. -/
abbrev Claims := List (Str × Json)

/-- `claims.get(name)`; an absent claim reads as `None`. -/
def Claims.get (claims : Claims) (name : String) : Json := (claims.lookup (str name)).getD .null

end BackendFoundation.PythonValues
