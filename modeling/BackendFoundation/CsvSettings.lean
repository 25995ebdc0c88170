import BackendFoundation.PythonValues
import Mathlib.Data.List.Forall2
import Mathlib.Data.List.TakeWhile

/-! The validators of `app/core/config/settings.py` that read a tuple of strings from one
environment variable. There are two of them, for the CORS lists and for the model
allowlist, written out separately. -/
namespace BackendFoundation.CsvSettings
open PythonValues

/-- A value as a validator of mode `before` is given it. -/
inductive Object where
  | str (text : Str)
  | list (items : List Object)
  | tuple (items : List Object)
  | other (tag : ℕ)

/-- `text.split(",")`. -/
def splitComma (text : Str) : List Str := text.splitOn (chr ',')

/-- `text.strip()`. -/
def strip (text : Str) : Str := stripBoth isSpace text

def parseCsvTuple : Object → Object
  | .str v => .tuple (((splitComma v).filter fun s => strip s ≠ []).map fun s => .str (strip s))
  | .list v => .tuple v
  | .tuple v => .tuple v
  | .other v => .other v

def Api.splitCsv (v : Object) : Object := parseCsvTuple v

def Governance.ensureTuple : Object → Object
  | .str v => .tuple (((splitComma v).filter fun s => strip s ≠ []).map fun s => .str (strip s))
  | .list v => .tuple v
  | .tuple v => .tuple v
  | .other v => .other v

/-! ## What a list of fields is -/

/-- No whitespace at either end. -/
structure Trimmed (text : Str) : Prop where
  head : ∀ c, text.head? = some c → isSpace c = false
  last : ∀ c, text.getLast? = some c → isSpace c = false

def Blank (text : Str) : Prop := ∀ c ∈ text, isSpace c = true

instance (text : Str) : Decidable (Blank text) :=
  inferInstanceAs (Decidable (∀ c ∈ text, isSpace c = true))

/-- The second text is the first without the whitespace around it. -/
def Trims (field text : Str) : Prop :=
  Trimmed text ∧ ∃ before after, Blank before ∧ Blank after ∧ field = before ++ text ++ after

/-- The fields that commas separate. -/
structure Separated (text : Str) (fields : List Str) : Prop where
  joined : [chr ','].intercalate fields = text
  apart : ∀ field ∈ fields, chr ',' ∉ field
  nonempty : fields ≠ []

/-- Fields that have the elements in them, with whitespace around each, and blank ones
in between. -/
inductive Padded : List Str → List Str → Prop where
  | nil : Padded [] []
  | element {elements fields : List Str} (text : Str) {before after : Str} :
      Blank before → Blank after → Padded elements fields →
      Padded (text :: elements) ((before ++ text ++ after) :: fields)
  | blank {elements fields : List Str} {field : Str} :
      Blank field → Padded elements fields → Padded elements (field :: fields)

/-! ## Stripping -/

section Stripping

variable {text before after : Str}

private theorem dropWhile_blank (blank : Blank before) (rest : Str) :
    (before ++ rest).dropWhile isSpace = rest.dropWhile isSpace :=
  List.dropWhile_append_of_pos blank

private theorem dropWhile_trimmed (trimmed : ∀ c, text.head? = some c → isSpace c = false) :
    text.dropWhile isSpace = text := by
  cases text with
  | nil => rfl
  | cons c rest => exact List.dropWhile_cons_of_neg (by simp [trimmed c rfl])

theorem blank_reverse (blank : Blank text) : Blank text.reverse :=
  fun c member => blank c (List.mem_reverse.mp member)

theorem strip_blank (blank : Blank text) : strip text = [] := by
  unfold strip stripBoth
  rw [List.dropWhile_eq_nil_iff.mpr blank]
  rfl

theorem strip_padded (left : Blank before) (right : Blank after) (trimmed : Trimmed text) :
    strip (before ++ text ++ after) = text := by
  rcases eq_or_ne text [] with rfl | some
  · apply strip_blank
    intro c member
    rcases List.mem_append.mp member with inside | inside
    · exact left c (by simpa using inside)
    · exact right c inside
  · unfold strip stripBoth
    obtain ⟨first, rest, rfl⟩ := List.exists_cons_of_ne_nil some
    have starts : isSpace first = false := trimmed.head first rfl
    rw [List.append_assoc, dropWhile_blank left, List.cons_append,
      List.dropWhile_cons_of_neg (by simp [starts]), ← List.cons_append, List.reverse_append,
      dropWhile_blank (blank_reverse right), dropWhile_trimmed, List.reverse_reverse]
    intro c last
    rw [List.head?_reverse] at last
    exact trimmed.last c last

/-- What stripping leaves and what it takes off. -/
theorem strip_trims (text : Str) : Trims text (strip text) := by
  have front : text = text.takeWhile isSpace ++ text.dropWhile isSpace :=
    List.takeWhile_append_dropWhile.symm
  have back : (text.dropWhile isSpace).reverse =
      (text.dropWhile isSpace).reverse.takeWhile isSpace ++
        (text.dropWhile isSpace).reverse.dropWhile isSpace :=
    List.takeWhile_append_dropWhile.symm
  have whole : text.dropWhile isSpace = strip text ++
      ((text.dropWhile isSpace).reverse.takeWhile isSpace).reverse := by
    have reversed := congrArg List.reverse back
    rwa [List.reverse_reverse, List.reverse_append] at reversed
  refine ⟨⟨fun c head => ?_, fun c last => ?_⟩, text.takeWhile isSpace,
    ((text.dropWhile isSpace).reverse.takeWhile isSpace).reverse, ?_, ?_, ?_⟩
  · have starts : (text.dropWhile isSpace).head? = some c := by
      rw [whole, List.head?_append, head]
      rfl
    have stops := List.head?_dropWhile_not isSpace text
    rw [starts] at stops
    simpa using stops
  · have ends : ((text.dropWhile isSpace).reverse.dropWhile isSpace).head? = some c := by
      rw [← last]
      unfold strip stripBoth
      rw [List.getLast?_reverse]
    have stops := List.head?_dropWhile_not isSpace (text.dropWhile isSpace).reverse
    rw [ends] at stops
    simpa using stops
  · exact fun c member => List.mem_takeWhile_imp member
  · exact blank_reverse fun c member => List.mem_takeWhile_imp member
  · rw [List.append_assoc, ← whole]
    exact front

theorem strip_eq_nil_iff : strip text = [] ↔ Blank text := by
  constructor
  · intro nothing
    obtain ⟨_, before, after, left, right, whole⟩ := strip_trims text
    rw [nothing, List.append_nil] at whole
    rw [whole]
    intro c member
    rcases List.mem_append.mp member with inside | inside
    · exact left c inside
    · exact right c inside
  · exact strip_blank

end Stripping

/-! ## Splitting -/

section Splitting

variable {v : Str} {elements fields : List Str}

theorem separated_iff : Separated v fields ↔ fields = splitComma v := by
  constructor
  · rintro ⟨rfl, apart, nonempty⟩
    exact (List.splitOn_intercalate _ apart nonempty).symm
  · rintro rfl
    exact ⟨List.intercalate_splitOn _, fun field member => not_mem_of_mem_splitOn member,
      List.splitOn_ne_nil _ _⟩

/-- The elements that both validators make of a text. -/
def csvElements (v : Str) : List Str := ((splitComma v).filter fun s => strip s ≠ []).map strip

theorem comma_not_space : isSpace (chr ',') = false := by decide

theorem padded_elements (padded : Padded elements fields)
    (proper : ∀ text ∈ elements, text ≠ [] ∧ Trimmed text) :
    (fields.filter fun s => strip s ≠ []).map strip = elements := by
  induction padded with
  | nil => rfl
  | element text left right padded ih =>
    obtain ⟨some, trimmed⟩ := proper text List.mem_cons_self
    have others := ih fun other member => proper other (List.mem_cons_of_mem _ member)
    have stripped := strip_padded left right trimmed
    rw [List.filter_cons, if_pos (by rw [stripped]; exact decide_eq_true some), List.map_cons,
      stripped, others]
  | blank blank padded ih =>
    rw [List.filter_cons, if_neg (by simp [strip_blank blank]), ih proper]

theorem padded_apart (padded : Padded elements fields) (apart : ∀ text ∈ elements, chr ',' ∉ text) :
    ∀ field ∈ fields, chr ',' ∉ field := by
  have spaces : ∀ {text : Str}, Blank text → chr ',' ∉ text := by
    intro text blank member
    cases (blank _ member).symm.trans comma_not_space
  induction padded with
  | nil => exact fun field member => absurd member List.not_mem_nil
  | element text left right padded ih =>
    intro field member
    rcases List.mem_cons.mp member with rfl | member
    · simp [spaces left, spaces right, apart text List.mem_cons_self]
    · exact ih (fun other inside => apart other (List.mem_cons_of_mem _ inside)) field member
  | blank blank padded ih =>
    intro field member
    rcases List.mem_cons.mp member with rfl | member
    · exact spaces blank
    · exact ih apart field member

theorem csvElements_proper : ∀ text ∈ csvElements v, text ≠ [] ∧ chr ',' ∉ text ∧ Trimmed text := by
  intro text member
  obtain ⟨field, kept, rfl⟩ := List.mem_map.mp member
  obtain ⟨inside, some⟩ := List.mem_filter.mp kept
  obtain ⟨trimmed, before, after, -, -, whole⟩ := strip_trims field
  refine ⟨by simpa using some, fun comma => not_mem_of_mem_splitOn inside ?_, trimmed⟩
  rw [whole]
  simp [comma]

theorem csvElements_trims :
    List.Forall₂ Trims ((splitComma v).filter fun field => ¬ Blank field) (csvElements v) := by
  unfold csvElements
  have same : (fun field => decide (strip field ≠ [])) = fun field => decide (¬ Blank field) := by
    funext field
    exact decide_eq_decide.mpr (not_congr strip_eq_nil_iff)
  rw [same, List.forall₂_map_right_iff, List.forall₂_same]
  exact fun field _ => strip_trims field

/-- Padding makes no difference. -/
theorem csvElements_padded (padded : Padded elements fields)
    (proper : ∀ text ∈ elements, text ≠ [] ∧ chr ',' ∉ text ∧ Trimmed text) :
    csvElements ([chr ','].intercalate fields) = elements := by
  have trimmed := padded_elements padded fun text member =>
    ⟨(proper text member).1, (proper text member).2.2⟩
  unfold csvElements
  cases fields with
  | nil =>
    rw [← trimmed]
    decide
  | cons field rest =>
    have apart := padded_apart padded fun text member => (proper text member).2.1
    have split : splitComma ([chr ','].intercalate (field :: rest)) = field :: rest :=
      (separated_iff.mp ⟨rfl, apart, List.cons_ne_nil _ _⟩).symm
    rw [split, trimmed]

end Splitting

/-- What the two validators make of a text. -/
structure NormalForm (v : Str) (elements : List Str) : Prop where
  cors : Api.splitCsv (.str v) = .tuple (elements.map .str)
  allowlist : Governance.ensureTuple (.str v) = .tuple (elements.map .str)
  proper : ∀ text ∈ elements, text ≠ [] ∧ chr ',' ∉ text ∧ Trimmed text
  separable : ∃ fields, Separated v fields
  fields : ∀ fields, Separated v fields →
    List.Forall₂ Trims (fields.filter fun field => ¬ Blank field) elements
  again : ∀ fields, Padded elements fields →
    Api.splitCsv (.str ([chr ','].intercalate fields)) = .tuple (elements.map .str) ∧
      Governance.ensureTuple (.str ([chr ','].intercalate fields)) = .tuple (elements.map .str)

/-- **Texts of settings have a normal form**, the same for both validators: the
trimmed fields that are not blank, from which it can be read again. -/
theorem csv_normal_form (v : Str) : ∃ elements, NormalForm v elements := by
  have parsed : ∀ text, Api.splitCsv (.str text) = .tuple ((csvElements text).map .str) ∧
      Governance.ensureTuple (.str text) = .tuple ((csvElements text).map .str) := by
    intro text
    simp [Api.splitCsv, parseCsvTuple, Governance.ensureTuple, csvElements]
  refine ⟨csvElements v, (parsed v).1, (parsed v).2, csvElements_proper, ⟨_, separated_iff.mpr rfl⟩,
    ?_, ?_⟩
  · intro fields separated
    rw [separated_iff.mp separated]
    exact csvElements_trims
  · intro fields padded
    have same := csvElements_padded padded csvElements_proper
    rw [← same]
    exact parsed _

end BackendFoundation.CsvSettings
