import BackendFoundation.PythonValues

/-! Responses as the handlers and middlewares see them: a status, a list of
headers, and a body that is kept as the JSON object it was made of. -/
namespace BackendFoundation.HttpResponses
open PythonValues

/-! ## Headers -/

/-- Names are in lower case, as ASGI has them. -/
abbrev Headers := List (Str × Str)

namespace Headers

/-- What a client receives under a name. -/
def values (headers : Headers) (name : Str) : List Str :=
  (headers.filter fun header => header.1 == name).map Prod.snd

/-- `headers[name] = value` of `MutableHeaders`: the first header of that name gets
the value and any other is deleted. -/
def set (name value : Str) : Headers → Headers
  | [] => [(name, value)]
  | header :: rest =>
    if header.1 == name then (name, value) :: rest.filter fun other => other.1 != name
    else header :: set name value rest

section Lemmas

variable {name other value : Str} {headers : Headers}

theorem values_cons (header : Str × Str) (rest : Headers) :
    values (header :: rest) name =
      if header.1 == name then header.2 :: values rest name else values rest name := by
  unfold values
  by_cases same : (header.1 == name) = true
  · simp [same]
  · simp [same]

theorem values_append (first second : Headers) :
    values (first ++ second) name = values first name ++ values second name := by
  simp [values]

theorem values_set_self : values (set name value headers) name = [value] := by
  induction headers with
  | nil => simp [set, values]
  | cons header rest ih =>
    unfold set
    by_cases same : (header.1 == name) = true
    · simp [same, values, List.filter_filter]
    · rw [if_neg same, values_cons, if_neg same, ih]

theorem values_set_of_ne (different : other ≠ name) :
    values (set name value headers) other = values headers other := by
  have apart : (name == other) = false := by simpa using different.symm
  induction headers with
  | nil => simp [set, values, apart]
  | cons header rest ih =>
    unfold set
    by_cases same : (header.1 == name) = true
    · have not_other : (header.1 == other) = false := by
        rw [eq_of_beq same]
        exact apart
      have kept : values (rest.filter fun header => header.1 != name) other = values rest other := by
        unfold values
        rw [List.filter_filter]
        congr 1
        apply List.filter_congr
        intro header _
        by_cases is_other : (header.1 == other) = true
        · simp [eq_of_beq is_other, different]
        · simp [is_other]
      rw [if_pos same, values_cons, values_cons]
      simp only [apart, not_other, Bool.false_eq_true, if_false]
      exact kept
    · rw [if_neg same, values_cons, values_cons, ih]

end Lemmas

end Headers

/-! ## Bodies -/

mutual

/-- `json.dumps(value, ensure_ascii=False).encode("utf-8")` succeeds. -/
def encodes : Json → Bool
  | .str text => encodable text
  | .arr items => encodesItems items
  | .obj fields => encodesFields fields
  | _ => true

def encodesItems : List Json → Bool
  | [] => true
  | item :: rest => encodes item && encodesItems rest

def encodesFields : List (Str × Json) → Bool
  | [] => true
  | field :: rest => encodesField field && encodesFields rest

def encodesField : Str × Json → Bool
  | (name, value) => encodable name && encodes value

end

/-- A Python value as `model_dump` leaves it: one that is JSON, or any other object,
which JSON does not encode (bytes, a set, `NaN`, an integer of too many digits). -/
inductive Value where
  | json (value : Json)
  | object (tag : ℕ)

namespace Value

def isNone : Value → Bool
  | .json .null => true
  | _ => false

def encodes : Value → Bool
  | .json value => HttpResponses.encodes value
  | .object _ => false

end Value

/-- The items of a dictionary with string keys. -/
abbrev Fields := List (Str × Value)

def Fields.get? (fields : Fields) (name : String) : Option Value := fields.lookup (str name)

/-- The dictionary has the rendering of a JSON object. -/
def Fields.encodes (fields : Fields) : Bool :=
  fields.all fun field => encodable field.1 && field.2.encodes

inductive Body where
  | empty
  | json (content : Fields)
  | bytes (content : List UInt8)

structure Response where
  status : Int
  headers : Headers
  body : Body

def Response.setHeader (response : Response) (name : String) (value : Str) : Response :=
  { response with headers := response.headers.set (str name) value }

/-- `init_headers`: the content type is added unless the headers have one. The length
of the body is left out. -/
def initHeaders (headers : Headers) (mediaType : String) : Headers :=
  if headers.any fun header => header.1 == str "content-type" then headers
  else headers ++ [(str "content-type", str mediaType)]

/-- `JSONResponse(status_code, content, headers, media_type)`; `none` when rendering
the content raises. -/
def jsonResponse (status : Int) (content : Fields) (headers : Headers)
    (mediaType : String := "application/json") : Option Response :=
  if content.encodes then some ⟨status, initHeaders headers mediaType, .json content⟩ else none

end BackendFoundation.HttpResponses
