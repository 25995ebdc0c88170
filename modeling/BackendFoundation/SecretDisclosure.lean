import BackendFoundation.RequestValidation
import Mathlib.Data.List.Nodup

/-! What the document of a rejected body shows of the secrets in it: two bodies that differ
in their passwords or refresh tokens alone have the same document when no entry reports
where they differ. -/
namespace BackendFoundation.SecretDisclosure
open PythonValues HttpResponses MiddlewareStack EdgeResponses RequestValidation

def secretNames : List Str := [str "password", str "refresh_token"]

mutual

/-- Bodies that differ only in the values of secret members, however deep these are. -/
inductive Alike : PyValue → PyValue → Prop where
  | refl (value : PyValue) : Alike value value
  | list {first second : List PyValue} (items : AlikeItems first second) :
    Alike (.list first) (.list second)
  | dict {first second : List (Str × PyValue)} (members : AlikeMembers first second) :
    Alike (.dict first) (.dict second)

inductive AlikeItems : List PyValue → List PyValue → Prop where
  | nil : AlikeItems [] []
  | cons {one other : PyValue} {first second : List PyValue} (item : Alike one other)
    (items : AlikeItems first second) : AlikeItems (one :: first) (other :: second)

inductive AlikeMembers : List (Str × PyValue) → List (Str × PyValue) → Prop where
  | nil : AlikeMembers [] []
  | secret {name : Str} {first second : List (Str × PyValue)} (secret : name ∈ secretNames)
    (one other : PyValue) (members : AlikeMembers first second) :
    AlikeMembers ((name, one) :: first) ((name, other) :: second)
  | plain {one other : PyValue} {first second : List (Str × PyValue)} (name : Str)
    (value : Alike one other) (members : AlikeMembers first second) :
    AlikeMembers ((name, one) :: first) ((name, other) :: second)

end

/-- Where an error is, and of what type. -/
def kind (error : ErrorDetails) : List Location × Str := (error.loc, error.type)

/-- The members of the document of `validation_error_handler`. -/
def documentMembers (requestId : Str) (errors : List ErrorDetails) : List (Str × PyValue) :=
  [(str "type", .str (str "about:blank")), (str "title", .str (str "Validation error")),
    (str "status", .int 422),
    (str "detail", .str (str "The request body or parameters are invalid.")),
    (str "code", .str (str "validation-error")), (str "request_id", .str requestId),
    (str "errors", errorsValue errors)]

/-- They are what the handler puts into its response. -/
theorem handler_shows_members {requestId : Str} {errors : List ErrorDetails}
    (identified : encodable requestId = true) (rendered : errors.all ErrorDetails.shown = true) :
    (validationErrorHandler requestId (toValue (errorsValue errors))).map Response.body =
      some (.json ((documentMembers requestId errors).map fun field =>
        (field.1, toValue field.2))) := by
  rw [validationErrorHandler_eq identified rendered]
  rfl

/-- The bodies agree in everything that is reported: a body that is no object or lacks a field
is reported as a whole, a field's value if it is invalid. -/
def Concealed (framework : Framework) (model : Model) : PyValue → PyValue → Prop
  | .dict first, .dict second => first = second ∨ ∀ field ∈ model,
      ∃ value, first.lookup field.name = some value ∧
        (framework.strError field.minLength value = none ∨ second.lookup field.name = some value)
  | first, second => first = second

/-! ## Entries -/

section Entries

variable {framework : Framework} {first second : List (Str × PyValue)} {field : FieldInfo}
variable {name : Str} {value : PyValue}

private theorem location_injective : Function.Injective Location.py := by
  intro one other same
  cases one <;> cases other <;> simp [Location.py] at same <;> simp [same]

theorem py_injective : Function.Injective ErrorDetails.py := by
  rintro ⟨type, loc, msg, input, ctx⟩ ⟨type', loc', msg', input', ctx'⟩ same
  simp only [ErrorDetails.py, PyValue.dict.injEq, List.cons_append, List.nil_append,
    List.cons.injEq, Prod.mk.injEq, true_and, PyValue.str.injEq, PyValue.list.injEq] at same
  obtain ⟨rfl, locs, rfl, rfl, contexts⟩ := same
  obtain rfl : loc = loc' := List.map_injective_iff.mpr location_injective locs
  cases ctx <;> cases ctx' <;> simp at contexts <;> simp [contexts]

theorem documentMembers_inj {requestId : Str} {errors others : List ErrorDetails} :
    documentMembers requestId errors = documentMembers requestId others ↔ errors = others := by
  constructor
  · intro same
    simp only [documentMembers, errorsValue, List.cons.injEq, Prod.mk.injEq, true_and, and_true,
      PyValue.list.injEq] at same
    exact List.map_injective_iff.mpr py_injective same
  · rintro rfl
    rfl

/-- Lists of what is found at distinct places are equal only if the findings are. -/
theorem eq_of_filterMap_eq {α β γ : Type} {items : List α} {find other : α → Option β}
    {place : α → γ} {tag : β → γ}
    (tagged : ∀ item found, find item = some found → tag found = place item)
    (tagged' : ∀ item found, other item = some found → tag found = place item)
    (distinct : (items.map place).Nodup) (same : items.filterMap find = items.filterMap other) :
    ∀ item ∈ items, find item = other item := by
  induction items with
  | nil => exact fun _ never => absurd never List.not_mem_nil
  | cons item rest ih =>
    obtain ⟨apart, distinct⟩ := List.nodup_cons.mp distinct
    -- What is found at the first place is not found at a later one.
    have foreign (search : α → Option β)
        (own : ∀ item found, search item = some found → tag found = place item) {found : β}
        (here : tag found = place item) : found ∉ rest.filterMap search := by
      intro member
      obtain ⟨later, later_mem, there⟩ := List.mem_filterMap.mp member
      exact apart (List.mem_map.mpr ⟨later, later_mem, (own later found there).symm.trans here⟩)
    have both : find item = other item ∧ rest.filterMap find = rest.filterMap other := by
      cases one : find item with
      | none =>
        cases two : other item with
        | none => simpa [one, two] using same
        | some found =>
          rw [List.filterMap_cons_none one, List.filterMap_cons_some two] at same
          exact absurd (same ▸ List.mem_cons_self) (foreign find tagged (tagged' item found two))
      | some found =>
        cases two : other item with
        | none =>
          rw [List.filterMap_cons_some one, List.filterMap_cons_none two] at same
          exact absurd (same ▸ List.mem_cons_self) (foreign other tagged' (tagged item found one))
        | some found' => simpa [one, two] using same
    intro wanted member
    rcases List.mem_cons.mp member with rfl | member
    · exact both.1
    · exact ih distinct both.2 wanted member

/-- Alike bodies have the same members. -/
theorem lookup_alike (alike : AlikeMembers first second) (name : Str) :
    (first.lookup name).isSome = (second.lookup name).isSome := by
  have names : first.map Prod.fst = second.map Prod.fst := by
    induction first generalizing second with
    | nil =>
      cases alike
      rfl
    | cons member rest ih =>
      cases alike with
      | secret _ _ _ members => exact congrArg (List.cons _) (ih members)
      | plain _ _ members => exact congrArg (List.cons _) (ih members)
  have present (fields : List (Str × PyValue)) :
      (fields.lookup name).isSome = (fields.map Prod.fst).contains name := by
    induction fields with
    | nil => rfl
    | cons member rest ih =>
      rw [List.lookup_cons, List.map_cons, List.contains_cons, ← ih]
      cases name == member.1 <;> rfl
  rw [present, present, names]

theorem fieldError_present (found : first.lookup field.name = some value) :
    fieldError framework first field = (framework.strError field.minLength value).map fun type =>
      framework.error type [.name (str "body"), .name field.name] field.minLength value := by
  simp only [fieldError, found]

theorem fieldError_missing (missing : first.lookup field.name = none) :
    fieldError framework first field = some (framework.error (str "missing")
      [.name (str "body"), .name field.name] field.minLength (.dict first)) := by
  simp only [fieldError, missing]

theorem fieldError_loc {error : ErrorDetails} (fields : List (Str × PyValue)) (field : FieldInfo)
    (reported : fieldError framework fields field = some error) :
    error.loc = [.name (str "body"), .name field.name] := by
  cases given : fields.lookup field.name with
  | none =>
    rw [fieldError_missing given] at reported
    cases reported
    rfl
  | some value =>
    rw [fieldError_present given] at reported
    obtain ⟨type, _, rfl⟩ := Option.map_eq_some_iff.mp reported
    rfl

end Entries

/-! ## Two runs -/

section Runs

variable {framework : Framework} {first second : List (Str × PyValue)} {field : FieldInfo}
variable {value : PyValue} {model : Model}

/-- A field with a value has the same error in both, unless different values are reported. -/
theorem present_field_iff (alike : AlikeMembers first second)
    (found : first.lookup field.name = some value)
    (kinds : (fieldError framework first field).map kind =
      (fieldError framework second field).map kind) :
    fieldError framework first field = fieldError framework second field ↔
      framework.strError field.minLength value = none ∨ second.lookup field.name = some value := by
  have both := lookup_alike alike field.name
  obtain ⟨value', found'⟩ := Option.isSome_iff_exists.mp (both ▸ found ▸ rfl :
    (second.lookup field.name).isSome = true)
  constructor
  · intro same
    rw [fieldError_present found, fieldError_present found'] at same
    cases error : framework.strError field.minLength value with
    | none => exact .inl rfl
    | some type =>
      rw [error, Option.map_some] at same
      obtain ⟨type', _, entry⟩ := Option.map_eq_some_iff.mp same.symm
      obtain rfl : value' = value := congrArg ErrorDetails.input entry
      exact .inr found'
  · rintro (valid | agree)
    · have none_first : fieldError framework first field = none := by
        rw [fieldError_present found, valid, Option.map_none]
      rw [none_first, Option.map_none] at kinds
      rw [none_first, Option.map_eq_none_iff.mp kinds.symm]
    · rw [fieldError_present found, fieldError_present agree]

/-- A missing field has the same error in both only if the bodies are the same. -/
theorem missing_field (alike : AlikeMembers first second)
    (missing : first.lookup field.name = none)
    (same : fieldError framework first field = fieldError framework second field) :
    first = second := by
  have missing' : second.lookup field.name = none := by
    have both := lookup_alike alike field.name
    rw [missing, Option.isSome_none] at both
    simpa using both.symm
  rw [fieldError_missing missing, fieldError_missing missing'] at same
  exact PyValue.dict.inj (congrArg ErrorDetails.input (Option.some.inj same))

/-- The places of a model's fields differ if their names do. -/
theorem places_distinct (distinct : (model.map FieldInfo.name).Nodup) :
    (model.map fun field => [Location.name (str "body"), .name field.name]).Nodup := by
  have apart : Function.Injective fun name => [Location.name (str "body"), .name name] := by
    intro one other same
    simpa using same
  have whole := List.Nodup.map apart distinct
  rwa [List.map_map] at whole

theorem concealed_iff (distinct : (model.map FieldInfo.name).Nodup)
    (alike : AlikeMembers first second)
    (kinds : (model.filterMap (fieldError framework first)).map kind =
      (model.filterMap (fieldError framework second)).map kind) :
    model.filterMap (fieldError framework first) = model.filterMap (fieldError framework second) ↔
      Concealed framework model (.dict first) (.dict second) := by
  have located (fields : List (Str × PyValue)) (field : FieldInfo) (found : List Location × Str)
      (reported : (fieldError framework fields field).map kind = some found) :
      found.1 = [.name (str "body"), .name field.name] := by
    obtain ⟨error, entry, rfl⟩ := Option.map_eq_some_iff.mp reported
    exact fieldError_loc fields field entry
  have fields_kinds : ∀ field ∈ model, (fieldError framework first field).map kind =
      (fieldError framework second field).map kind := by
    rw [List.map_filterMap, List.map_filterMap] at kinds
    exact eq_of_filterMap_eq (located first) (located second) (places_distinct distinct) kinds
  constructor
  · intro same
    have fields_same := eq_of_filterMap_eq (fun field _ => fieldError_loc first field)
      (fun field _ => fieldError_loc second field) (places_distinct distinct) same
    by_cases equal : first = second
    · exact .inl equal
    · refine .inr fun field member => ?_
      cases found : first.lookup field.name with
      | none => exact absurd (missing_field alike found (fields_same field member)) equal
      | some value =>
        exact ⟨value, rfl, (present_field_iff alike found (fields_kinds field member)).mp
          (fields_same field member)⟩
  · rintro (rfl | concealed)
    · rfl
    · apply List.filterMap_congr
      intro field member
      obtain ⟨value, found, agrees⟩ := concealed field member
      exact (present_field_iff alike found (fields_kinds field member)).mpr agrees

/-- **Secrets stay out of the document** exactly where no entry reports a value in which the
bodies differ. -/
theorem secrets_concealed_iff (framework : Framework) (route : Route) (first second : PyValue)
    (alike : Alike first second)
    (kinds : (bodyErrors framework route.model first).map kind =
      (bodyErrors framework route.model second).map kind) (requestId : Str) :
    documentMembers requestId (bodyErrors framework route.model first) =
        documentMembers requestId (bodyErrors framework route.model second) ↔
      Concealed framework route.model first second := by
  rw [documentMembers_inj]
  cases alike with
  | refl =>
    refine iff_of_true rfl ?_
    cases first with
    | dict fields => exact .inl rfl
    | _ => rfl
  | list items =>
    constructor
    · intro same
      exact congrArg ErrorDetails.input (List.cons.inj same).1
    · intro same
      rw [show PyValue.list _ = PyValue.list _ from same]
  | dict members =>
    have distinct : (route.model.map FieldInfo.name).Nodup := by
      cases route <;> decide
    exact concealed_iff distinct members kinds

end Runs

/-- A login with an invalid username. -/
def invalidUsername (password : String) : PyValue :=
  .dict [(str "username", .int 5), (str "password", .str (str password))]

theorem passwords_are_concealed : documentMembers (str "id")
      (bodyErrors documented (Route.model .login) (invalidUsername "secret one")) =
    documentMembers (str "id")
      (bodyErrors documented (Route.model .login) (invalidUsername "secret two")) := by
  have alike : Alike (invalidUsername "secret one") (invalidUsername "secret two") :=
    .dict (.plain _ (.refl _) (.secret (by decide) _ _ .nil))
  refine (secrets_concealed_iff documented .login _ _ alike (by decide +kernel)
    _).mpr (.inr fun field member => ?_)
  simp only [Route.model, loginRequest, List.mem_cons, List.not_mem_nil, or_false] at member
  rcases member with rfl | rfl
  · exact ⟨.int 5, rfl, .inr rfl⟩
  · have valid : documented.strError none (.str (str "secret one")) = none := rfl
    exact ⟨.str (str "secret one"), rfl, .inl valid⟩

/-- A registration with a password that is too short. -/
def shortPassword (password : String) : PyValue :=
  .dict [(str "email", .str (str "a@b.c")), (str "password", .str (str password))]

theorem short_passwords_are_disclosed :
    Alike (shortPassword "short1") (shortPassword "short2") ∧
    (bodyErrors documented (Route.model .register) (shortPassword "short1")).map kind =
      (bodyErrors documented (Route.model .register) (shortPassword "short2")).map kind ∧
    documentMembers (str "id")
        (bodyErrors documented (Route.model .register) (shortPassword "short1")) ≠
      documentMembers (str "id")
        (bodyErrors documented (Route.model .register) (shortPassword "short2")) := by
  refine ⟨.dict (.plain _ (.refl _) (.secret (by decide) _ _ .nil)),
    by decide +kernel, fun same => ?_⟩
  have inputs := congrArg (List.map ErrorDetails.input) (documentMembers_inj.mp same)
  have texts : [PyValue.str (str "short1")] = [PyValue.str (str "short2")] := inputs
  simp only [List.cons.injEq, PyValue.str.injEq, and_true] at texts
  exact absurd texts (by decide)

end BackendFoundation.SecretDisclosure
