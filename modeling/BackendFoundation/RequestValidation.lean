import BackendFoundation.EdgeResponses

/-! Requests to `app/auth/api.py` whose body is rejected: what FastAPI makes of the bytes,
the errors that pydantic finds in them, and the document of `validation_error_handler`
that shows them. What FastAPI and pydantic decide for themselves is a parameter. -/
namespace BackendFoundation.RequestValidation
open PythonValues HttpResponses MiddlewareStack EdgeResponses

/-! ## Values -/

/-- A Python value. A float is known by its `repr`; `nonFinite` are `nan` and the
infinities, which `json.loads` admits, and `object` is anything that is none of these. -/
inductive PyValue where
  | none
  | bool (value : Bool)
  | int (value : Int)
  | float (repr : Str)
  | nonFinite (repr : Str)
  | str (value : Str)
  | bytes (value : List UInt8)
  | list (items : List PyValue)
  | dict (fields : List (Str × PyValue))
  | object (tag : ℕ)

mutual

/-- The JSON value that `json.dumps(value, allow_nan=False)` renders, unless it raises. -/
def json? : PyValue → Option Json
  | .none => some .null
  | .bool value => some (.bool value)
  | .int value => some (.int value)
  | .float repr => some (.float (repr == str "0.0" || repr == str "-0.0"))
  | .nonFinite _ => none
  | .str value => some (.str value)
  | .bytes _ => none
  | .list items => (jsonItems? items).map .arr
  | .dict fields => (jsonFields? fields).map .obj
  | .object _ => none

def jsonItems? : List PyValue → Option (List Json)
  | [] => some []
  | item :: rest => do return (← json? item) :: (← jsonItems? rest)

def jsonFields? : List (Str × PyValue) → Option (List (Str × Json))
  | [] => some []
  | field :: rest => do return (← jsonField? field) :: (← jsonFields? rest)

def jsonField? : Str × PyValue → Option (Str × Json)
  | (name, value) => do return (name, ← json? value)

end

/-- The value as `JSONResponse` meets it. -/
def toValue (value : PyValue) : Value :=
  match json? value with
  | some json => .json json
  | none => .object 0

/-! ## Errors -/

inductive Location where
  | name (name : Str)
  | index (index : ℕ)
  deriving DecidableEq

def Location.py : Location → PyValue
  | .name text => .str text
  | .index position => .int position

/-- An entry of `errors()`, without the `url` that FastAPI leaves out. -/
structure ErrorDetails where
  type : Str
  loc : List Location
  msg : Str
  input : PyValue
  ctx : Option (List (Str × PyValue))

def ErrorDetails.py (error : ErrorDetails) : PyValue :=
  .dict ([(str "type", .str error.type), (str "loc", .list (error.loc.map Location.py)),
      (str "msg", .str error.msg), (str "input", error.input)] ++
    error.ctx.toList.map fun ctx => (str "ctx", .dict ctx))

/-- What `json.loads` makes of the bytes of a body: a value, the position and the message
of a `JSONDecodeError`, or any other exception. -/
inductive Loaded where
  | value (value : PyValue)
  | decodeError (pos : ℕ) (msg : Str)
  | failed

/-- FastAPI and pydantic: which content types make a body JSON, how it is parsed, which
error a `str` field with this minimal length has with a value, and the message and the
context that an error of a type has under such a field. -/
structure Framework where
  isJson : Option Str → Bool
  loads : List UInt8 → Loaded
  strError : Option ℕ → PyValue → Option Str
  message : Str → Option ℕ → Str
  context : Str → Option ℕ → Option (List (Str × PyValue))

namespace Framework

variable (framework : Framework)

def error (type : Str) (loc : List Location) (minLength : Option ℕ) (input : PyValue) :
    ErrorDetails :=
  { type, loc, input
    msg := framework.message type minLength
    ctx := framework.context type minLength }

end Framework

/-! ## The models of `app/auth/api.py`, whose fields are all required strings -/

structure FieldInfo where
  name : Str
  minLength : Option ℕ := none

abbrev Model := List FieldInfo

def registerRequest : Model := [⟨str "email", none⟩, ⟨str "password", some 8⟩]
def loginRequest : Model := [⟨str "username", none⟩, ⟨str "password", none⟩]
def refreshRequest : Model := [⟨str "refresh_token", none⟩]
def logoutRequest : Model := [⟨str "refresh_token", none⟩]

inductive Route where
  | register
  | login
  | refresh
  | logout

def Route.model : Route → Model
  | .register => registerRequest
  | .login => loginRequest
  | .refresh => refreshRequest
  | .logout => logoutRequest

section Validation

variable (framework : Framework)

/-- The error of one field of a body; a missing field is reported with the whole body. -/
def fieldError (fields : List (Str × PyValue)) (field : FieldInfo) : Option ErrorDetails :=
  let loc := [.name (str "body"), .name field.name]
  match fields.lookup field.name with
  | none => some (framework.error (str "missing") loc field.minLength (.dict fields))
  | some value =>
    (framework.strError field.minLength value).map fun type =>
      framework.error type loc field.minLength value

/-- The errors of a body; `None` is as good as no body. -/
def bodyErrors (model : Model) : PyValue → List ErrorDetails
  | .none => [framework.error (str "missing") [.name (str "body")] none .none]
  | .dict fields => model.filterMap (fieldError framework fields)
  | other => [framework.error (str "model_attributes_type") [.name (str "body")] none other]

/-- What FastAPI raises itself. -/
inductive Rejection where
  | validation (errors : List ErrorDetails)
  | unreadable

def readBody (contentType : Option Str) (body : List UInt8) : Except Rejection PyValue :=
  if body = [] then .ok .none
  else if framework.isJson contentType then
    match framework.loads body with
    | .value value => .ok value
    | .decodeError pos msg =>
      .error (.validation [
        { type := str "json_invalid", loc := [.name (str "body"), .index pos]
          msg := str "JSON decode error", input := .dict []
          ctx := some [(str "error", .str msg)] }])
    | .failed => .error .unreadable
  else .ok (.bytes body)

/-- The body that the endpoint is called with. -/
def parseBody (model : Model) (contentType : Option Str) (body : List UInt8) :
    Except Rejection PyValue := do
  let value ← readBody framework contentType body
  match bodyErrors framework model value with
  | [] => return value
  | errors => throw (.validation errors)

end Validation

def errorsValue (errors : List ErrorDetails) : PyValue := .list (errors.map ErrorDetails.py)

def Rejection.raised : Rejection → Raised
  | .validation errors => .validation (toValue (errorsValue errors))
  | .unreadable => .http 400 (text (str "There was an error parsing the body")) []

/-- A route with its model: the request is rejected, or the function of the endpoint runs. -/
def postRoute (framework : Framework) (route : Route) (contentType : Option Str)
    (body : List UInt8) (function : PyValue → Except Raised Response) : Endpoint := fun _ =>
  match parseBody framework route.model contentType body with
  | .ok value => function value
  | .error rejection => .error rejection.raised

/-! ## What can be rendered -/

/-- `JSONResponse` can render the value. -/
def shown (value : PyValue) : Bool := (toValue value).encodes

def Location.shown : Location → Bool
  | .name text => encodable text
  | .index _ => true

def ErrorDetails.shown (error : ErrorDetails) : Bool :=
  encodable error.type && error.loc.all Location.shown && encodable error.msg &&
    RequestValidation.shown error.input &&
      error.ctx.all fun ctx => RequestValidation.shown (.dict ctx)

section Rendering

theorem shown_eq (value : PyValue) : shown value = (json? value).any encodes := by
  unfold shown toValue
  cases json? value <;> rfl

@[simp] theorem shown_str (text : Str) : shown (.str text) = encodable text := rfl

@[simp] theorem shown_int (n : Int) : shown (.int n) = true := rfl

private theorem items_shown (items : List PyValue) :
    (jsonItems? items).any encodesItems = items.all shown := by
  induction items with
  | nil => rfl
  | cons item rest ih =>
    rw [List.all_cons, ← ih, shown_eq, jsonItems?]
    cases json? item with
    | none => rfl
    | some json =>
      cases jsonItems? rest with
      | none => simp
      | some more => simp [encodesItems]

@[simp] theorem shown_list (items : List PyValue) : shown (.list items) = items.all shown := by
  rw [shown_eq, ← items_shown, json?]
  cases jsonItems? items <;> rfl

private theorem fields_shown (fields : List (Str × PyValue)) :
    (jsonFields? fields).any encodesFields =
      fields.all fun field => encodable field.1 && shown field.2 := by
  induction fields with
  | nil => rfl
  | cons field rest ih =>
    rw [List.all_cons, ← ih, shown_eq, jsonFields?, jsonField?]
    cases json? field.2 with
    | none => simp
    | some json =>
      cases jsonFields? rest with
      | none => simp
      | some more => simp [encodesFields, encodesField]

@[simp] theorem shown_dict (fields : List (Str × PyValue)) :
    shown (.dict fields) = fields.all fun field => encodable field.1 && shown field.2 := by
  rw [shown_eq, ← fields_shown, json?]
  cases jsonFields? fields <;> rfl

theorem shown_py (error : ErrorDetails) : shown error.py = error.shown := by
  have located : ∀ location : Location, shown location.py = location.shown := by
    intro location
    cases location <;> rfl
  unfold ErrorDetails.py ErrorDetails.shown
  cases error.ctx with
  | none => simp [List.all_map, Function.comp_def, located, Bool.and_assoc]
  | some ctx => simp [List.all_map, Function.comp_def, located, Bool.and_assoc]

/-- A list of errors is rendered when each of them is. -/
theorem errorsValue_shown (errors : List ErrorDetails) :
    (toValue (errorsValue errors)).encodes = errors.all ErrorDetails.shown := by
  change shown (errorsValue errors) = _
  rw [errorsValue, shown_list, List.all_map]
  congr 1
  funext error
  exact shown_py error

end Rendering

/-! ## The answer to a rejected request -/

/-- The document of `validation_error_handler` for these errors. -/
structure IsValidationDocument (requestId : Str) (errors : List ErrorDetails)
    (response : Response) : Prop where
  status : response.status = 422
  document : ∃ fields, IsDocument response fields ∧
    fields.get? "title" = some (text (str "Validation error")) ∧
    fields.get? "detail" = some (text (str "The request body or parameters are invalid.")) ∧
    fields.get? "code" = some (text (str "validation-error")) ∧
    fields.get? "status" = some (.json (.int 422)) ∧
    fields.get? "request_id" = some (text requestId) ∧
    fields.get? "errors" = some (toValue (errorsValue errors))

section Answers

variable {cors : Cors} {requestId : Str} {request : MiddlewareStack.Request}
variable {errors : List ErrorDetails}

theorem errorsValue_isNone (errors : List ErrorDetails) :
    (toValue (errorsValue errors)).isNone = false := by
  unfold toValue errorsValue
  rw [json?]
  cases jsonItems? (errors.map ErrorDetails.py) <;> rfl

theorem answered_rejection (rejection : Rejection) : answered rejection.raised =
    match rejection with
    | .validation errors => errors.all ErrorDetails.shown
    | .unreadable => true := by
  cases rejection with
  | validation errors =>
    simp only [Rejection.raised, answered, errorsValue_isNone, Bool.false_or, errorsValue_shown]
  | unreadable => rfl

/-- The handler's document. -/
theorem validationErrorHandler_eq (identified : encodable requestId = true)
    (rendered : errors.all ErrorDetails.shown = true) :
    validationErrorHandler requestId (toValue (errorsValue errors)) = some
      ⟨422, [(str "x-request-id", requestId), (str "content-type", str mediaType)],
        .json [(str "type", text (str "about:blank")), (str "title", text (str "Validation error")),
          (str "status", .json (.int 422)),
          (str "detail", text (str "The request body or parameters are invalid.")),
          (str "code", text (str "validation-error")), (str "request_id", text requestId),
          (str "errors", toValue (errorsValue errors))]⟩ := by
  have present := errorsValue_isNone errors
  rw [← errorsValue_shown] at rendered
  unfold validationErrorHandler
  rw [problemResponse_eq, if_pos]
  · simp [ProblemDetails.modelDump, present]
  · simp [Fields.encodes, ProblemDetails.modelDump, identified, rendered, present]

theorem answer_validation (identified : encodable requestId = true)
    (reached : cors.preflight request = none) (rendered : errors.all ErrorDetails.shown = true) :
    ∃ response, answer cors requestId request (.error (Rejection.validation errors).raised) =
      some response ∧ IsValidationDocument requestId errors response := by
  have made : handled requestId (Rejection.validation errors).raised = _ :=
    validationErrorHandler_eq identified rendered
  unfold answer
  rw [reached]
  dsimp only
  rw [made]
  refine ⟨_, rfl, cors.simple_status _ _, _, isDocument_simple.mpr ⟨?_, rfl⟩, rfl, rfl, rfl, rfl,
    rfl, rfl⟩
  simp [Headers.values]

/-- The middlewares outside the handlers leave the document as it is. -/
theorem isValidationDocument_outside {enabled : Bool} {response : Response}
    (document : IsValidationDocument requestId errors response) :
    IsValidationDocument requestId errors
      ((if enabled then Response.secured response else response).setHeader "x-request-id"
        requestId) := by
  obtain ⟨status, fields, isDocument, members⟩ := document
  exact ⟨status_outside.trans status, fields, isDocument_outside.mpr isDocument, members⟩

end Answers

section Client

variable {settings : Settings} {uuid4 : ℕ → UUID} {endpoint : Endpoint} {call : Call}

/-- The handler registered for the exception does not raise itself, and the client receives
a response of this kind. -/
def Rendered (settings : Settings) (uuid4 : ℕ → UUID) (endpoint : Endpoint) (call : Call)
    (raised : Raised) (meets : Response → Prop) : Prop :=
  (handled (correlationId (uuid4 0) call.request) raised).isSome = true ∧
    ∃ response, (createApp settings uuid4 endpoint call).result = .ok response ∧ meets response

/-- The rejection is answered with the document of its errors. -/
def RejectionRendered (settings : Settings) (uuid4 : ℕ → UUID) (endpoint : Endpoint)
    (call : Call) (rejection : Rejection) : Prop :=
  ∃ errors, rejection = .validation errors ∧
    Rendered settings uuid4 endpoint call rejection.raised
      (IsValidationDocument (correlationId (uuid4 0) call.request) errors)

/-- FastAPI reports errors, and JSON has a rendering of each. -/
def Rejection.Showable (rejection : Rejection) : Prop :=
  ∃ errors, rejection = .validation errors ∧ errors.all ErrorDetails.shown = true

theorem rejection_rendered_iff (reached : settings.cors.preflight call.request = none)
    {rejection : Rejection}
    (raises : endpoint (entered (correlationId (uuid4 0) call.request) call) =
      .error rejection.raised) :
    RejectionRendered settings uuid4 endpoint call rejection ↔ rejection.Showable := by
  have identified : encodable (correlationId (uuid4 0) call.request) = true :=
    correlationId_encodable
  constructor
  · rintro ⟨errors, rfl, returns, -⟩
    rw [handled_isSome identified, answered_rejection] at returns
    exact ⟨errors, rfl, returns⟩
  · rintro ⟨errors, rfl, rendered⟩
    refine ⟨errors, rfl, ?_, ?_⟩
    · rw [handled_isSome identified, answered_rejection]
      exact rendered
    · obtain ⟨response, made, document⟩ := answer_validation identified reached rendered
      rw [← raises] at made
      obtain ⟨cors, enabled⟩ := settings
      rw [createApp_of_answer rfl made]
      exact ⟨_, rfl, isValidationDocument_outside document⟩

theorem appError_rendered_iff (reached : settings.cors.preflight call.request = none)
    {error : AppError}
    (raises : endpoint (entered (correlationId (uuid4 0) call.request) call) =
      .error (.app error)) :
    (Rendered settings uuid4 endpoint call (.app error) fun response =>
      response.status = error.status) ↔ renders error = true := by
  have identified : encodable (correlationId (uuid4 0) call.request) = true :=
    correlationId_encodable
  rw [Rendered, handled_isSome identified]
  constructor
  · exact fun received => received.1
  · intro rendered
    refine ⟨rendered, ?_⟩
    obtain ⟨response, fields, made, status, -⟩ := answer_appError identified reached rendered
    rw [← raises] at made
    obtain ⟨cors, enabled⟩ := settings
    rw [createApp_of_answer rfl made]
    exact ⟨_, rfl, status_outside.trans status⟩

/-- What a handler cannot render is answered with the generic 500. -/
theorem generic_of_unanswered (reached : settings.cors.preflight call.request = none)
    {raised : Raised}
    (raises : endpoint (entered (correlationId (uuid4 0) call.request) call) = .error raised)
    (raisesItself : answered raised = false) : (createApp settings uuid4 endpoint call).result =
      .ok (sanitized (correlationId (uuid4 0) call.request)) := by
  have unmade : answer settings.cors (correlationId (uuid4 0) call.request) call.request
      (endpoint (entered (correlationId (uuid4 0) call.request) call)) = none := by
    rw [← Option.not_isSome_iff_eq_none, answer_isSome correlationId_encodable, reached, raises]
    simp [settles, raisesItself]
  obtain ⟨cors, enabled⟩ := settings
  rw [createApp_of_unanswered rfl unmade]

theorem postRoute_rejects {framework : Framework} {route : Route} {contentType : Option Str}
    {body : List UInt8} {rejection : Rejection}
    (rejects : parseBody framework route.model contentType body = .error rejection)
    (function : PyValue → Except Raised Response) (call : Call) :
    postRoute framework route contentType body function call = .error rejection.raised := by
  simp only [postRoute, rejects]

end Client

/-- **A typed error is rendered as itself** when JSON has a rendering of what it shows: of
every value reported with a rejected body or parameter, and of the texts and the extras of
an `AppError`. -/
theorem typed_errors_rendered_iff (settings : Settings) (uuid4 : ℕ → UUID) (call : Call)
    (reached : settings.cors.preflight call.request = none) :
    (∀ framework route contentType body function rejection,
      parseBody framework (Route.model route) contentType body = .error rejection →
        (RejectionRendered settings uuid4 (postRoute framework route contentType body function)
          call rejection ↔ rejection.Showable)) ∧
    (∀ endpoint errors,
      endpoint (entered (correlationId (uuid4 0) call.request) call) =
          .error (Rejection.validation errors).raised →
        (RejectionRendered settings uuid4 endpoint call (.validation errors) ↔
          errors.all ErrorDetails.shown = true)) ∧
    ∀ endpoint error,
      endpoint (entered (correlationId (uuid4 0) call.request) call) = .error (.app error) →
        ((Rendered settings uuid4 endpoint call (.app error) fun response =>
          response.status = error.status) ↔ renders error = true) := by
  refine ⟨fun framework route contentType body function rejection rejects => ?_,
    fun endpoint errors raises => ?_, fun endpoint error raises => ?_⟩
  · exact rejection_rendered_iff reached (postRoute_rejects rejects function _)
  · rw [rejection_rendered_iff reached raises]
    constructor
    · rintro ⟨_, ⟨⟩, rendered⟩
      exact rendered
    · exact fun rendered => ⟨errors, rfl, rendered⟩
  · exact appError_rendered_iff reached raises

/-- FastAPI and pydantic as they are documented, for bodies that are `{}`. -/
def documented : Framework where
  isJson contentType := contentType == some (str "application/json")
  loads body := if body = [123, 125] then .value (.dict []) else .failed
  strError
    | some minLength, .str text =>
      if encodable text = false then some (str "string_unicode")
      else if text.length < minLength then some (str "string_too_short")
      else none
    | none, .str _ => none
    | _, _ => some (str "string_type")
  message type minLength :=
    if type = str "missing" then str "Field required"
    else if type = str "string_type" then str "Input should be a valid string"
    else if type = str "string_too_short" then
      str "String should have at least " ++ str (toString (minLength.getD 0)) ++ str " characters"
    else if type = str "string_unicode" then
      str "Input should be a valid string, unable to parse raw data as a unicode string"
    else str "Input should be a valid dictionary or object to extract fields from"
  context type minLength :=
    if type = str "string_too_short" then some [(str "min_length", .int (minLength.getD 0))]
    else none

/-- The errors of an empty object at the login. -/
theorem empty_login_is_rendered : RejectionRendered ⟨sameOrigin, true⟩ (fun _ => sampleUuid)
    (postRoute documented .login (some (str "application/json")) [123, 125] fun _ => .error .other)
    sampleCall (.validation (bodyErrors documented loginRequest (.dict []))) :=
  ((typed_errors_rendered_iff ⟨sameOrigin, true⟩ (fun _ => sampleUuid) sampleCall rfl).1 documented
    .login (some (str "application/json")) [123, 125] _ _ rfl).mpr ⟨_, rfl, by decide +kernel⟩

/-- The login with a body that is not JSON. -/
def plainLogin : Endpoint :=
  postRoute documented .login (some (str "text/plain")) [120] fun _ => .error .other

/-- The body is reported as bytes, which the handler cannot render. -/
theorem plain_body_is_generic : ∃ rejection response,
    parseBody documented loginRequest (some (str "text/plain")) [120] = .error rejection ∧
      (createApp ⟨sameOrigin, true⟩ (fun _ => sampleUuid) plainLogin sampleCall).result =
        .ok response ∧ response.status = 500 ∧
      ¬ RejectionRendered ⟨sameOrigin, true⟩ (fun _ => sampleUuid) plainLogin sampleCall
        rejection := by
  have rejects : parseBody documented (Route.model .login) (some (str "text/plain")) [120] =
      .error (.validation (bodyErrors documented loginRequest (.bytes [120]))) := rfl
  have generic : (createApp ⟨sameOrigin, true⟩ (fun _ => sampleUuid) plainLogin sampleCall).result =
      .ok (sanitized (correlationId sampleUuid sampleCall.request)) :=
    generic_of_unanswered rfl (postRoute_rejects rejects _ _) (by decide +kernel)
  refine ⟨_, _, rejects, generic, rfl, ?_⟩
  rintro ⟨errors, -, -, response, received, document⟩
  obtain rfl := Except.ok.inj (received.symm.trans generic)
  exact absurd document.status (by decide)

end BackendFoundation.RequestValidation
