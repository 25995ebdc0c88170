import BackendFoundation.MiddlewareStack

/-! What reaches a client through the stack. The id that the correlation middleware
resolves on entry is on every response and in every document of the handlers; the
security headers and the access log are on the responses that are made inside their
middlewares, which the answer to an unhandled exception is not. -/
namespace BackendFoundation.EdgeResponses
open PythonValues HttpResponses MiddlewareStack

section Dictionaries

variable {α : Type} {name : Str} {value : α} {items : List (Str × α)}

private theorem mem_of_lookup (found : items.lookup name = some value) : (name, value) ∈ items := by
  obtain ⟨before, after, rfl, _⟩ := List.lookup_eq_some_iff.mp found
  simp

/-- A dictionary has one value for a key. -/
private theorem lookup_of_mem (unique : (items.map Prod.fst).Nodup) (member : (name, value) ∈ items) :
    items.lookup name = some value := by
  obtain ⟨before, after, rfl⟩ := List.append_of_mem member
  apply List.lookup_eq_some_iff.mpr
  refine ⟨before, after, rfl, fun other there => ?_⟩
  rw [List.map_append, List.nodup_append] at unique
  have apart := unique.2.2 other.1 (List.mem_map_of_mem there) name (by simp)
  simpa using apart.symm

private theorem lookup_filter_of_excluded {kept : Str × α → Bool}
    (excluded : ∀ value, kept (name, value) = false) : (items.filter kept).lookup name = none := by
  cases found : (items.filter kept).lookup name with
  | none => rfl
  | some value =>
    have kept_ := (List.mem_filter.mp (mem_of_lookup found)).2
    rw [excluded value] at kept_
    cases kept_

end Dictionaries

section Ids

variable {request : Request} {uuid4 : UUID}

private theorem encodable_of_latin1 {s : Str} (latin1 : ∀ c ∈ s, c.val < 256) : encodable s = true := by
  simp only [encodable, List.all_eq_true, Bool.or_eq_true, decide_eq_true_eq]
  intro c member
  have small := latin1 c member
  omega

private theorem encodable_toStr (id : UUID) : encodable id.toStr = true := by
  apply encodable_of_latin1
  intro c member
  rcases id.mem_toStr c member with isHex | rfl
  · unfold IsHexChar at isHex
    omega
  · decide

/-- The id is the inbound header's or the text of a fresh UUID. -/
private theorem correlationId_cases : correlationId uuid4 request = uuid4.toStr ∨
    ∃ inboundId, inboundId ≠ [] ∧ (str "x-request-id", inboundId) ∈ request.headers ∧
      correlationId uuid4 request = inboundId := by
  unfold correlationId
  cases found : request.headers.lookup (str "x-request-id") with
  | none => exact .inl rfl
  | some inboundId =>
    dsimp only
    by_cases empty : inboundId = []
    · rw [if_pos empty]
      exact .inl rfl
    · rw [if_neg empty]
      cases UUID.ofStr inboundId with
      | none => exact .inl rfl
      | some id => exact .inr ⟨inboundId, empty, mem_of_lookup found, rfl⟩

theorem correlationId_ne_nil : correlationId uuid4 request ≠ [] := by
  rcases correlationId_cases with fresh | ⟨inboundId, nonempty, _, echoed⟩
  · rw [fresh]
    exact uuid4.toStr_ne_nil
  · rw [echoed]
    exact nonempty

theorem correlationId_encodable : encodable (correlationId uuid4 request) = true := by
  rcases correlationId_cases with fresh | ⟨inboundId, _, received, echoed⟩
  · rw [fresh]
    exact encodable_toStr uuid4
  · rw [echoed]
    exact encodable_of_latin1 (request.latin1 _ received)

end Ids

/-! ## Documents -/

/-- JSON has a rendering of the error's members and of the extras that are shown. -/
def renders (error : AppError) : Bool :=
  encodable error.title && error.detail.all encodable && encodable error.code &&
    error.extras.all fun field =>
      reservedFields.contains field.1 || field.2.isNone || encodable field.1 && field.2.encodes

/-- The members of a document that describe an error. -/
structure Describes (error : AppError) (fields : Fields) : Prop where
  type : fields.get? "type" = some (text (str "about:blank"))
  title : fields.get? "title" = some (text error.title)
  detail : fields.get? "detail" = error.detail.map text
  code : fields.get? "code" = some (text error.code)
  noInstance : fields.get? "instance" = none
  extras : ∀ field ∈ error.extras, field.1 ∉ reservedFields → field.2.isNone = false →
    fields.lookup field.1 = some field.2

section Documents

variable {error : AppError} {requestId : Str}

theorem modelDump_encodes (shown : encodable requestId = true) :
    (fromAppError error (some requestId)).modelDump.encodes = renders error := by
  unfold fromAppError ProblemDetails.modelDump Fields.encodes renders
  simp only [List.all_append, List.all_cons, List.all_nil, Bool.and_true, List.all_filter]
  have extras : (error.extras.all fun field => !!reservedFields.contains field.1 ||
      (!!field.2.isNone || encodable field.1 && field.2.encodes)) =
      error.extras.all fun field =>
        reservedFields.contains field.1 || field.2.isNone || encodable field.1 && field.2.encodes := by
    congr 1
    funext field
    rw [Bool.not_not, Bool.not_not, Bool.or_assoc]
  rw [extras]
  cases error.detail with
  | none => simp [shown]
  | some detail => simp [shown]

/-- The members of the document that are not extras. -/
private def canonical (error : AppError) (requestId : Str) : Fields :=
  [(str "type", text (str "about:blank")), (str "title", text error.title),
      (str "status", .json (.int error.status))] ++
    error.detail.toList.map (fun detail => (str "detail", text detail)) ++
    [(str "code", text error.code), (str "request_id", text requestId)]

/-- The extras that the document takes. -/
private def shownExtras (error : AppError) : Fields :=
  (error.extras.filter fun field => !reservedFields.contains field.1).filter
    fun field => !field.2.isNone

private theorem modelDump_eq : (fromAppError error (some requestId)).modelDump =
    canonical error requestId ++ shownExtras error := by
  simp [fromAppError, ProblemDetails.modelDump, canonical, shownExtras]

private theorem canonical_reserved {field : Str × Value} (member : field ∈ canonical error requestId) :
    field.1 ∈ reservedFields := by
  unfold canonical at member
  cases detail : error.detail <;> simp only [detail, Option.toList, List.map_nil, List.map_cons,
    List.cons_append, List.nil_append, List.append_nil, List.mem_cons, List.not_mem_nil, or_false]
    at member <;> rcases member with rfl | rfl | rfl | rfl | rfl | rfl <;> simp [reservedFields]

/-- A reserved member is the document's own, whatever the extras. -/
theorem get?_reserved {name : String} (reserved : str name ∈ reservedFields) :
    (fromAppError error (some requestId)).modelDump.get? name =
      (canonical error requestId).lookup (str name) := by
  have hidden : (shownExtras error).lookup (str name) = none := by
    unfold shownExtras
    rw [List.filter_filter]
    apply lookup_filter_of_excluded
    intro value
    simp [reserved]
  rw [Fields.get?, modelDump_eq, List.lookup_append, hidden, Option.or_none]

theorem modelDump_describes : Describes error (fromAppError error (some requestId)).modelDump := by
  constructor
  · rw [get?_reserved (by decide)]
    rfl
  · rw [get?_reserved (by decide)]
    rfl
  · rw [get?_reserved (by decide), canonical]
    cases error.detail <;> rfl
  · rw [get?_reserved (by decide), canonical]
    cases error.detail <;> rfl
  · rw [get?_reserved (by decide), canonical]
    cases error.detail <;> rfl
  · intro field member free shown
    have absent : (canonical error requestId).lookup field.1 = none := by
      cases found : (canonical error requestId).lookup field.1 with
      | none => rfl
      | some value => exact absurd (canonical_reserved (mem_of_lookup found)) free
    rw [modelDump_eq, List.lookup_append, absent, Option.none_or]
    apply lookup_of_mem
    · exact error.extras_unique.sublist ((List.filter_sublist.trans List.filter_sublist).map _)
    · simp [shownExtras, member, free, shown]

theorem modelDump_identified :
    (fromAppError error (some requestId)).modelDump.get? "request_id" = some (text requestId) ∧
      (fromAppError error (some requestId)).modelDump.get? "status" =
        some (.json (.int error.status)) := by
  rw [get?_reserved (by decide), get?_reserved (by decide), canonical]
  cases error.detail <;> exact ⟨rfl, rfl⟩

end Documents

/-! ## Answers inside the stack -/

/-- The handler registered for an exception can render its answer. -/
def answered : Raised → Bool
  | .app error => renders error
  | .validation errors => errors.isNone || errors.encodes
  | .http status detail _ =>
    status < 200 ∨ status = 204 ∨ status = 205 ∨ status = 304 ∨ detail.encodes = true
  | .other => false

/-- The answer of the registered handlers. -/
def handled (requestId : Str) (raised : Raised) : Option Response :=
  (handlerFor requestId raised).join

/-- The response that `CORSMiddleware` hands outwards, if there is one. -/
def answer (cors : Cors) (requestId : Str) (request : Request) (ending : Except Raised Response) :
    Option Response :=
  match cors.preflight request, ending with
  | some response, _ => some response
  | none, .ok response => some (cors.simple request response)
  | none, .error raised => (handled requestId raised).map (cors.simple request)

/-- The sanitized 500. -/
def sanitized (requestId : Str) : Response where
  status := 500
  headers := [(str "x-request-id", requestId), (str "content-type", str mediaType)]
  body := .json [(str "type", text (str "about:blank")), (str "title", text (str "Internal server error")),
    (str "status", .json (.int 500)), (str "detail", text (str "An unexpected error occurred.")),
    (str "code", text (str "internal-error")), (str "request_id", text requestId)]

section Handlers

variable {requestId : Str}

theorem problemResponse_eq (problem : ProblemDetails) : problemResponse problem requestId =
    if problem.modelDump.encodes then
      some ⟨problem.status, [(str "x-request-id", requestId), (str "content-type", str mediaType)],
        .json problem.modelDump⟩
    else none := rfl

theorem unhandledExceptionHandler_eq (shown : encodable requestId = true) :
    unhandledExceptionHandler requestId = some (sanitized requestId) := by
  unfold unhandledExceptionHandler
  rw [problemResponse_eq, if_pos]
  · rfl
  · simp [Fields.encodes, ProblemDetails.modelDump, shown]

theorem resolveRequestId_eq (nonempty : requestId ≠ []) (requestIdVar : Str) (uuid4 : UUID) :
    resolveRequestId (some requestId) requestIdVar uuid4 = requestId := by
  simp [resolveRequestId, nonempty]

theorem httpExceptionHandler_isSome (status : Int) (detail : Value) (headers : Headers) :
    (httpExceptionHandler status detail headers).isSome =
      answered (.http status detail headers) := by
  unfold httpExceptionHandler answered
  by_cases bodyless : status < 200 ∨ status = 204 ∨ status = 205 ∨ status = 304
  · rw [if_pos bodyless]
    simp only [Option.isSome_some, true_eq_decide_iff]
    rcases bodyless with low | is | is | is
    all_goals simp [*]
  · rw [if_neg bodyless]
    obtain ⟨high, no_content, reset, unmodified⟩ := by simpa only [not_or] using bodyless
    by_cases shown : detail.encodes = true
    · simp [jsonResponse, Fields.encodes, shown]
    · simp [jsonResponse, Fields.encodes, high, no_content, reset, unmodified, shown]

theorem handled_isSome (shown : encodable requestId = true) (raised : Raised) :
    (handled requestId raised).isSome = answered raised := by
  unfold handled
  cases raised with
  | app error =>
    have dumped : (fromAppError error (some requestId)).modelDump.encodes = renders error :=
      modelDump_encodes shown
    simp only [handlerFor, appErrorHandler, Option.join_some, problemResponse_eq, dumped, answered]
    by_cases rendered : renders error = true
    · simp [rendered]
    · simp [rendered]
  | validation errors =>
    simp only [handlerFor, validationErrorHandler, Option.join_some, problemResponse_eq, answered]
    by_cases absent : errors.isNone = true
    · simp [ProblemDetails.modelDump, Fields.encodes, shown, absent]
    · by_cases rendered : errors.encodes = true
      · simp [ProblemDetails.modelDump, Fields.encodes, shown, absent, rendered]
      · simp [ProblemDetails.modelDump, Fields.encodes, shown, absent, rendered]
  | http status detail headers => exact httpExceptionHandler_isSome status detail headers
  | other => rfl

end Handlers

/-! ## The whole stack -/

/-- The call as the endpoint receives it. -/
def entered (requestId : Str) (call : Call) : Call :=
  { call with stateId := some requestId, requestIdVar := requestId }

section Outcomes

variable {cors : Cors} {enabled : Bool} {uuid4 : ℕ → UUID} {endpoint : Endpoint} {call : Call}
  {requestId : Str} {response : Response}

/-- What leaves the middlewares inside the security headers: the answer, or what was
raised. -/
theorem corsMiddleware_eq (cors : Cors) (uuid4 : UUID) (endpoint : Endpoint) (call : Call)
    (nonempty : requestId ≠ []) :
    ∃ raised, corsMiddleware cors (exceptionMiddleware uuid4 (router endpoint))
        (entered requestId call) =
      ⟨(answer cors requestId call.request (endpoint (entered requestId call))).elim
        (.error raised) .ok, some requestId, requestId, []⟩ := by
  unfold corsMiddleware answer
  have request : (entered requestId call).request = call.request := rfl
  rw [request]
  cases preflight : cors.preflight call.request with
  | some response => exact ⟨.other, rfl⟩
  | none =>
    dsimp only
    unfold exceptionMiddleware router
    cases ending : endpoint (entered requestId call) with
    | ok response => exact ⟨.other, rfl⟩
    | error raised =>
      have resolved : resolveRequestId (entered requestId call).stateId
          (entered requestId call).requestIdVar uuid4 = requestId :=
        resolveRequestId_eq nonempty _ _
      dsimp only
      rw [resolved]
      unfold handled
      cases handler : handlerFor requestId raised with
      | none => exact ⟨raised, rfl⟩
      | some handled =>
        cases handled with
        | none => exact ⟨.other, rfl⟩
        | some response => exact ⟨.other, rfl⟩

/-- A request that is answered inside the stack. -/
theorem createApp_of_answer (resolved : correlationId (uuid4 0) call.request = requestId)
    (made : answer cors requestId call.request (endpoint (entered requestId call)) = some response) :
    createApp ⟨cors, enabled⟩ uuid4 endpoint call =
      ⟨.ok ((if enabled then Response.secured response else response).setHeader "x-request-id"
          requestId), some requestId, call.requestIdVar,
        [.accessLog call.request.method call.request.path response.status]⟩ := by
  have nonempty : requestId ≠ [] := resolved ▸ correlationId_ne_nil
  obtain ⟨raised, inside⟩ := corsMiddleware_eq cors (uuid4 2) endpoint call nonempty
  rw [made] at inside
  rw [createApp_eq, serverErrorMiddleware, correlationMiddleware, resolved]
  unfold callNext accessLogMiddleware callNext securityHeadersMiddleware callNext
  unfold entered at inside
  rw [inside]
  cases enabled with
  | true => rfl
  | false => rfl

/-- A request that is answered outside it. -/
theorem createApp_of_unanswered (resolved : correlationId (uuid4 0) call.request = requestId)
    (unmade : answer cors requestId call.request (endpoint (entered requestId call)) = none) :
    createApp ⟨cors, enabled⟩ uuid4 endpoint call =
      ⟨.ok (sanitized requestId), some requestId, call.requestIdVar,
        [.unhandledException requestId call.request.method]⟩ := by
  have nonempty : requestId ≠ [] := resolved ▸ correlationId_ne_nil
  have shown : encodable requestId = true := resolved ▸ correlationId_encodable
  obtain ⟨raised, inside⟩ := corsMiddleware_eq cors (uuid4 2) endpoint call nonempty
  rw [unmade] at inside
  rw [createApp_eq, serverErrorMiddleware, correlationMiddleware, resolved]
  unfold callNext accessLogMiddleware callNext securityHeadersMiddleware callNext
  unfold entered at inside
  rw [inside]
  simp only [Option.elim_none, Except.map]
  rw [resolveRequestId_eq nonempty, unhandledExceptionHandler_eq shown]
  rfl

end Outcomes

/-! ## Headers on the way out -/

section HeaderSets

variable {response : Response} {pairs : List (String × String)} {name : Str}

private theorem values_setAll_of_absent (absent : ∀ pair ∈ pairs, str pair.1 ≠ name) :
    (pairs.foldl (fun response pair => response.setHeader pair.1 (str pair.2))
      response).headers.values name = response.headers.values name := by
  induction pairs generalizing response with
  | nil => rfl
  | cons pair rest ih =>
    rw [List.foldl_cons, ih fun pair member => absent pair (.tail _ member)]
    exact Headers.values_set_of_ne (absent pair (.head _)).symm

/-- The other headers are what they were. -/
theorem secured_values_of_absent (absent : ∀ header ∈ securityHeaders, str header.1 ≠ name) :
    (Response.secured response).headers.values name = response.headers.values name :=
  values_setAll_of_absent absent

end HeaderSets

/-! ## One correlation id -/

/-- A Problem Details document, by its content type. -/
def IsDocument (response : Response) (fields : Fields) : Prop :=
  str mediaType ∈ response.headers.values (str "content-type") ∧ response.body = .json fields

/-- A document that the endpoint has labelled itself, in the response it returned or in
the headers of an `HTTPException`. -/
def Labelled (fields : Fields) : Except Raised Response → Prop
  | .ok response => IsDocument response fields
  | .error (.http _ _ headers) => str mediaType ∈ headers.values (str "content-type")
  | .error _ => False

/-- A document says the id of its request and the status of its response. -/
structure Identified (requestId : Str) (status : Int) (fields : Fields) : Prop where
  requestId : fields.get? "request_id" = some (text requestId)
  status : fields.get? "status" = some (.json (.int status))

section Handled

variable {requestId : Str} {raised : Raised} {response : Response} {fields : Fields}

private theorem problemResponse_some {problem : ProblemDetails}
    (rendered : problemResponse problem requestId = some response) :
    response = ⟨problem.status,
      [(str "x-request-id", requestId), (str "content-type", str mediaType)],
      .json problem.modelDump⟩ := by
  rw [problemResponse_eq] at rendered
  by_cases encodes : problem.modelDump.encodes = true
  · rw [if_pos encodes] at rendered
    exact (Option.some.inj rendered).symm
  · rw [if_neg encodes] at rendered
    cases rendered

/-- What FastAPI answers to an `HTTPException` is a document only by its headers. -/
private theorem httpExceptionHandler_document {status : Int} {detail : Value} {headers : Headers}
    (answered : httpExceptionHandler status detail headers = some response)
    (document : IsDocument response fields) :
    str mediaType ∈ headers.values (str "content-type") := by
  unfold httpExceptionHandler at answered
  split at answered
  · cases answered
    exact document.1
  · unfold jsonResponse initHeaders at answered
    split at answered
    · cases answered
      have labels := document.1
      dsimp only at labels
      split at labels
      · exact labels
      · rw [Headers.values_append, List.mem_append] at labels
        apply labels.resolve_right
        decide
    · cases answered

/-- The documents of the handlers are identified. -/
theorem handled_document (made : handled requestId raised = some response)
    (document : IsDocument response fields) :
    Labelled fields (.error raised) ∨ Identified requestId response.status fields := by
  unfold handled at made
  cases raised with
  | app error =>
    have built := problemResponse_some (Option.join_eq_some_iff.mp made |> Option.some.inj)
    subst built
    cases document.2
    exact .inr ⟨modelDump_identified.1, modelDump_identified.2⟩
  | validation errors =>
    have built := problemResponse_some (Option.join_eq_some_iff.mp made |> Option.some.inj)
    subst built
    cases document.2
    exact .inr ⟨rfl, rfl⟩
  | http status detail headers =>
    exact .inl (httpExceptionHandler_document (Option.join_eq_some_iff.mp made |> Option.some.inj)
      document)
  | other => cases made

end Handled

section Answers

variable {cors : Cors} {enabled : Bool} {uuid4 : ℕ → UUID} {endpoint : Endpoint} {call : Call}
  {requestId : Str} {response : Response} {fields : Fields} {ending : Except Raised Response}

/-- The headers that the middlewares set outside the CORS one leave a document as it is. -/
theorem isDocument_outside :
    IsDocument ((if enabled then Response.secured response else response).setHeader "x-request-id"
      requestId) fields ↔ IsDocument response fields := by
  unfold IsDocument Response.setHeader
  rw [Headers.values_set_of_ne (by decide)]
  cases enabled with
  | false => rfl
  | true =>
    rw [if_pos rfl, secured_values_of_absent (by decide)]
    rfl

theorem status_outside :
    ((if enabled then Response.secured response else response).setHeader "x-request-id"
      requestId).status = response.status := by
  cases enabled with
  | false => rfl
  | true => rfl

theorem isDocument_simple {request : Request} :
    IsDocument (cors.simple request response) fields ↔ IsDocument response fields := by
  unfold IsDocument
  rw [cors.simple_headers request response _ (by decide), cors.simple_body]

theorem answer_document {request : Request}
    (made : answer cors requestId request ending = some response)
    (document : IsDocument response fields) :
    Labelled fields ending ∨ Identified requestId response.status fields := by
  unfold answer at made
  cases preflight : cors.preflight request with
  | some plain =>
    obtain ⟨content, body⟩ := cors.preflight_plain request plain preflight
    rw [preflight] at made
    cases made
    rw [document.2] at body
    cases body
  | none =>
    rw [preflight] at made
    cases ending with
    | ok response =>
      cases made
      exact .inl (isDocument_simple.mp document)
    | error raised =>
      obtain ⟨inner, handled, rfl⟩ := Option.map_eq_some_iff.mp made
      rw [cors.simple_status]
      exact handled_document handled (isDocument_simple.mp document)

/-- A rendered `AppError` is what its document describes. -/
theorem answer_appError {request : Request} {error : AppError} (shown : encodable requestId = true)
    (reached : cors.preflight request = none) (rendered : renders error = true) :
    ∃ response fields, answer cors requestId request (.error (.app error)) = some response ∧
      response.status = error.status ∧ IsDocument response fields ∧ Describes error fields := by
  have handled : handled requestId (.app error) = some ⟨error.status,
      [(str "x-request-id", requestId), (str "content-type", str mediaType)],
      .json (fromAppError error (some requestId)).modelDump⟩ := by
    simp only [handled, handlerFor, appErrorHandler, Option.join_some, problemResponse_eq]
    rw [modelDump_encodes shown, if_pos rendered]
    rfl
  unfold answer
  rw [reached]
  dsimp only
  rw [handled]
  refine ⟨_, _, rfl, cors.simple_status _ _, isDocument_simple.mpr ⟨?_, rfl⟩, modelDump_describes⟩
  simp [Headers.values]

end Answers

/-- The response to a request carries exactly one `X-Request-ID`, the id resolved on
entry; every document that the endpoint has not labelled itself says this id and the
status of the response; and the document of an `AppError` describes the error. -/
theorem one_correlation_id (settings : Settings) (uuid4 : ℕ → UUID) (endpoint : Endpoint)
    (call : Call) :
    let requestId := correlationId (uuid4 0) call.request
    let ending := endpoint (entered requestId call)
    ∃ response, (createApp settings uuid4 endpoint call).result = .ok response ∧
      response.headers.values (str "x-request-id") = [requestId] ∧
      (createApp settings uuid4 endpoint call).requestIdVar = call.requestIdVar ∧
      (∀ fields, IsDocument response fields →
        Labelled fields ending ∨ Identified requestId response.status fields) ∧
      ∀ error, settings.cors.preflight call.request = none → ending = .error (.app error) →
        renders error = true →
          response.status = error.status ∧ ∃ fields, IsDocument response fields ∧ Describes error fields := by
  intro requestId ending
  obtain ⟨cors, enabled⟩ := settings
  have shown : encodable requestId = true := correlationId_encodable
  cases made : answer cors requestId call.request ending with
  | some response =>
    rw [createApp_of_answer rfl made]
    refine ⟨_, rfl, Headers.values_set_self, rfl, ?_, ?_⟩
    · intro fields document
      rw [status_outside]
      exact answer_document made (isDocument_outside.mp document)
    · intro error reached raised rendered
      obtain ⟨other, fields, answered, status, document, describes⟩ :=
        answer_appError shown reached rendered
      rw [raised, answered] at made
      cases made
      rw [status_outside]
      exact ⟨status, fields, isDocument_outside.mpr document, describes⟩
  | none =>
    rw [createApp_of_unanswered rfl made]
    refine ⟨_, rfl, rfl, rfl, ?_, ?_⟩
    · intro fields document
      cases document.2
      exact .inr ⟨rfl, rfl⟩
    · intro error reached raised rendered
      obtain ⟨other, fields, answered, _⟩ := answer_appError shown reached rendered
      rw [raised, answered] at made
      cases made

/-- The CORS middleware for requests without an `Origin`. -/
def sameOrigin : Cors where
  preflight _ := none
  simple _ response := response
  preflight_plain _ _ answered := by cases answered
  simple_status _ _ := rfl
  simple_body _ _ := rfl
  simple_headers _ _ _ _ := rfl

def sampleUuid : UUID := ⟨0x00000000000040008000000000000000⟩

def sampleCall : Call where
  request :=
    { method := str "GET", path := str "/api/v1/users/me", headers := []
      latin1 := fun _ member => absurd member List.not_mem_nil }
  stateId := none
  requestIdVar := []

/-- A document of an endpoint's own. -/
def ownDocument : Response where
  status := 200
  headers := [(str "content-type", str mediaType)]
  body := .json [(str "status", .json (.int 418)), (str "request_id", text (str "x"))]

/-- What an endpoint returns under the content type of a document is sent as it is. -/
theorem own_document_unidentified :
    ∃ (response : Response) (fields : Fields),
      (createApp ⟨sameOrigin, true⟩ (fun _ => sampleUuid) (fun _ => .ok ownDocument) sampleCall).result =
        .ok response ∧
      IsDocument response fields ∧
      response.headers.values (str "x-request-id") = [sampleUuid.toStr] ∧
      fields.get? "request_id" = some (text (str "x")) ∧
      fields.get? "status" = some (.json (.int 418)) ∧ response.status = 200 ∧
      sampleUuid.toStr ≠ str "x" :=
  ⟨_, _, rfl, ⟨by decide, rfl⟩, by decide, rfl, rfl, rfl, by decide⟩

/-! ## Security headers and the access log -/

def isAccessLog : LogEvent → Bool
  | .accessLog .. => true
  | .unhandledException .. => false

/-- The response has every security header with its fixed value, and the log says the
request and the response's status once. -/
def Covered (request : Request) (outcome : Outcome) : Prop :=
  ∃ response, outcome.result = .ok response ∧
    (∀ header ∈ securityHeaders,
      response.headers.values (str header.1) = [str header.2]) ∧
    outcome.log.filter isAccessLog =
      [.accessLog request.method request.path response.status]

/-- The endpoint returned a response, or raised what a registered handler can answer. -/
def settles : Except Raised Response → Bool
  | .ok _ => true
  | .error raised => answered raised

theorem answer_isSome {cors : Cors} {requestId : Str} {request : Request}
    {ending : Except Raised Response} (shown : encodable requestId = true) :
    (answer cors requestId request ending).isSome =
      ((cors.preflight request).isSome || settles ending) := by
  unfold answer
  cases cors.preflight request with
  | some plain => rfl
  | none =>
    cases ending with
    | ok response => rfl
    | error raised => simp [settles, handled_isSome shown]

end BackendFoundation.EdgeResponses
