import BackendFoundation.HttpResponses

/-! The application of `app/main/app_factory.py` between the server and its
endpoints: the exception handlers of `app/api/errors.py`, the middlewares of
`app/observability` and `app/api/security_headers.py`, and Starlette's own around
them. Tracing is left out. -/
namespace BackendFoundation.MiddlewareStack
open PythonValues HttpResponses

/-! ## Errors -/

/-- `extras` is a dictionary: its keys differ. -/
structure AppError where
  code : Str
  title : Str
  status : Int := 400
  detail : Option Str := none
  extras : Fields := []
  extras_unique : (extras.map Prod.fst).Nodup

/-- What an endpoint raises: an `AppError`, a `RequestValidationError` with its list
of errors, an `HTTPException`, or anything else. -/
inductive Raised where
  | app (error : AppError)
  | validation (errors : Value)
  | http (status : Int) (detail : Value) (headers : Headers)
  | other

def mediaType : String := "application/problem+json"

def reservedFields : List Str :=
  ["type", "title", "status", "detail", "instance", "code", "request_id"].map str

structure ProblemDetails where
  type : Str := str "about:blank"
  title : Str
  status : Int
  detail : Option Str := none
  instance_ : Option Str := none
  code : Str
  requestId : Option Str := none
  extra : Fields := []

def text (value : Str) : Value := .json (.str value)

@[simp] theorem text_encodes (value : Str) : (text value).encodes = encodable value := rfl

@[simp] theorem int_encodes (n : Int) : (Value.json (.int n)).encodes = true := rfl

/-- `model_dump(exclude_none=True)`: the fields in order, then the extra ones. -/
def ProblemDetails.modelDump (problem : ProblemDetails) : Fields :=
  [(str "type", text problem.type), (str "title", text problem.title),
      (str "status", .json (.int problem.status))] ++
    problem.detail.toList.map (fun detail => (str "detail", text detail)) ++
    problem.instance_.toList.map (fun instance_ => (str "instance", text instance_)) ++
    [(str "code", text problem.code)] ++
    problem.requestId.toList.map (fun requestId => (str "request_id", text requestId)) ++
    problem.extra.filter fun field => !field.2.isNone

def fromAppError (err : AppError) (requestId : Option Str) : ProblemDetails where
  title := err.title
  status := err.status
  detail := err.detail
  code := err.code
  requestId := requestId
  extra := err.extras.filter fun field => !reservedFields.contains field.1

/-- The response of a handler; `none` when it raises instead. -/
def problemResponse (problem : ProblemDetails) (requestId : Str) : Option Response :=
  jsonResponse problem.status problem.modelDump [(str "x-request-id", requestId)] mediaType

def appErrorHandler (requestId : Str) (exc : AppError) : Option Response :=
  problemResponse (fromAppError exc (some requestId)) requestId

def validationErrorHandler (requestId : Str) (errors : Value) : Option Response :=
  problemResponse
    { title := str "Validation error", status := 422
      detail := some (str "The request body or parameters are invalid.")
      code := str "validation-error", requestId := some requestId
      extra := [(str "errors", errors)] } requestId

def unhandledExceptionHandler (requestId : Str) : Option Response :=
  problemResponse
    { title := str "Internal server error", status := 500
      detail := some (str "An unexpected error occurred."), code := str "internal-error"
      requestId := some requestId } requestId

/-- FastAPI's own handler of an `HTTPException`. -/
def httpExceptionHandler (status : Int) (detail : Value) (headers : Headers) : Option Response :=
  if status < 200 ∨ status = 204 ∨ status = 205 ∨ status = 304 then some ⟨status, headers, .empty⟩
  else jsonResponse status [(str "detail", detail)] headers

/-! ## Applications -/

/-- A request: its method, `url.path`, and headers, whose values are Latin-1. -/
structure Request where
  method : Str
  path : Str
  headers : Headers
  latin1 : ∀ header ∈ headers, ∀ c ∈ header.2, c.val < 256

inductive LogEvent where
  | accessLog (method path : Str) (status : Int)
  | unhandledException (requestId method : Str)

/-- What an application is called with: the request, the `request_id` of the state
in its scope, and the context variable. -/
structure Call where
  request : Request
  stateId : Option Str
  requestIdVar : Str

/-- What it leaves: a response or an exception, the scope and the variable, and what
it has logged. -/
structure Outcome where
  result : Except Raised Response
  stateId : Option Str
  requestIdVar : Str
  log : List LogEvent

abbrev App := Call → Outcome

abbrev Middleware := App → App

/-- The router with its endpoint: the response or the exception of a call. -/
abbrev Endpoint := Call → Except Raised Response

def router (endpoint : Endpoint) : App := fun call =>
  ⟨endpoint call, call.stateId, call.requestIdVar, []⟩

/-- `_resolve_request_id`. -/
def resolveRequestId (stateId : Option Str) (requestIdVar : Str) (uuid4 : UUID) : Str :=
  if stateId.getD [] ≠ [] then stateId.getD []
  else if requestIdVar ≠ [] then requestIdVar
  else uuid4.toStr

/-- The handler registered for an exception, if there is one that is not for
`Exception` itself. -/
def handlerFor (requestId : Str) : Raised → Option (Option Response)
  | .app error => some (appErrorHandler requestId error)
  | .validation errors => some (validationErrorHandler requestId errors)
  | .http status detail headers => some (httpExceptionHandler status detail headers)
  | .other => none

/-- Starlette's innermost middleware. What a handler raises goes on outwards. -/
def exceptionMiddleware (uuid4 : UUID) : Middleware := fun app call =>
  let inner := app call
  match inner.result with
  | .ok _ => inner
  | .error raised =>
    match handlerFor (resolveRequestId inner.stateId inner.requestIdVar uuid4) raised with
    | none => inner
    | some none => { inner with result := .error .other }
    | some (some response) => { inner with result := .ok response }

/-- Starlette's outermost middleware, with the handler of `Exception`: it answers in
the scope that the request left and raises the exception again, which the server
logs. -/
def serverErrorMiddleware (uuid4 : UUID) : Middleware := fun app call =>
  let inner := app call
  match inner.result with
  | .ok _ => inner
  | .error _ =>
    let requestId := resolveRequestId inner.stateId inner.requestIdVar uuid4
    let log := inner.log ++ [.unhandledException requestId call.request.method]
    match unhandledExceptionHandler requestId with
    | none => { inner with log, result := .error .other }
    | some response => { inner with log, result := .ok response }

/-- `call_next` of a `BaseHTTPMiddleware`: the application runs in a task of its own,
with a copy of the context. -/
def callNext (app : App) (call : Call) : Outcome :=
  { app call with requestIdVar := call.requestIdVar }

/-- The id that `CorrelationMiddleware` resolves on entry. -/
def correlationId (uuid4 : UUID) (request : Request) : Str :=
  match request.headers.lookup (str "x-request-id") with
  | none => uuid4.toStr
  | some inboundId =>
    if inboundId = [] then uuid4.toStr
    else match UUID.ofStr inboundId with
      | some _ => inboundId
      | none => uuid4.toStr

def correlationMiddleware (uuid4 : UUID) : Middleware := fun app call =>
  let requestId := correlationId uuid4 call.request
  let inner := callNext app { call with stateId := some requestId, requestIdVar := requestId }
  { inner with
    result := inner.result.map (·.setHeader "x-request-id" requestId)
    requestIdVar := call.requestIdVar }

def accessLogMiddleware : Middleware := fun app call =>
  let inner := callNext app call
  match inner.result with
  | .error _ => inner
  | .ok response =>
    { inner with
      log := inner.log ++ [.accessLog call.request.method call.request.path response.status] }

/-- The headers that `SecurityHeadersMiddleware` sets, in its order. -/
def securityHeaders : List (String × String) :=
  [("strict-transport-security", "max-age=63072000; includeSubDomains"),
    ("x-content-type-options", "nosniff"),
    ("referrer-policy", "no-referrer"),
    ("x-frame-options", "DENY"),
    ("content-security-policy", "default-src 'none'")]

def Response.secured (response : Response) : Response :=
  securityHeaders.foldl (fun response header => response.setHeader header.1 (str header.2)) response

def securityHeadersMiddleware (enabled : Bool) : Middleware := fun app call =>
  let inner := callNext app call
  { inner with result := inner.result.map fun response => if enabled then Response.secured response else response }

/-- What `CORSMiddleware` sets on responses. -/
def corsHeaders : List Str :=
  ["access-control-allow-origin", "access-control-allow-credentials",
    "access-control-expose-headers", "vary"].map str

/-- `CORSMiddleware` with its settings: the plain text that answers a preflight
request, and the headers it adds to another one's response. -/
structure Cors where
  preflight : Request → Option Response
  simple : Request → Response → Response
  preflight_plain : ∀ request response, preflight request = some response →
    ∃ content, response.body = .bytes content
  simple_status : ∀ request response, (simple request response).status = response.status
  simple_body : ∀ request response, (simple request response).body = response.body
  simple_headers : ∀ request response name, name ∉ corsHeaders →
    (simple request response).headers.values name = response.headers.values name

def corsMiddleware (cors : Cors) : Middleware := fun app call =>
  match cors.preflight call.request with
  | some response => ⟨.ok response, call.stateId, call.requestIdVar, []⟩
  | none =>
    let inner := app call
    { inner with result := inner.result.map (cors.simple call.request) }

/-! ## The factory -/

structure Settings where
  cors : Cors
  securityHeadersEnabled : Bool := true

/-- `app.add_middleware` prepends. -/
def addMiddleware (middleware : Middleware) (stack : List Middleware) : List Middleware :=
  middleware :: stack

/-- `build_middleware_stack`; `uuid4` gives the ids that are drawn on the way. -/
def buildMiddlewareStack (uuid4 : ℕ → UUID) (userMiddleware : List Middleware) (app : App) : App :=
  ([serverErrorMiddleware (uuid4 1)] ++ userMiddleware ++ [exceptionMiddleware (uuid4 2)]).foldr
    (fun middleware app => middleware app) app

/-- `create_app` with one endpoint behind its router. -/
def createApp (settings : Settings) (uuid4 : ℕ → UUID) (endpoint : Endpoint) : App :=
  let stack := addMiddleware (corsMiddleware settings.cors) []
  let stack := addMiddleware (securityHeadersMiddleware settings.securityHeadersEnabled) stack
  let stack := addMiddleware accessLogMiddleware stack
  let stack := addMiddleware (correlationMiddleware (uuid4 0)) stack
  buildMiddlewareStack uuid4 stack (router endpoint)

theorem createApp_eq (settings : Settings) (uuid4 : ℕ → UUID) (endpoint : Endpoint) :
    createApp settings uuid4 endpoint = serverErrorMiddleware (uuid4 1)
      (correlationMiddleware (uuid4 0) (accessLogMiddleware
        (securityHeadersMiddleware settings.securityHeadersEnabled
          (corsMiddleware settings.cors (exceptionMiddleware (uuid4 2) (router endpoint)))))) := rfl

end BackendFoundation.MiddlewareStack
