import BackendFoundation.EdgeResponses

/-! Which values of `X-Request-ID` become correlation ids. The middleware asks `UUID`
whether a value is one and keeps the value as it was written; `UUID` drops prefixes,
braces and hyphens before it reads a number with a sign or underscores in it. -/
namespace BackendFoundation.CorrelationIds
open PythonValues HttpResponses MiddlewareStack EdgeResponses

/-! ## The processor of log records -/

/-- `add_request_id`. -/
def addRequestId (requestIdVar : Str) (eventDict : Fields) : Fields :=
  if requestIdVar ≠ [] then setItem eventDict (str "request_id") (text requestIdVar) else eventDict

/-! ## Well-formed ids -/

/-- The text of a UUID: hexadecimal digits in groups that hyphens separate. -/
structure WellFormed (id : Str) : Prop where
  length : id.length = 36
  digits : ∀ c ∈ id, IsHexDigit c ∨ c = chr '-'
  groups : (id.splitOn (chr '-')).map List.length = [8, 4, 4, 4, 12]

theorem wellFormed_toStr (uuid : UUID) : WellFormed uuid.toStr where
  length := uuid.toStr_length
  groups := uuid.toStr_groups
  digits := by
    intro c member
    rcases uuid.mem_toStr c member with (decimal | lower) | hyphen
    · exact .inl (.inl decimal)
    · exact .inl (.inr (.inr lower))
    · exact .inr hyphen

/-- `UUID` accepts every well-formed id. -/
theorem WellFormed.accepted {id : Str} (wellFormed : WellFormed id) :
    ∃ uuid, UUID.ofStr id = some uuid := by
  apply UUID.ofStr_of_digits wellFormed.digits
  have hyphenless := congrArg List.length (flatten_splitOn (chr '-') id)
  rw [List.length_flatten, wellFormed.groups] at hyphenless
  rw [← show ([8, 4, 4, 4, 12] : List ℕ).sum = 32 from rfl, hyphenless]
  congr 1
  apply List.filter_congr
  intro c _
  by_cases hyphen : c = chr '-' <;> simp [hyphen]

/-- The header carries what `UUID` accepts and what is no text of one. -/
def Lenient (request : Request) : Prop :=
  ∃ inboundId, request.headers.lookup (str "x-request-id") = some inboundId ∧ inboundId ≠ [] ∧
    (UUID.ofStr inboundId).isSome = true ∧ ¬ WellFormed inboundId

/-! ## The middleware -/

/-- The id with which the middleware calls what is inside, and which it puts on the
response; log records made inside carry it. -/
structure Bound (uuid4 : UUID) (call : Call) (id : Str) : Prop where
  entered : ∀ app : App, ∃ result, correlationMiddleware uuid4 app call =
    { app (entered id call) with result, requestIdVar := call.requestIdVar }
  logged : ∀ event, (addRequestId (EdgeResponses.entered id call).requestIdVar event).get?
    "request_id" = some (text id)
  echoed : ∀ app response, (correlationMiddleware uuid4 app call).result = .ok response →
    response.headers.values (str "x-request-id") = [id]

/-- What is expected of the id of a request. -/
structure ProperId (uuid4 : UUID) (request : Request) (id : Str) : Prop where
  wellFormed : WellFormed id
  inbound : ∀ inboundId, request.headers.lookup (str "x-request-id") = some inboundId →
    (id = inboundId ↔ WellFormed inboundId)
  fresh : (∀ inboundId, request.headers.lookup (str "x-request-id") = some inboundId →
    ¬ WellFormed inboundId) → id = uuid4.toStr

section Proofs

variable {uuid4 : UUID} {request : Request}

theorem bound_correlationId (uuid4 : UUID) (call : Call) :
    Bound uuid4 call (correlationId uuid4 call.request) where
  entered app := ⟨_, rfl⟩
  logged event := by
    have nonempty : (EdgeResponses.entered (correlationId uuid4 call.request) call).requestIdVar ≠ [] :=
      correlationId_ne_nil
    rw [addRequestId, if_pos nonempty]
    exact lookup_setItem_self _ _ _
  echoed app response made := by
    unfold correlationMiddleware at made
    dsimp only at made
    cases inner : (callNext app _).result with
    | error raised =>
      rw [inner] at made
      cases made
    | ok response =>
      rw [inner] at made
      cases made
      exact Headers.values_set_self

theorem properId_iff : ProperId uuid4 request (correlationId uuid4 request) ↔ ¬ Lenient request := by
  constructor
  · rintro proper ⟨inboundId, found, nonempty, accepted, other⟩
    have kept : correlationId uuid4 request = inboundId := by
      obtain ⟨uuid, read⟩ := Option.isSome_iff_exists.mp accepted
      simp [correlationId, found, nonempty, read]
    exact other (kept ▸ proper.wellFormed)
  · intro strict
    have replaced : (∀ inboundId, request.headers.lookup (str "x-request-id") = some inboundId →
        ¬ WellFormed inboundId) → correlationId uuid4 request = uuid4.toStr := by
      intro none_
      unfold correlationId
      cases found : request.headers.lookup (str "x-request-id") with
      | none => rfl
      | some inboundId =>
        dsimp only
        split
        · rfl
        · rename_i nonempty
          cases read : UUID.ofStr inboundId with
          | none => rfl
          | some uuid =>
            exact absurd ⟨inboundId, found, nonempty, by simp [read], none_ inboundId found⟩ strict
    have kept : ∀ inboundId, request.headers.lookup (str "x-request-id") = some inboundId →
        WellFormed inboundId → correlationId uuid4 request = inboundId := by
      intro inboundId found wellFormed
      obtain ⟨uuid, read⟩ := wellFormed.accepted
      have nonempty : inboundId ≠ [] := by
        rintro rfl
        cases wellFormed.length
      simp [correlationId, found, nonempty, read]
    have wellFormed : WellFormed (correlationId uuid4 request) := by
      by_cases present : ∃ inboundId, request.headers.lookup (str "x-request-id") = some inboundId ∧
          WellFormed inboundId
      · obtain ⟨inboundId, found, wellFormed⟩ := present
        exact kept inboundId found wellFormed ▸ wellFormed
      · rw [replaced fun inboundId found wellFormed => present ⟨inboundId, found, wellFormed⟩]
        exact wellFormed_toStr uuid4
    exact ⟨wellFormed, fun inboundId found => ⟨fun same => same ▸ wellFormed, kept inboundId found⟩,
      replaced⟩

/-- **Correlation ids are UUIDs except where `UUID` is lenient.** The middleware binds
one id to every request, and it is a proper one exactly if the header does not carry
something else that `UUID` accepts. -/
theorem correlation_id_proper_iff (uuid4 : UUID) (call : Call) :
    ∃ id, Bound uuid4 call id ∧ (ProperId uuid4 call.request id ↔ ¬ Lenient call.request) :=
  ⟨_, bound_correlationId uuid4 call, properId_iff⟩

/-- A sign and 31 digits. -/
def signedNumber : Str := str "+0000000000000000000000000000000"

private theorem signedNumber_latin1 : ∀ c ∈ signedNumber, c.val < 256 := by
  have small : (signedNumber.all fun c => decide (c.val < 256)) = true := by decide +kernel
  simpa using List.all_eq_true.mp small

/-- A request with nothing but this for an id. -/
def signedRequest : Request where
  method := str "GET"
  path := str "/healthz"
  headers := [(str "x-request-id", signedNumber)]
  latin1 := by simpa using signedNumber_latin1

theorem signed_number_is_echoed : correlationId ⟨0⟩ signedRequest = signedNumber ∧
    ¬ ProperId ⟨0⟩ signedRequest (correlationId ⟨0⟩ signedRequest) := by
  have echoed : correlationId ⟨0⟩ signedRequest = signedNumber := by decide +kernel
  refine ⟨echoed, fun proper => ?_⟩
  have length := proper.wellFormed.length
  rw [echoed] at length
  exact absurd length (by decide)

end Proofs

end BackendFoundation.CorrelationIds
