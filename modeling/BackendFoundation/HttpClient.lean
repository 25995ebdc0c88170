import BackendFoundation.PythonValues
import Mathlib.Data.PNat.Basic
import Mathlib.Order.Bounds.Basic

/-! `app/infrastructure/http/client.py`: one helper that sends a request, again and again
where its policy allows it, and that raises one kind of exception only. -/
namespace BackendFoundation.HttpClient
open PythonValues

/-! ## `tenacity` -/

/-- `AsyncRetrying` with `stop_after_attempt`, `retry_if_exception` and `reraise=True`.
The waits between the attempts are left out. -/
structure AsyncRetrying (ε : Type) where
  maxAttemptNumber : ℕ+
  retry : ε → Bool

namespace AsyncRetrying

variable {ε α ρ : Type}

/-- What the iterator does when the block of an attempt has been left. -/
inductive Next (ε : Type) where
  | attempt
  | stopIteration
  | raise (error : ε)

def next (retrier : AsyncRetrying ε) (attemptNumber : ℕ) : Except ε Unit → Next ε
  | .ok () => .stopIteration
  | .error error =>
    if !retrier.retry error then .raise error
    else if retrier.maxAttemptNumber ≤ attemptNumber then .raise error
    else .attempt

end AsyncRetrying

/-! ## `request_json` -/

/-- What is raised on the way: by `httpx`, by this module, or anything else. -/
inductive Exn where
  | connectError
  | readTimeout
  | httpStatusError (statusCode : Int)
  | upstreamProviderError (message : Str)
  | runtimeError (message : Str)
  | other (tag : ℕ)

/-- How `client.request` ends: with a response, whose body may be no JSON, or with an
exception. -/
inductive Outcome (α : Type) where
  | response (statusCode : Int) (body : Option α)
  | raised (error : Exn)

/-- The upper case of a character, which is one character or more, from the Unicode
database. -/
structure UpperCase where
  full : CodePoint → Str
  ascii : ∀ c : CodePoint, c.val < 128 →
    full c = [if 97 ≤ c.val ∧ c.val ≤ 122 then Fin.ofNat _ (c.val - 32) else c]

/-- `text.upper()`. -/
def upper (unicode : UpperCase) (text : Str) : Str := text.flatMap unicode.full

/-- A database of ASCII alone. -/
def asciiCases : UpperCase where
  full c := [if 97 ≤ c.val ∧ c.val ≤ 122 then Fin.ofNat _ (c.val - 32) else c]
  ascii _ _ := rfl

example : upper asciiCases (str "Patch") = str "PATCH" := by decide

section Policy

variable {α : Type} (unicode : UpperCase) (request : HttpRequest) (retryNonIdempotent : Bool)

end Policy

end BackendFoundation.HttpClient
