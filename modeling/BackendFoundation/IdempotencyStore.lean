import BackendFoundation.ExpiringKeys
import BackendFoundation.RequestPrograms
import Mathlib

/-! `app/infrastructure/idempotency/redis.py` as programs of a Redis client, and any
number of callers whose commands interleave. Strings are those UTF-8 can encode; time
is in milliseconds. -/
namespace BackendFoundation.IdempotencyStore
open RequestPrograms ExpiringKeys

inductive Status where
  | new
  | inFlight
  | done
  deriving DecidableEq, Repr

structure IdempotencyRecord where
  status : Status
  responseHash : Option String := none
  deriving DecidableEq, Repr

/-! ## The store -/

/-- What the store uses of its client: SET with its options and a time to live, GET, and the
exception of a value that is no UTF-8. -/
structure RedisClient (τ Op : Type) (Reply : Op → Type) (ε : Type) where
  set : String → ByteArray → (nx xx keepttl : Bool) → (ex : Option τ) → Program Op Reply ε Bool
  get : String → Program Op Reply ε (Option ByteArray)
  unicodeDecodeError : ε

def redisKey (key : String) : String := "idem:" ++ key

/-- The record a stored string stands for. -/
def parse (val : String) : Option IdempotencyRecord :=
  if val = "in_flight" then some ⟨.inFlight, none⟩
  else if "done:".toList.isPrefixOf val.toList then
    some ⟨.done, some (String.ofList (val.toList.drop 5))⟩
  else none

section Store

variable {τ Op : Type} {Reply : Op → Type} {ε : Type} (client : RedisClient τ Op Reply ε)

def get (key : String) : Program Op Reply ε (Option IdempotencyRecord) := do
  match ← client.get (redisKey key) with
  | none => return none
  | some val =>
    match String.fromUTF8? val with
    | none => .raise client.unicodeDecodeError
    | some val => return parse val

def begin (key : String) (ttlS : τ) : Program Op Reply ε IdempotencyRecord := do
  let success ← client.set (redisKey key) "in_flight".toUTF8 true false false (some ttlS)
  if success then return ⟨.new, none⟩ else return (← get client key).getD ⟨.inFlight, none⟩

def complete (key responseHash : String) : Program Op Reply ε Unit := do
  let _ ← client.set (redisKey key) ("done:" ++ responseHash).toUTF8 false true true none
  return ()

end Store

/-! ## Clients -/

/-- The commands the store sends. -/
inductive Command where
  | set (key : String) (value : ByteArray) (options : SetOptions)
  | get (key : String)

abbrev Reply : Command → Type
  | .set _ _ _ => Bool
  | .get _ => Option ByteArray

/-- The one exception of the store itself: a value that is no UTF-8. -/
inductive UnicodeDecodeError where
  | mk
  deriving DecidableEq

/-- A command and what Redis replied. -/
inductive Executed where
  | set (key : String) (value : ByteArray) (options : SetOptions) (stored : Bool)
  | get (key : String) (value : Option ByteArray)
  deriving DecidableEq

def Command.executed : (command : Command) → Reply command → Executed
  | .set key value options, stored => .set key value options stored
  | .get key, value => .get key value

abbrev Client := Program Command Reply UnicodeDecodeError

def commands : RedisClient ℕ+ Command Reply UnicodeDecodeError where
  set key value nx xx keepttl ex :=
    let ex := Option.map (fun ttlS : ℕ+ => 1000 * (ttlS : ℕ)) ex
    Program.perform (Command.set key value { nx, xx, ex, keepttl })
  get key := Program.perform (Command.get key)
  unicodeDecodeError := .mk

inductive Call where
  | begin (key : String) (ttlS : ℕ+)
  | complete (key responseHash : String)
  | get (key : String)
  deriving DecidableEq

def Call.key : Call → String
  | .begin key _ => key
  | .complete key _ => key
  | .get key => key

inductive Outcome where
  | began (record : IdempotencyRecord)
  | completed
  | got (record : Option IdempotencyRecord)
  deriving DecidableEq

def serve : Call → Client Outcome
  | .begin key ttlS => do return .began (← begin commands key ttlS)
  | .complete key responseHash => do
    complete commands key responseHash
    return .completed
  | .get key => do return .got (← get commands key)

abbrev Redis := Keyspace String ByteArray

/-- One command, executed atomically. -/
def execute (redis : Redis) (now : ℕ) : (command : Command) → Reply command × Redis
  | .set key value options => redis.set now key value options
  | .get key => ((redis.live now key).map Entry.value, redis)

/-- A call in progress and the client that made it. -/
structure Session where
  client : ℕ
  call : Call
  program : Client Outcome

/-- A command Redis has executed. -/
structure Event where
  session : ℕ
  client : ℕ
  time : ℕ
  executed : Executed
  deriving DecidableEq

/-- Redis, every call ever made, the server's clock, and the commands executed. -/
structure System where
  redis : Redis
  sessions : List Session
  clock : ℕ
  history : List Event

inductive Action where
  | arrive (client : ℕ) (call : Call)
  | step (session : ℕ) (now : ℕ)
  deriving DecidableEq

namespace System

def init : System := ⟨fun _ => none, [], 0, []⟩

/-- A client makes a call, or the next command of one call is executed. -/
def next (system : System) : Action → Option System
  | .arrive client call =>
    some { system with sessions := system.sessions ++ [⟨client, call, serve call⟩] }
  | .step index now =>
    match system.sessions[index]? with
    | none => none
    | some session =>
      match session.program with
      | .ret _ => none
      | .raise _ => none
      | .call command rest =>
        if system.clock ≤ now then
          let (reply, redis) := execute system.redis now command
          some {
            redis
            sessions := system.sessions.set index { session with program := rest (.ok reply) }
            clock := now
            history := system.history ++ [⟨index, session.client, now, command.executed reply⟩] }
        else none

/-- A run in which every action is allowed in the state it is taken. -/
def run (allowed : System → Action → Bool) (system : System) : List Action → Option System
  | [] => some system
  | action :: rest =>
    if allowed system action then (system.next action).bind fun later => later.run allowed rest
    else none

end System

end BackendFoundation.IdempotencyStore
