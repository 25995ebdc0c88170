import BackendFoundation.IdempotencyStore
import Mathlib.Data.List.Induction

/-! The life of a record, told from the commands Redis has executed: which
client's `begin` created it, when it ends, and which completion it holds. Every
run keeps under each key what its history tells. -/
namespace BackendFoundation.IdempotencyLifetimes
open RequestPrograms ExpiringKeys IdempotencyStore

/-- The SET with which `begin` asks for admission. -/
def admission (key : String) (ttlS : ℕ+) (stored : Bool) : Executed :=
  .set (redisKey key) "in_flight".toUTF8 { nx := true, ex := some (1000 * ttlS) } stored

/-- The SET with which `complete` writes a response hash. -/
def completion (key responseHash : String) (stored : Bool) : Executed :=
  .set (redisKey key) ("done:" ++ responseHash).toUTF8 { xx := true, keepttl := true } stored

/-- One record from its creation on: its creator, its last moment, and who wrote
what into it last. -/
structure Lifetime where
  creator : ℕ
  deadline : ℕ
  written : Option (ℕ × ByteArray)
  deriving DecidableEq

namespace Lifetime

def value (lifetime : Lifetime) : ByteArray :=
  match lifetime.written with
  | some (_, value) => value
  | none => "in_flight".toUTF8

def entry (lifetime : Lifetime) : Entry ByteArray := ⟨lifetime.value, some lifetime.deadline⟩

end Lifetime

/-- What an executed command makes of the record under a key. -/
def passed (key : String) (lifetime : Option Lifetime) (event : Event) : Option Lifetime :=
  match event.executed with
  | .set name value options true =>
    if name = redisKey key then
      if options.nx then some ⟨event.client, event.time + options.ex.getD 0, none⟩
      else lifetime.map fun record => { record with written := some (event.client, value) }
    else lifetime
  | _ => lifetime

/-- The last record created under a key, living or not. -/
def lifetime (key : String) (history : List Event) : Option Lifetime :=
  history.foldl (passed key) none

theorem lifetime_append (key : String) (history : List Event) (event : Event) :
    lifetime key (history ++ [event]) = passed key (lifetime key history) event := by
  rw [lifetime, List.foldl_append]
  rfl

theorem append_injective (start : String) : Function.Injective (start ++ ·) := by
  intro left right same
  have texts := congrArg String.toList same
  rw [String.toList_append, String.toList_append] at texts
  exact String.toList_injective (List.append_cancel_left texts)

theorem redisKey_injective : Function.Injective redisKey := append_injective "idem:"

section Events

variable {key : String} {record : Option Lifetime} {event : Event}

theorem passed_admission {ttlS : ℕ+} (executed : event.executed = admission key ttlS true) :
    passed key record event = some ⟨event.client, event.time + 1000 * ttlS, none⟩ := by
  simp [passed, executed, admission]

theorem passed_completion {responseHash : String}
    (executed : event.executed = completion key responseHash true) :
    passed key record event = record.map fun record =>
      { record with written := some (event.client, ("done:" ++ responseHash).toUTF8) } := by
  simp [passed, executed, completion]

theorem passed_elsewhere {other : String} (apart : key ≠ other)
    (executed : (∃ ttlS stored, event.executed = admission other ttlS stored) ∨
      ∃ responseHash stored, event.executed = completion other responseHash stored) :
    passed key record event = record := by
  have names : redisKey other ≠ redisKey key := fun same => apart (redisKey_injective same).symm
  obtain ⟨_, stored, executed⟩ | ⟨_, stored, executed⟩ := executed <;>
    cases stored <;> simp [passed, executed, admission, completion, names]

theorem passed_refused {other : String}
    (executed : (∃ ttlS, event.executed = admission other ttlS false) ∨
      (∃ responseHash, event.executed = completion other responseHash false) ∨
        ∃ value, event.executed = .get other value) :
    passed key record event = record := by
  obtain ⟨_, executed⟩ | ⟨_, executed⟩ | ⟨_, executed⟩ := executed <;>
    simp [passed, executed, admission, completion]

end Events

/-- What a stored value is reported as. -/
def reported (value : Option ByteArray) : Except UnicodeDecodeError (Option IdempotencyRecord) :=
  match value with
  | none => .ok none
  | some val =>
    match String.fromUTF8? val with
    | none => .error .mk
    | some val => .ok (parse val)

/-- A call after the read it ends with. -/
def answered (value : Option ByteArray) (outcome : Option IdempotencyRecord → Outcome) :
    Client Outcome :=
  match reported value with
  | .ok record => .ret (outcome record)
  | .error error => .raise error

/-- `begin`'s answer to what it read once refused. -/
def beganWith (record : Option IdempotencyRecord) : Outcome :=
  .began (record.getD ⟨.inFlight, none⟩)

/-- The program of a refused `begin`. -/
def refused (key : String) : Client Outcome :=
  .call (.get (redisKey key)) fun
    | .ok value => answered value beganWith
    | .error error => .raise error

/-- Where a call can be: not yet started, refused and about to read, or over. -/
inductive Stage : Call → Client Outcome → Prop where
  | fresh (call : Call) : Stage call (serve call)
  | refused (key : String) (ttlS : ℕ+) : Stage (.begin key ttlS) (refused key)
  | ended (call : Call) (outcome : Outcome) : Stage call (.ret outcome)
  | failed (call : Call) (error : UnicodeDecodeError) : Stage call (.raise error)

/-- What the next command of a call can do: the command executed, the keys then,
and what remains of the call. -/
inductive Moves (redis : Redis) (now : ℕ) :
    Call → Client Outcome → Executed → Redis → Client Outcome → Prop where
  | admitted (key : String) (ttlS : ℕ+) (free : redis.live now (redisKey key) = none) :
    Moves redis now (.begin key ttlS) (serve (.begin key ttlS)) (admission key ttlS true)
      (Function.update redis (redisKey key)
        (some ⟨"in_flight".toUTF8, some (now + 1000 * ttlS)⟩))
      (.ret (.began ⟨.new, none⟩))
  | refused (key : String) (ttlS : ℕ+) (entry : Entry ByteArray)
    (taken : redis.live now (redisKey key) = some entry) :
    Moves redis now (.begin key ttlS) (serve (.begin key ttlS)) (admission key ttlS false)
      redis (refused key)
  | read (key : String) (ttlS : ℕ+) :
    Moves redis now (.begin key ttlS) (refused key)
      (.get (redisKey key) ((redis.live now (redisKey key)).map Entry.value)) redis
      (answered ((redis.live now (redisKey key)).map Entry.value) beganWith)
  | completed (key responseHash : String) (entry : Entry ByteArray)
    (there : redis.live now (redisKey key) = some entry) :
    Moves redis now (.complete key responseHash) (serve (.complete key responseHash))
      (completion key responseHash true)
      (Function.update redis (redisKey key)
        (some { entry with value := ("done:" ++ responseHash).toUTF8 }))
      (.ret .completed)
  | missed (key responseHash : String) (gone : redis.live now (redisKey key) = none) :
    Moves redis now (.complete key responseHash) (serve (.complete key responseHash))
      (completion key responseHash false) redis (.ret .completed)
  | got (key : String) :
    Moves redis now (.get key) (serve (.get key))
      (.get (redisKey key) ((redis.live now (redisKey key)).map Entry.value)) redis
      (answered ((redis.live now (redisKey key)).map Entry.value) .got)

theorem commands_get (key : String) : commands.get key = Program.perform (Command.get key) := rfl

theorem commands_set (key : String) (value : ByteArray) (nx xx keepttl : Bool) (ex : Option ℕ+) :
    commands.set key value nx xx keepttl ex = Program.perform (Command.set key value
      { nx, xx, ex := Option.map (fun ttlS : ℕ+ => 1000 * (ttlS : ℕ)) ex, keepttl }) := rfl

theorem get_eq (key : String) {α : Type} (rest : Option IdempotencyRecord → Client α) :
    (IdempotencyStore.get commands key >>= rest) = .call (.get (redisKey key)) fun
      | .ok value => match reported value with
        | .ok record => rest record
        | .error error => .raise error
      | .error error => .raise error := by
  simp only [IdempotencyStore.get, commands_get, Program.perform, Program.call_bind]
  congr 1
  funext answer
  cases answer with
  | error error => rfl
  | ok value =>
    cases value with
    | none => rfl
    | some val => cases decoded : String.fromUTF8? val <;> simp [reported, decoded]

theorem serve_begin (key : String) (ttlS : ℕ+) :
    serve (.begin key ttlS) =
      .call (.set (redisKey key) "in_flight".toUTF8 { nx := true, ex := some (1000 * ttlS) }) fun
        | .ok success => if success then .ret (.began ⟨.new, none⟩) else refused key
        | .error error => .raise error := by
  simp only [serve, begin, commands_set, Option.map_some, Program.perform, Program.call_bind]
  congr 1
  funext answer
  cases answer with
  | error error => rfl
  | ok success =>
    cases success with
    | true => rfl
    | false =>
      simp only [Program.ret_bind, Bool.false_eq_true, if_false, Program.bind_assoc,
        Program.pure_eq]
      rw [get_eq]
      rfl

theorem serve_complete (key responseHash : String) :
    serve (.complete key responseHash) =
      .call (.set (redisKey key) ("done:" ++ responseHash).toUTF8 { xx := true, keepttl := true }) fun
        | .ok _ => .ret .completed
        | .error error => .raise error := by
  simp only [serve, complete, commands_set, Option.map_none, Program.perform, Program.call_bind]
  congr 1
  funext answer
  cases answer with
  | error error => rfl
  | ok stored => rfl

theorem serve_get (key : String) :
    serve (.get key) = .call (.get (redisKey key)) fun
      | .ok value => answered value .got
      | .error error => .raise error := by
  simp only [serve, Program.pure_eq, get_eq]
  rfl

/-- A call that has not started has a command to send. -/
theorem serve_asks (call : Call) : ∃ command rest, serve call = .call command rest := by
  cases call with
  | begin key ttlS => exact ⟨_, _, serve_begin key ttlS⟩
  | complete key responseHash => exact ⟨_, _, serve_complete key responseHash⟩
  | get key => exact ⟨_, _, serve_get key⟩

theorem serve_ne_ret {call : Call} {outcome : Outcome} : serve call ≠ .ret outcome := by
  obtain ⟨_, _, asks⟩ := serve_asks call
  rw [asks]
  exact fun same => nomatch same

/-- A command of a call in one of its stages does one of the moves. -/
theorem execute_moves {redis : Redis} {now : ℕ} {call : Call} {command : Command}
    {rest : Except UnicodeDecodeError (Reply command) → Client Outcome}
    (stage : Stage call (.call command rest)) :
    Moves redis now call (.call command rest)
      (command.executed (execute redis now command).1) (execute redis now command).2
      (rest (.ok (execute redis now command).1)) := by
  generalize shape : (.call command rest : Client Outcome) = program at stage ⊢
  cases stage with
  | fresh call =>
    cases call with
    | begin key ttlS =>
      rw [serve_begin] at shape
      cases shape
      cases live : redis.live now (redisKey key) with
      | none =>
        simp only [execute, Keyspace.set_nx_stored live, Command.executed]
        exact .admitted key ttlS live
      | some entry =>
        simp only [execute, Keyspace.set_nx_refused live, Command.executed]
        exact .refused key ttlS entry live
    | complete key responseHash =>
      rw [serve_complete] at shape
      cases shape
      cases live : redis.live now (redisKey key) with
      | none =>
        simp only [execute, Keyspace.set_xx_refused live, Command.executed]
        exact .missed key responseHash live
      | some entry =>
        simp only [execute, Keyspace.set_xx_stored live, Command.executed]
        exact .completed key responseHash entry live
    | get key =>
      rw [serve_get] at shape
      cases shape
      exact .got key
  | refused key ttlS =>
    cases shape
    exact .read key ttlS
  | ended | failed => cases shape

theorem moves_stage {redis later : Redis} {now : ℕ} {call : Call} {executed : Executed}
    {program rest : Client Outcome} (moves : Moves redis now call program executed later rest) :
    Stage call rest := by
  have answers : ∀ value outcome, Stage call (answered value outcome) := by
    intro value outcome
    unfold answered
    split
    · exact .ended _ _
    · exact .failed _ _
  cases moves with
  | admitted | completed | missed => exact .ended _ _
  | refused key ttlS => exact .refused key ttlS
  | read | got => exact answers _ _

/-- A command some call of the store sends. -/
inductive Formed : Executed → Prop where
  | admission (key : String) (ttlS : ℕ+) (stored : Bool) : Formed (admission key ttlS stored)
  | completion (key responseHash : String) (stored : Bool) :
    Formed (completion key responseHash stored)
  | get (key : String) (value : Option ByteArray) : Formed (.get (redisKey key) value)

/-- A command creates the record, writes into it, or leaves it alone. -/
inductive Passes (key : String) (event : Event) (record : Option Lifetime) : Prop where
  | created (ttlS : ℕ+) (executed : event.executed = admission key ttlS true)
    (now : passed key record event = some ⟨event.client, event.time + 1000 * ttlS, none⟩)
  | written (responseHash : String) (executed : event.executed = completion key responseHash true)
    (now : passed key record event = record.map fun record =>
      { record with written := some (event.client, ("done:" ++ responseHash).toUTF8) })
  | kept (unadmitted : ∀ ttlS, event.executed ≠ admission key ttlS true)
    (uncompleted : ∀ responseHash, event.executed ≠ completion key responseHash true)
    (now : passed key record event = record)

theorem admission_injective {key other : String} {ttlS ttlS' : ℕ+} {stored stored' : Bool}
    (same : admission key ttlS stored = admission other ttlS' stored') :
    key = other ∧ ttlS = ttlS' ∧ stored = stored' := by
  simp only [admission, Executed.set.injEq, SetOptions.mk.injEq, Option.some.injEq] at same
  refine ⟨redisKey_injective same.1, ?_, same.2.2.2⟩
  have lives : 1000 * (ttlS : ℕ) = 1000 * (ttlS' : ℕ) := same.2.2.1.2.2.1
  exact PNat.coe_injective (by omega)

theorem completion_injective {key other hash hash' : String} {stored stored' : Bool}
    (same : completion key hash stored = completion other hash' stored') :
    key = other ∧ hash = hash' ∧ stored = stored' := by
  simp only [completion, Executed.set.injEq] at same
  refine ⟨redisKey_injective same.1, append_injective "done:" ?_, same.2.2.2⟩
  exact String.toByteArray_inj.mp same.2.1

theorem admission_ne_completion {key other hash : String} {ttlS : ℕ+} {stored stored' : Bool} :
    admission key ttlS stored ≠ completion other hash stored' := by
  simp [admission, completion]

theorem passes (key : String) (record : Option Lifetime) {event : Event}
    (formed : Formed event.executed) : Passes key event record := by
  generalize shape : event.executed = executed at formed
  cases formed with
  | admission other ttlS stored =>
    have uncompleted : ∀ responseHash, event.executed ≠ completion key responseHash true := by
      intro responseHash
      rw [shape]
      exact admission_ne_completion
    by_cases own : key = other
    · subst own
      cases stored with
      | true => exact .created ttlS shape (passed_admission shape)
      | false =>
        refine .kept (fun ttlS' => ?_) uncompleted (passed_refused (.inl ⟨ttlS, shape⟩))
        rw [shape]
        exact fun same => nomatch (admission_injective same).2.2
    · refine .kept (fun ttlS' => ?_) uncompleted (passed_elsewhere own (.inl ⟨ttlS, stored, shape⟩))
      rw [shape]
      exact fun same => own (admission_injective same).1.symm
  | completion other responseHash stored =>
    have unadmitted : ∀ ttlS, event.executed ≠ admission key ttlS true := by
      intro ttlS
      rw [shape]
      exact admission_ne_completion.symm
    by_cases own : key = other
    · subst own
      cases stored with
      | true => exact .written responseHash shape (passed_completion shape)
      | false =>
        refine .kept unadmitted (fun other => ?_) (passed_refused (.inr (.inl ⟨responseHash, shape⟩)))
        rw [shape]
        exact fun same => nomatch (completion_injective same).2.2
    · refine .kept unadmitted (fun hash => ?_)
        (passed_elsewhere own (.inr ⟨responseHash, stored, shape⟩))
      rw [shape]
      exact fun same => own (completion_injective same).1.symm
  | get other value =>
    refine .kept ?_ ?_ (passed_refused (.inr (.inr ⟨value, shape⟩))) <;>
      simp [shape, admission, completion]

/-- A command's reply agrees with what the history before it tells. -/
structure Sound (before : List Event) (event : Event) : Prop where
  formed : Formed event.executed
  later : ∀ earlier ∈ before, earlier.time ≤ event.time
  admits : ∀ key ttlS, event.executed = admission key ttlS true →
    ∀ record, lifetime key before = some record → record.deadline < event.time
  completes : ∀ key responseHash, event.executed = completion key responseHash true →
    ∃ record, lifetime key before = some record ∧ event.time ≤ record.deadline
  reads : ∀ key value, event.executed = .get (redisKey key) value →
    value = ((lifetime key before).filter fun record => event.time ≤ record.deadline).map
      Lifetime.value

/-- Every reply in the history agrees with what came before it. -/
def Told (history : List Event) : Prop :=
  ∀ before event after, history = before ++ event :: after → Sound before event

theorem told_nil : Told [] := by
  intro before event after same
  cases before <;> cases same

theorem told_append {history : List Event} {event : Event} :
    Told (history ++ [event]) ↔ Told history ∧ Sound history event := by
  constructor
  · refine fun told => ⟨fun before earlier after same => ?_, told history event [] rfl⟩
    exact told before earlier (after ++ [event]) (by rw [same]; simp)
  · rintro ⟨told, sound⟩ before earlier after same
    rcases List.eq_nil_or_concat after with rfl | ⟨rest, last, rfl⟩
    · obtain ⟨rfl, one⟩ := List.append_inj' same rfl
      cases one
      exact sound
    · rw [List.concat_eq_append, ← List.cons_append, ← List.append_assoc] at same
      exact told before earlier rest (List.append_inj' same rfl).1

section Histories

variable {key : String} {history : List Event} {record : Lifetime}

/-- The last record of a key began with the admission of its creator. -/
theorem created_by_creator (told : Told history) (last : lifetime key history = some record) :
    ∃ event ∈ history, ∃ ttlS, event.executed = admission key ttlS true ∧
      event.client = record.creator ∧ record.deadline = event.time + 1000 * ttlS := by
  induction history using List.reverseRecOn generalizing record with
  | nil => cases last
  | append_singleton history event ih =>
    obtain ⟨told, sound⟩ := told_append.mp told
    rw [lifetime_append] at last
    have earlier : ∀ record, lifetime key history = some record →
        ∃ earlier ∈ history ++ [event], ∃ ttlS, earlier.executed = admission key ttlS true ∧
          earlier.client = record.creator ∧ record.deadline = earlier.time + 1000 * ttlS := by
      intro record known
      obtain ⟨earlier, member, rest⟩ := ih told known
      exact ⟨earlier, List.mem_append_left _ member, rest⟩
    cases passes key (lifetime key history) sound.formed with
    | created ttlS executed now =>
      rw [now] at last
      cases last
      exact ⟨event, by simp, ttlS, executed, rfl, rfl⟩
    | written responseHash executed now =>
      rw [now] at last
      obtain ⟨old, known, rfl⟩ := Option.map_eq_some_iff.mp last
      exact earlier old known
    | kept unadmitted uncompleted now =>
      rw [now] at last
      exact earlier record last

/-- What the last record of a key holds was written by a completion on that key. -/
theorem written_by_completion (told : Told history) (last : lifetime key history = some record)
    {client : ℕ} {value : ByteArray} (held : record.written = some (client, value)) :
    ∃ event ∈ history, ∃ responseHash, event.executed = completion key responseHash true ∧
      event.client = client ∧ value = ("done:" ++ responseHash).toUTF8 := by
  induction history using List.reverseRecOn generalizing record with
  | nil => cases last
  | append_singleton history event ih =>
    obtain ⟨told, sound⟩ := told_append.mp told
    rw [lifetime_append] at last
    cases passes key (lifetime key history) sound.formed with
    | created ttlS executed now =>
      rw [now] at last
      cases last
      cases held
    | written responseHash executed now =>
      rw [now] at last
      obtain ⟨old, known, rfl⟩ := Option.map_eq_some_iff.mp last
      cases held
      exact ⟨event, by simp, responseHash, executed, rfl, rfl⟩
    | kept unadmitted uncompleted now =>
      rw [now] at last
      obtain ⟨earlier, member, rest⟩ := ih told last held
      exact ⟨earlier, List.mem_append_left _ member, rest⟩

/-- A record that has been created on a key ends no later than the key's last
one, and is the last one until it ends. -/
theorem admitted_until_deadline (told : Told history) {event : Event} (member : event ∈ history)
    {ttlS : ℕ+} (executed : event.executed = admission key ttlS true) :
    ∃ record, lifetime key history = some record ∧ event.time + 1000 * ttlS ≤ record.deadline ∧
      ∀ now, (∀ other ∈ history, other.time ≤ now) → now ≤ event.time + 1000 * ttlS →
        record.creator = event.client := by
  induction history using List.reverseRecOn with
  | nil => cases member
  | append_singleton history last ih =>
    obtain ⟨told, sound⟩ := told_append.mp told
    rw [lifetime_append]
    have moves := passes key (lifetime key history) sound.formed
    rcases List.mem_append.mp member with old | fresh
    · obtain ⟨record, known, ends, owner⟩ := ih told old
      have owned : ∀ now, (∀ other ∈ history ++ [last], other.time ≤ now) →
          now ≤ event.time + 1000 * ttlS → record.creator = event.client :=
        fun now past => owner now fun other here => past other (List.mem_append_left _ here)
      cases moves with
      | created ttlS' executed' now =>
        have ended := sound.admits key ttlS' executed' record known
        refine ⟨_, now, by dsimp only; omega, fun moment past within => ?_⟩
        have since := past last (by simp)
        omega
      | written responseHash executed' now =>
        exact ⟨_, now.trans (congrArg (Option.map _) known), ends, owned⟩
      | kept unadmitted uncompleted now => exact ⟨record, now.trans known, ends, owned⟩
    · obtain rfl := List.mem_singleton.mp fresh
      cases moves with
      | created ttlS' executed' now =>
        obtain ⟨_, rfl, _⟩ := admission_injective (executed.symm.trans executed')
        exact ⟨_, now, le_rfl, fun _ _ _ => rfl⟩
      | written responseHash executed' now =>
        exact absurd (executed.symm.trans executed') admission_ne_completion
      | kept unadmitted uncompleted now => exact absurd executed (unadmitted ttlS)

end Histories

/-- What every run keeps: each key holds what the history tells, and each call
is where the commands it has had executed have taken it. -/
structure Faithful (system : System) : Prop where
  told : Told system.history
  past : ∀ event ∈ system.history, event.time ≤ system.clock
  kept : ∀ key, system.redis (redisKey key) =
    (lifetime key system.history).map Lifetime.entry
  staged : ∀ session ∈ system.sessions, Stage session.call session.program

/-- A step executes the next command of one call and records it. -/
theorem next_step {system later : System} {index now : ℕ}
    (staged : ∀ session ∈ system.sessions, Stage session.call session.program)
    (moved : system.next (.step index now) = some later) :
    ∃ session executed redis rest, system.sessions[index]? = some session ∧ system.clock ≤ now ∧
      Moves system.redis now session.call session.program executed redis rest ∧
      later = ⟨redis, system.sessions.set index { session with program := rest }, now,
        system.history ++ [⟨index, session.client, now, executed⟩]⟩ := by
  simp only [System.next] at moved
  cases found : system.sessions[index]? with
  | none => simp [found] at moved
  | some session =>
    have stage := staged session (List.mem_of_getElem? found)
    obtain ⟨client, call, program⟩ := session
    cases program with
    | ret outcome => simp [found] at moved
    | raise error => simp [found] at moved
    | call command rest =>
      simp only [found, Option.ite_none_right_eq_some, Option.some.injEq] at moved
      obtain ⟨after, rfl⟩ := moved
      exact ⟨_, _, _, _, rfl, after, execute_moves stage, rfl⟩

section Steps

variable {redis later : Redis} {now : ℕ} {call : Call} {executed : Executed}
variable {program rest : Client Outcome} {history : List Event} {session client : ℕ}

/-- What a command sees under a key is the record the history tells, while it lives. -/
theorem live_told (kept : ∀ key, redis (redisKey key) = (lifetime key history).map Lifetime.entry)
    (key : String) : redis.live now (redisKey key) =
      ((lifetime key history).filter fun record => now ≤ record.deadline).map Lifetime.entry := by
  rw [Keyspace.live, kept]
  cases lifetime key history with
  | none => rfl
  | some record =>
    by_cases living : now ≤ record.deadline <;>
      simp [Option.filter, Lifetime.entry, Entry.alive, living]

theorem moves_formed (moves : Moves redis now call program executed later rest) :
    Formed executed := by
  cases moves with
  | admitted key ttlS | refused key ttlS => exact .admission key ttlS _
  | completed key hash | missed key hash => exact .completion key hash _
  | read key | got key => exact .get key _

/-- A command answered by the keys as they stand agrees with the history. -/
theorem moves_sound (moves : Moves redis now call program executed later rest)
    (kept : ∀ key, redis (redisKey key) = (lifetime key history).map Lifetime.entry)
    (past : ∀ event ∈ history, event.time ≤ now) :
    Sound history ⟨session, client, now, executed⟩ where
  formed := moves_formed moves
  later := past
  admits := by
    intro key ttlS same record known
    cases moves with
    | admitted own ttlS' free =>
      obtain ⟨rfl, _⟩ := admission_injective same
      rw [live_told kept, known] at free
      simpa [Option.filter] using free
    | refused own ttlS' entry taken => exact nomatch (admission_injective same).2.2
    | completed | missed => exact absurd same.symm admission_ne_completion
    | read | got => cases same
  completes := by
    intro key hash same
    cases moves with
    | completed own hash' entry there =>
      obtain ⟨rfl, _⟩ := completion_injective same
      rw [live_told kept] at there
      obtain ⟨record, living, _⟩ := Option.map_eq_some_iff.mp there
      obtain ⟨known, within⟩ := Option.filter_eq_some_iff.mp living
      exact ⟨record, known, by simpa using within⟩
    | missed own hash' gone => exact nomatch (completion_injective same).2.2
    | admitted | refused => exact absurd same admission_ne_completion
    | read | got => cases same
  reads := by
    intro key value same
    cases moves with
    | read own | got own =>
      simp only [Executed.get.injEq] at same
      obtain ⟨name, rfl⟩ := same
      rw [← redisKey_injective name, live_told kept, Option.map_map]
      rfl
    | admitted | refused | completed | missed => cases same

/-- The keys after a command hold what the history then tells. -/
theorem moves_kept (moves : Moves redis now call program executed later rest)
    (kept : ∀ key, redis (redisKey key) = (lifetime key history).map Lifetime.entry)
    (key : String) : later (redisKey key) =
      (lifetime key (history ++ [⟨session, client, now, executed⟩])).map Lifetime.entry := by
  rw [lifetime_append]
  cases moves with
  | admitted own ttlS free =>
    by_cases same : key = own
    · subst same
      rw [passed_admission rfl, Function.update_self]
      rfl
    · rw [passed_elsewhere same (.inl ⟨ttlS, true, rfl⟩),
        Function.update_of_ne (fun names => same (redisKey_injective names))]
      exact kept key
  | completed own hash entry there =>
    by_cases same : key = own
    · subst same
      rw [passed_completion rfl, Function.update_self]
      have held := (Keyspace.live_eq_some.mp there).1
      rw [kept key] at held
      obtain ⟨record, known, rfl⟩ := Option.map_eq_some_iff.mp held
      rw [known]
      rfl
    · rw [passed_elsewhere same (.inr ⟨hash, true, rfl⟩),
        Function.update_of_ne (fun names => same (redisKey_injective names))]
      exact kept key
  | refused own ttlS =>
    rw [passed_refused (.inl ⟨ttlS, rfl⟩)]
    exact kept key
  | missed own hash =>
    rw [passed_refused (.inr (.inl ⟨hash, rfl⟩))]
    exact kept key
  | read own | got own =>
    rw [passed_refused (.inr (.inr ⟨_, rfl⟩))]
    exact kept key

end Steps

theorem faithful_init : Faithful System.init where
  told := told_nil
  past _ member := nomatch member
  kept _ := rfl
  staged _ member := nomatch member

theorem faithful_next {system later : System} {action : Action} (faithful : Faithful system)
    (moved : system.next action = some later) : Faithful later := by
  cases action with
  | arrive client call =>
    cases moved
    refine ⟨faithful.told, faithful.past, faithful.kept, fun session member => ?_⟩
    rcases List.mem_append.mp member with old | fresh
    · exact faithful.staged session old
    · obtain rfl := List.mem_singleton.mp fresh
      exact .fresh call
  | step index now =>
    obtain ⟨session, executed, redis, rest, found, after, moves, rfl⟩ :=
      next_step faithful.staged moved
    have past : ∀ event ∈ system.history, event.time ≤ now :=
      fun event member => (faithful.past event member).trans after
    refine ⟨told_append.mpr ⟨faithful.told, moves_sound moves faithful.kept past⟩, ?_,
      moves_kept moves faithful.kept, ?_⟩
    · intro event member
      rcases List.mem_append.mp member with old | fresh
      · exact past event old
      · obtain rfl := List.mem_singleton.mp fresh
        exact le_rfl
    · intro other member
      rcases List.mem_or_eq_of_mem_set member with old | rfl
      · exact faithful.staged other old
      · exact moves_stage moves

end BackendFoundation.IdempotencyLifetimes
