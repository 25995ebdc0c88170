import BackendFoundation.IdempotencyProofs

/-! Whose completion a record holds. `complete` writes into whatever record is
there, so a client that completes after its own record has expired can land on
its successor's; clients that complete in time, or when nothing is there, never
do. -/
namespace BackendFoundation.IdempotencyOwners
open RequestPrograms ExpiringKeys IdempotencyStore IdempotencyLifetimes IdempotencyProofs

/-- The session has told its client that it is admitted to the key. -/
def admittedTo (key : String) (session : Session) : Bool :=
  match session.call, session.program with
  | .begin own _, .ret (.began ⟨.new, none⟩) => own == key
  | _, _ => false

def completesKey (key : String) (session : Session) : Bool :=
  match session.call with
  | .complete own _ => own == key
  | _ => false

/-- A client completes a key at most once, and only after a `begin` of its own
has returned new. -/
def disciplined (system : System) : Action → Bool
  | .arrive client (.complete key _) =>
    (system.sessions.any fun session => session.client == client && admittedTo key session) &&
      !system.sessions.any fun session => session.client == client && completesKey key session
  | _ => true

/-- The event created a record of the key whose time has not passed yet. -/
def admits (key : String) (now : ℕ) (event : Event) : Bool :=
  match event.executed with
  | .set name _ options true =>
    name == redisKey key && options.nx && now ≤ event.time + options.ex.getD 0
  | _ => false

/-- A completion is executed before the time of the record that its client created
has passed, or while there is no record. -/
def timely (system : System) : Action → Bool
  | .step index now =>
    match system.sessions[index]? with
    | some session =>
      match session.call with
      | .complete key _ => (system.redis.live now (redisKey key)).isNone ||
          system.history.any fun event => event.client == session.client && admits key now event
      | _ => true
    | none => true
  | _ => true

/-- What a caller that is told of a response hash may rely on. -/
structure OwnersComplete (system : System) : Prop where
  /-- What `begin` and `get` report as done is what they read under their key. -/
  reported : ∀ index session record, system.sessions[index]? = some session →
    session.program = .ret (.began record) ∨ session.program = .ret (.got (some record)) →
      record.status = .done → ∃ responseHash, record = ⟨.done, some responseHash⟩ ∧
        Read system.history index session.call.key (some ("done:" ++ responseHash).toUTF8)
  /-- The hash a call reads was written by the client whose `begin` created the record. -/
  owned : ∀ before event after key responseHash, system.history = before ++ event :: after →
    event.executed = .get (redisKey key) (some ("done:" ++ responseHash).toUTF8) →
      ∃ record, lifetime key before = some record ∧
        record.written = some (record.creator, ("done:" ++ responseHash).toUTF8)
  /-- Within one record's life no later call reads anything else. -/
  settled : ∀ before first middle second after key responseHash value,
    system.history = before ++ first :: (middle ++ second :: after) →
      first.executed = .get (redisKey key) (some ("done:" ++ responseHash).toUTF8) →
      second.executed = .get (redisKey key) (some value) →
      (∀ event ∈ middle, ∀ ttlS, event.executed ≠ admission key ttlS true) →
        value = ("done:" ++ responseHash).toUTF8

/-- A client that is admitted, stalls until its record has expired, and then
completes the record of the client admitted after it. -/
def lateCompletion : List Action :=
  [.arrive 0 (.begin "k" 1), .step 0 0, .arrive 1 (.begin "k" 1), .step 1 1001,
    .arrive 0 (.complete "k" "stale"), .step 2 1002, .arrive 2 (.get "k"), .step 3 1003]

theorem owners_overtaken :
    ¬ ∀ actions system, System.init.run disciplined actions = some system →
      OwnersComplete system := by
  intro owners
  have history : (System.init.run disciplined lateCompletion).map System.history = some
      [⟨0, 0, 0, admission "k" 1 true⟩, ⟨1, 1, 1001, admission "k" 1 true⟩,
        ⟨2, 0, 1002, completion "k" "stale" true⟩,
        ⟨3, 2, 1003, .get (redisKey "k") (some ("done:" ++ "stale").toUTF8)⟩] := by decide +kernel
  obtain ⟨system, ran, told⟩ := Option.map_eq_some_iff.mp history
  obtain ⟨record, last, owned⟩ := (owners lateCompletion system ran).owned
    [⟨0, 0, 0, admission "k" 1 true⟩, ⟨1, 1, 1001, admission "k" 1 true⟩,
      ⟨2, 0, 1002, completion "k" "stale" true⟩] _ [] "k" "stale" told rfl
  have computed : lifetime "k" [⟨0, 0, 0, admission "k" 1 true⟩,
      ⟨1, 1, 1001, admission "k" 1 true⟩, ⟨2, 0, 1002, completion "k" "stale" true⟩] =
      some ⟨1, 2001, some (0, ("done:" ++ "stale").toUTF8)⟩ := by decide +kernel
  cases computed.symm.trans last
  cases owned

/-- Each completion went into a record its client had created and nobody had
completed before. -/
def Lawful (history : List Event) : Prop :=
  ∀ before event after key responseHash, history = before ++ event :: after →
    event.executed = completion key responseHash true →
      ∃ record, lifetime key before = some record ∧ record.creator = event.client ∧
        record.written = none

theorem lawful_append {history : List Event} {event : Event} :
    Lawful (history ++ [event]) ↔ Lawful history ∧ ∀ key responseHash,
      event.executed = completion key responseHash true →
        ∃ record, lifetime key history = some record ∧ record.creator = event.client ∧
          record.written = none := by
  constructor
  · refine fun lawful => ⟨fun before earlier after key hash same => ?_, ?_⟩
    · exact lawful before earlier (after ++ [event]) key hash (by rw [same]; simp)
    · exact fun key hash => lawful history event [] key hash rfl
  · rintro ⟨lawful, last⟩ before earlier after key hash same
    rcases List.eq_nil_or_concat after with rfl | ⟨rest, final, rfl⟩
    · obtain ⟨rfl, one⟩ := List.append_inj' same rfl
      cases one
      exact last key hash
    · rw [List.concat_eq_append, ← List.cons_append, ← List.append_assoc] at same
      exact lawful before earlier rest key hash (List.append_inj' same rfl).1

theorem told_initial {history rest : List Event} (told : Told (history ++ rest)) : Told history :=
  fun before event after same => told before event (after ++ rest) (by rw [same]; simp)

theorem lawful_initial {history rest : List Event} (lawful : Lawful (history ++ rest)) :
    Lawful history :=
  fun before event after key hash same =>
    lawful before event (after ++ rest) key hash (by rw [same]; simp)

section Histories

variable {key : String} {history : List Event} {record : Lifetime}

/-- What a record holds was written by its creator. -/
theorem written_by_creator (told : Told history) (lawful : Lawful history)
    (last : lifetime key history = some record) {client : ℕ} {value : ByteArray}
    (held : record.written = some (client, value)) : client = record.creator := by
  induction history using List.reverseRecOn generalizing record with
  | nil => cases last
  | append_singleton history event ih =>
    obtain ⟨told, sound⟩ := told_append.mp told
    obtain ⟨lawful, completes⟩ := lawful_append.mp lawful
    rw [lifetime_append] at last
    cases passes key (lifetime key history) sound.formed with
    | created ttlS executed now =>
      rw [now] at last
      cases last
      cases held
    | written responseHash executed now =>
      obtain ⟨old, known, creator, _⟩ := completes key responseHash executed
      rw [now, known] at last
      cases last
      cases held
      exact creator.symm
    | kept unadmitted uncompleted now =>
      rw [now] at last
      exact ih told lawful last held

/-- A record that holds a hash keeps it until the next one is created. -/
theorem written_stays {middle : List Event} (told : Told (history ++ middle))
    (lawful : Lawful (history ++ middle)) (last : lifetime key history = some record)
    (held : record.written ≠ none)
    (unadmitted : ∀ event ∈ middle, ∀ ttlS, event.executed ≠ admission key ttlS true) :
    lifetime key (history ++ middle) = some record := by
  induction middle using List.reverseRecOn with
  | nil => rwa [List.append_nil]
  | append_singleton middle event ih =>
    rw [← List.append_assoc] at told lawful ⊢
    obtain ⟨told, sound⟩ := told_append.mp told
    obtain ⟨lawful, completes⟩ := lawful_append.mp lawful
    have known := ih told lawful fun earlier member =>
      unadmitted earlier (List.mem_append_left _ member)
    rw [lifetime_append]
    cases passes key (lifetime key (history ++ middle)) sound.formed with
    | created ttlS executed now => exact absurd executed (unadmitted event (by simp) ttlS)
    | written responseHash executed now =>
      obtain ⟨old, same, _, unwritten⟩ := completes key responseHash executed
      cases known.symm.trans same
      exact absurd unwritten held
    | kept _ _ now => exact now.trans known

/-- What a read that finds a hash tells about the record. -/
theorem read_holds {event : Event} (sound : Sound history event)
    {responseHash : String}
    (executed : event.executed = .get (redisKey key) (some ("done:" ++ responseHash).toUTF8)) :
    ∃ record client, lifetime key history = some record ∧
      record.written = some (client, ("done:" ++ responseHash).toUTF8) := by
  obtain ⟨record, living, value⟩ := Option.map_eq_some_iff.mp (sound.reads key _ executed).symm
  have last := (Option.filter_eq_some_iff.mp living).1
  cases held : record.written with
  | none =>
    rw [Lifetime.value, held] at value
    have texts := congrArg String.toList (String.toByteArray_inj.mp value)
    simp at texts
  | some written =>
    obtain ⟨client, bytes⟩ := written
    rw [Lifetime.value, held] at value
    exact ⟨record, client, last, held.trans (by rw [← value])⟩

end Histories

/-- What a disciplined run with timely completions keeps. -/
structure Orderly (system : System) : Prop extends Accounted system where
  lawful : Lawful system.history
  single : ∀ (index other : ℕ) (session session' : Session) (key : String),
    system.sessions[index]? = some session → system.sessions[other]? = some session' →
      session.client = session'.client → completesKey key session → completesKey key session' →
        index = other

theorem orderly_init : Orderly System.init :=
  { accounted_init with
    lawful := fun before event after key hash split => by cases before <;> cases split
    single := fun _ _ _ _ _ found => by cases found }

/-- An event that admits to a key is an admission that has not expired. -/
theorem admits_admission {key : String} {now : ℕ} {event : Event} (formed : Formed event.executed)
    (admitted : admits key now event = true) :
    ∃ ttlS : ℕ+, event.executed = admission key ttlS true ∧ now ≤ event.time + 1000 * (ttlS : ℕ) := by
  generalize shape : event.executed = executed at formed
  cases formed with
  | admission other ttlS stored =>
    cases stored with
    | false => simp [admits, shape, admission] at admitted
    | true =>
      simp only [admits, shape, admission, Bool.and_eq_true, beq_iff_eq,
        and_true, Option.getD_some, decide_eq_true_eq] at admitted
      obtain ⟨name, within⟩ := admitted
      obtain rfl := redisKey_injective name
      exact ⟨ttlS, rfl, within⟩
  | completion other hash stored =>
    cases stored <;> simp [admits, shape, completion] at admitted
  | get other value => simp [admits, shape] at admitted

/-- A timely completion that is stored goes into its own client's record, which
nobody has completed. -/
theorem timely_completion {system : System} (orderly : Orderly system) {index now : ℕ}
    {session : Session} (found : system.sessions[index]? = some session)
    (prompt : timely system (.step index now) = true) (after : system.clock ≤ now)
    {key responseHash : String} (call : session.call = .complete key responseHash)
    (unheard : ∀ event ∈ system.history, event.session ≠ index)
    {entry : Entry ByteArray} (there : system.redis.live now (redisKey key) = some entry) :
    ∃ record, lifetime key system.history = some record ∧ record.creator = session.client ∧
      record.written = none := by
  simp only [timely, found, call, there, Option.isNone_some, Bool.false_or, List.any_eq_true,
    Bool.and_eq_true, beq_iff_eq] at prompt
  obtain ⟨event, member, client, admitted⟩ := prompt
  obtain ⟨before, rest, split⟩ := List.append_of_mem member
  obtain ⟨ttlS, executed, within⟩ :=
    admits_admission (orderly.told before event rest split).formed admitted
  obtain ⟨record, last, _, owner⟩ := admitted_until_deadline orderly.told member executed
  have creator : record.creator = session.client :=
    (owner now (fun other here => (orderly.past other here).trans after) within).trans client
  refine ⟨record, last, creator, ?_⟩
  cases held : record.written with
  | none => rfl
  | some written =>
    obtain ⟨writer, value⟩ := written
    have same := written_by_creator orderly.told orderly.lawful last held
    obtain ⟨earlier, here, hash, completes, sent, _⟩ :=
      written_by_completion orderly.told last held
    obtain ⟨sender, sending, identity, called⟩ := orderly.called earlier here
    have completing := called key hash true completes
    have one : earlier.session = index := by
      refine orderly.single _ _ sender session key sending found ?_ ?_ ?_
      · rw [identity, sent, same, creator]
      · simp [completesKey, completing]
      · simp [completesKey, call]
    exact absurd one (unheard earlier here)

theorem orderly_next {system later : System} {action : Action} (orderly : Orderly system)
    (polite : disciplined system action = true) (prompt : timely system action = true)
    (moved : system.next action = some later) : Orderly later := by
  refine { accounted_next orderly.toAccounted moved with lawful := ?_, single := ?_ }
  · cases action with
    | arrive client call =>
      cases moved
      exact orderly.lawful
    | step index now =>
      obtain ⟨session, executed, redis, rest, found, after, moves, rfl⟩ :=
        next_step orderly.staged moved
      refine lawful_append.mpr ⟨orderly.lawful, fun key hash same => ?_⟩
      have call := moves_called moves same
      have account := orderly.accounts index session found
      obtain ⟨client, called, program⟩ := session
      dsimp only at call moves account same
      subst call
      cases moves with
      | completed key' hash' entry there =>
        exact timely_completion orderly found prompt after rfl (fresh_unheard account) there
      | missed key' hash' gone => exact nomatch (completion_injective same).2.2
  · intro index other session session' key found found' client completes completes'
    cases action with
    | step stepped now =>
      have before : ∀ (place : ℕ) (held : Session), later.sessions[place]? = some held →
          ∃ old, system.sessions[place]? = some old ∧ old.client = held.client ∧
            completesKey key old = completesKey key held := by
        intro place held holds
        obtain ⟨mover, _, _, _, moving, _, _, rfl⟩ := next_step orderly.staged moved
        by_cases own : place = stepped
        · subst own
          rw [List.getElem?_set_self (List.getElem?_eq_some_iff.mp moving).1] at holds
          cases holds
          exact ⟨mover, moving, rfl, rfl⟩
        · rw [List.getElem?_set_ne (Ne.symm own)] at holds
          exact ⟨held, holds, rfl, rfl⟩
      obtain ⟨old, here, same, marks⟩ := before index session found
      obtain ⟨old', here', same', marks'⟩ := before other session' found'
      exact orderly.single index other old old' key here here'
        (same.trans (client.trans same'.symm)) (marks.trans completes) (marks'.trans completes')
    | arrive arriving call =>
      cases moved
      have fresh : ∀ old ∈ system.sessions, completesKey key ⟨arriving, call, serve call⟩ = true →
          completesKey key old = true → old.client ≠ arriving := by
        intro old member arrives marks same
        cases call with
        | begin => cases arrives
        | get => cases arrives
        | complete own hash =>
          obtain rfl : own = key := by simpa [completesKey] using arrives
          simp only [disciplined, Bool.and_eq_true, Bool.not_eq_true', List.any_eq_false] at polite
          exact polite.2 old member (by simp [same, marks])
      have placed : ∀ (place : ℕ) (held : Session),
          (system.sessions ++ [⟨arriving, call, serve call⟩])[place]? = some held →
            (system.sessions[place]? = some held ∧ held ∈ system.sessions) ∨
              (place = system.sessions.length ∧ held = ⟨arriving, call, serve call⟩) := by
        intro place held holds
        by_cases old : place < system.sessions.length
        · rw [List.getElem?_append_left old] at holds
          exact .inl ⟨holds, List.mem_of_getElem? holds⟩
        · rw [List.getElem?_append_right (by omega)] at holds
          have bound := (List.getElem?_eq_some_iff.mp holds).1
          rw [List.length_singleton] at bound
          exact .inr ⟨by omega, List.mem_singleton.mp (List.mem_of_getElem? holds)⟩
      rcases placed index session found with ⟨here, member⟩ | ⟨last, rfl⟩ <;>
        rcases placed other session' found' with ⟨here', member'⟩ | ⟨last', rfl⟩
      · exact orderly.single index other session session' key here here' client completes completes'
      · exact absurd client (fresh session member completes' completes)
      · exact absurd client.symm (fresh session' member' completes completes')
      · rw [last, last']

theorem run_orderly {actions : List Action} {system later : System} (orderly : Orderly system)
    (ran : system.run (fun system action => disciplined system action && timely system action)
      actions = some later) : Orderly later := by
  induction actions generalizing system with
  | nil =>
    cases ran
    exact orderly
  | cons action rest ih =>
    simp only [System.run, Option.ite_none_right_eq_some, Option.bind_eq_some_iff,
      Bool.and_eq_true] at ran
    obtain ⟨⟨polite, prompt⟩, between, moved, ran⟩ := ran
    exact ih (orderly_next orderly polite prompt moved) ran

/-- A reported hash is the one that was read. -/
theorem read_reported {history : List Event} (told : Told history) {index : ℕ} {key : String}
    {value : Option ByteArray} {record : IdempotencyRecord} (read : Read history index key value)
    (reports : reported value = .ok (some record)) (done : record.status = .done) :
    ∃ responseHash, record = ⟨.done, some responseHash⟩ ∧
      Read history index key (some ("done:" ++ responseHash).toUTF8) := by
  obtain ⟨before, event, after, split, own, executed⟩ := read
  have prior : Told before := told_initial (split ▸ told)
  obtain ⟨_, found⟩ | found | ⟨responseHash, rfl, found, _⟩ :=
    sound_read prior (told before event after split) executed
  · cases reports.symm.trans found
  · cases reports.symm.trans found
    cases done
  · cases reports.symm.trans found
    exact ⟨responseHash, rfl, before, event, after, split, own, executed⟩

theorem owners_of_orderly {system : System} (orderly : Orderly system) : OwnersComplete system where
  reported := by
    intro index session record found told done
    have account := orderly.accounts index session found
    generalize session.call = call, session.program = program at account told
    cases account with
    | fresh call unheard =>
      rcases told with told | told <;> exact absurd told serve_ne_ret
    | refused | completed => rcases told with told | told <;> cases told
    | admitted =>
      rcases told with told | told
      · cases told
        cases done
      · cases told
    | answered key ttlS value answer denied read reports =>
      rcases told with told | told
      · cases answer with
        | none =>
          cases told
          cases done
        | some answer =>
          cases told
          exact read_reported orderly.told read reports done
      · cases told
    | got key value answer read reports =>
      rcases told with told | told
      · cases told
      · cases told
        exact read_reported orderly.told read reports done
  owned := by
    intro before event after key hash split executed
    have told : Told before := told_initial (split ▸ orderly.told)
    have lawful : Lawful before := lawful_initial (split ▸ orderly.lawful)
    obtain ⟨record, client, last, held⟩ :=
      read_holds (orderly.told before event after split) executed
    obtain rfl := written_by_creator told lawful last held
    exact ⟨record, last, held⟩
  settled := by
    intro before first middle second after key hash value split read reread unadmitted
    have regroup : system.history = (before ++ first :: middle) ++ second :: after := by
      rw [split]
      simp
    have told : Told (before ++ first :: middle) := told_initial (regroup ▸ orderly.told)
    have lawful : Lawful (before ++ first :: middle) := lawful_initial (regroup ▸ orderly.lawful)
    obtain ⟨record, client, last, held⟩ := read_holds (orderly.told before first _ split) read
    have stays : lifetime key (before ++ first :: middle) = some record := by
      refine written_stays told lawful last (by rw [held]; simp) fun event member ttlS same => ?_
      rcases List.mem_cons.mp member with rfl | member
      · cases same.symm.trans read
      · exact unadmitted event member ttlS same
    obtain ⟨other, living, found⟩ := Option.map_eq_some_iff.mp
      ((orderly.told _ second after regroup).reads key _ reread).symm
    cases (Option.filter_eq_some_iff.mp living).1.symm.trans stays
    rw [← found, Lifetime.value, held]

/-- **Timely completions are their owners'.** In every disciplined run in which
each completion is executed before its client's record expires, or while there
is none, a reported hash is that of the client the record belongs to, and stays. -/
theorem timely_owners_complete (actions : List Action) (system : System)
    (ran : System.init.run (fun system action => disciplined system action && timely system action)
      actions = some system) : OwnersComplete system :=
  owners_of_orderly (run_orderly orderly_init ran)

/-- A stalled client whose record has expired completes before anyone else is
admitted, which leaves no trace, and the next client's hash is its own. -/
theorem unhurried_owners_complete :
    ∃ system, System.init.run
        (fun system action => disciplined system action && timely system action)
        [.arrive 0 (.begin "k" 1), .step 0 0, .arrive 0 (.complete "k" "stale"), .step 1 1001,
          .arrive 1 (.begin "k" 1), .step 2 1002, .arrive 1 (.complete "k" "own"), .step 3 1003,
          .arrive 2 (.get "k"), .step 4 1004] = some system ∧ OwnersComplete system := by
  have runs : (System.init.run
      (fun system action => disciplined system action && timely system action)
      [.arrive 0 (.begin "k" 1), .step 0 0, .arrive 0 (.complete "k" "stale"), .step 1 1001,
        .arrive 1 (.begin "k" 1), .step 2 1002, .arrive 1 (.complete "k" "own"), .step 3 1003,
        .arrive 2 (.get "k"), .step 4 1004]).isSome := by decide +kernel
  obtain ⟨system, ran⟩ := Option.isSome_iff_exists.mp runs
  exact ⟨system, ran, timely_owners_complete _ system ran⟩

/-- A completion that is late and finds a record finds another client's. -/
theorem late_finds_another {system : System} (accounted : Accounted system) {index now : ℕ}
    {session : Session} {key responseHash : String} (found : system.sessions[index]? = some session)
    (call : session.call = .complete key responseHash)
    (late : timely system (.step index now) = false) :
    ∃ record, lifetime key system.history = some record ∧
      system.redis.live now (redisKey key) = some record.entry ∧
        record.creator ≠ session.client := by
  simp only [timely, found, call, Bool.or_eq_false_iff, Option.isNone_eq_false_iff,
    Option.isSome_iff_exists, List.any_eq_false] at late
  obtain ⟨⟨entry, there⟩, strangers⟩ := late
  obtain ⟨record, living, rfl⟩ := Option.map_eq_some_iff.mp ((live_told accounted.kept key).symm.trans there)
  obtain ⟨last, within⟩ := Option.filter_eq_some_iff.mp living
  obtain ⟨event, member, ttlS, executed, creator, deadline⟩ :=
    created_by_creator accounted.told last
  refine ⟨record, last, there, fun own => strangers event member ?_⟩
  simp only [decide_eq_true_eq] at within
  simp only [admits, executed, admission, creator.trans own, beq_self_eq_true, Bool.true_and,
    Option.getD_some, decide_eq_true_eq]
  omega

/-- A client may always ask at once, and reads what is there. -/
theorem read_now (system : System) (reader : ℕ) (key : String) : ∃ sessions,
    system.run disciplined [.arrive reader (.get key), .step system.sessions.length system.clock] =
      some (System.mk system.redis sessions system.clock (system.history ++
        [⟨system.sessions.length, reader, system.clock, .get (redisKey key)
          ((system.redis.live system.clock (redisKey key)).map Entry.value)⟩])) := by
  refine ⟨(system.sessions ++ [Session.mk reader (.get key) (serve (.get key))]).set
    system.sessions.length ⟨reader, .get key, answered ((system.redis.live system.clock (redisKey key)).map Entry.value)
      .got⟩, ?_⟩
  simp [System.run, disciplined, System.next, serve_get, execute, Command.executed]

/-- **The condition is exact.** Right after a late completion that found a
record, a reader is told a hash that is not that record's owner's. -/
theorem late_is_overtaken {system later : System} (accounted : Accounted system) {index now : ℕ}
    {session : Session} {key responseHash : String} (found : system.sessions[index]? = some session)
    (call : session.call = .complete key responseHash) (reader : ℕ)
    (late : timely system (.step index now) = false)
    (moved : system.next (.step index now) = some later) :
    ∃ final, later.run disciplined
        [.arrive reader (.get key), .step later.sessions.length now] = some final ∧
      ¬ OwnersComplete final := by
  obtain ⟨record, last, there, stranger⟩ := late_finds_another accounted found call late
  obtain ⟨mover, executed, redis, rest, moving, after, moves, rfl⟩ :=
    next_step accounted.staged moved
  cases found.symm.trans moving
  obtain ⟨client, called, program⟩ := session
  dsimp only at call moves stranger
  subst call
  cases moves with
  | missed _ _ gone => cases gone.symm.trans there
  | completed _ _ entry held =>
    cases held.symm.trans there
    have lives : record.entry.expires.all (now ≤ ·) = true := (Keyspace.live_eq_some.mp there).2
    obtain ⟨sessions, ran⟩ := read_now _ reader key
    refine ⟨_, ran, fun owners => ?_⟩
    have reads : (Keyspace.live (Function.update system.redis (redisKey key)
        (some ⟨("done:" ++ responseHash).toUTF8, record.entry.expires⟩)) now (redisKey key)).map
          Entry.value = some ("done:" ++ responseHash).toUTF8 := by
      rw [Keyspace.live_update_self, Option.filter, Entry.alive, if_pos lives]
      rfl
    obtain ⟨other, known, owned⟩ := owners.owned _ _ [] key responseHash rfl (congrArg _ reads)
    rw [lifetime_append, last, passed_completion rfl] at known
    cases known
    cases owned
    exact stranger rfl

end BackendFoundation.IdempotencyOwners
