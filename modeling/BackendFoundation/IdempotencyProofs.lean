import BackendFoundation.IdempotencyLifetimes

/-! What the callers of the idempotency store are told, over every interleaving
of their commands and every placement of the expiries: who is admitted, what the
others see, and whose completion a record holds. -/
namespace BackendFoundation.IdempotencyProofs
open RequestPrograms ExpiringKeys IdempotencyStore IdempotencyLifetimes

theorem reported_text (text : String) : reported (some text.toUTF8) = .ok (parse text) := by
  have decoded : String.fromUTF8? text.toUTF8 = some text := dif_pos text.isValidUTF8
  simp only [reported, decoded]

theorem parse_in_flight : parse "in_flight" = some ⟨.inFlight, none⟩ := if_pos rfl

/-- A response hash comes back from its stored form unchanged. -/
theorem parse_done (responseHash : String) :
    parse ("done:" ++ responseHash) = some ⟨.done, some responseHash⟩ := by
  have marked : ("done:" ++ responseHash) ≠ "in_flight" := by
    intro same
    have texts := congrArg String.toList same
    simp at texts
  simp [parse, marked]

/-- This call read this value under the key. -/
def Read (history : List Event) (index : ℕ) (key : String) (value : Option ByteArray) : Prop :=
  ∃ before event after, history = before ++ event :: after ∧ event.session = index ∧
    event.executed = .get (redisKey key) value

/-- Where a call is, with the commands it has had executed. -/
inductive Account (history : List Event) (index : ℕ) : Call → Client Outcome → Prop where
  | fresh (call : Call) (unheard : ∀ event ∈ history, event.session ≠ index) :
    Account history index call (serve call)
  | refused (key : String) (ttlS : ℕ+)
    (denied : ∀ event ∈ history, event.session = index → event.executed = admission key ttlS false) :
    Account history index (.begin key ttlS) (refused key)
  | admitted (key : String) (ttlS : ℕ+)
    (own : ∃ event ∈ history, event.session = index ∧ event.executed = admission key ttlS true) :
    Account history index (.begin key ttlS) (.ret (.began ⟨.new, none⟩))
  | answered (key : String) (ttlS : ℕ+) (value : Option ByteArray)
    (record : Option IdempotencyRecord)
    (denied : ∀ event ∈ history, event.session = index →
      ∀ ttlS', event.executed ≠ admission key ttlS' true)
    (read : Read history index key value) (reports : reported value = .ok record) :
    Account history index (.begin key ttlS) (.ret (beganWith record))
  | completed (key responseHash : String) :
    Account history index (.complete key responseHash) (.ret .completed)
  | got (key : String) (value : Option ByteArray) (record : Option IdempotencyRecord)
    (read : Read history index key value) (reports : reported value = .ok record) :
    Account history index (.get key) (.ret (.got record))

/-- Every call is accounted for, and every executed command was sent by a call. -/
structure Accounted (system : System) : Prop extends Faithful system where
  accounts : ∀ index session, system.sessions[index]? = some session →
    Account system.history index session.call session.program
  called : ∀ event ∈ system.history, ∃ session, system.sessions[event.session]? = some session ∧
    session.client = event.client ∧ ∀ key responseHash stored,
      event.executed = completion key responseHash stored → session.call = .complete key responseHash

section Steps

variable {history : List Event} {index : ℕ} {call : Call} {program : Client Outcome} {event : Event}

theorem read_append {key : String} {value : Option ByteArray} (read : Read history index key value) :
    Read (history ++ [event]) index key value := by
  obtain ⟨before, reading, after, rfl, rest⟩ := read
  exact ⟨before, reading, after ++ [event], by simp, rest⟩

/-- Another call's command leaves an account as it is. -/
theorem account_append (account : Account history index call program)
    (apart : event.session ≠ index) : Account (history ++ [event]) index call program := by
  have mine : ∀ other ∈ history ++ [event], other.session = index → other ∈ history := by
    intro other member own
    rcases List.mem_append.mp member with old | fresh
    · exact old
    · exact absurd (List.mem_singleton.mp fresh ▸ own) apart
  cases account with
  | fresh call unheard =>
    exact .fresh call fun other member own => unheard other (mine other member own) own
  | refused key ttlS denied =>
    exact .refused key ttlS fun other member own => denied other (mine other member own) own
  | admitted key ttlS own =>
    obtain ⟨admitting, member, rest⟩ := own
    exact .admitted key ttlS ⟨admitting, List.mem_append_left _ member, rest⟩
  | answered key ttlS value record denied read reports =>
    exact .answered key ttlS value record
      (fun other member own => denied other (mine other member own) own) (read_append read) reports
  | completed key responseHash => exact .completed key responseHash
  | got key value record read reports => exact .got key value record (read_append read) reports

/-- A call that has not started has had nothing executed. -/
theorem fresh_unheard (account : Account history index call (serve call)) :
    ∀ event ∈ history, event.session ≠ index := by
  generalize shape : serve call = program at account
  cases account with
  | fresh call unheard => exact unheard
  | refused key ttlS denied =>
    rw [serve_begin] at shape
    cases shape
  | admitted | answered | completed | got => exact absurd shape serve_ne_ret

/-- A refused call has had nothing but its refusal executed. -/
theorem refused_denied {key : String} {ttlS : ℕ+}
    (account : Account history index (.begin key ttlS) (refused key)) :
    ∀ event ∈ history, event.session = index → event.executed = admission key ttlS false := by
  generalize shape : refused key = program at account
  cases account with
  | fresh call unheard =>
    rw [serve_begin] at shape
    cases shape
  | refused key ttlS denied => exact denied
  | admitted | answered => cases shape

/-- A record holds the mark of its creation or a completion on its key. -/
theorem told_values (told : Told history) {key : String} {record : Lifetime}
    (last : lifetime key history = some record) :
    record.value = "in_flight".toUTF8 ∨ ∃ responseHash, ∃ event ∈ history,
      event.executed = completion key responseHash true ∧
        record.value = ("done:" ++ responseHash).toUTF8 := by
  cases held : record.written with
  | none => exact .inl (by rw [Lifetime.value, held])
  | some written =>
    obtain ⟨client, value⟩ := written
    obtain ⟨event, member, responseHash, executed, _, rfl⟩ := written_by_completion told last held
    exact .inr ⟨responseHash, event, member, executed, by rw [Lifetime.value, held]⟩

/-- What a read finds: nothing, a record in flight, or one that is done. -/
theorem sound_read (told : Told history) (sound : Sound history event) {key : String}
    {value : Option ByteArray} (executed : event.executed = .get (redisKey key) value) :
    (value = none ∧ reported value = .ok none) ∨ reported value = .ok (some ⟨.inFlight, none⟩) ∨
      ∃ responseHash, value = some ("done:" ++ responseHash).toUTF8 ∧
        reported value = .ok (some ⟨.done, some responseHash⟩) ∧
          ∃ earlier ∈ history, earlier.executed = completion key responseHash true := by
  have found := sound.reads key value executed
  cases living : (lifetime key history).filter fun record => event.time ≤ record.deadline with
  | none =>
    rw [living] at found
    cases found
    exact .inl ⟨rfl, rfl⟩
  | some record =>
    rw [living] at found
    cases found
    have last := (Option.filter_eq_some_iff.mp living).1
    right
    obtain held | ⟨responseHash, earlier, member, completes, held⟩ := told_values told last
    · left
      rw [Option.map_some, held, reported_text, parse_in_flight]
    · right
      refine ⟨responseHash, congrArg some held, ?_, earlier, member, completes⟩
      rw [Option.map_some, held, reported_text, parse_done]

variable {redis later : Redis} {now client : ℕ} {executed : Executed} {rest : Client Outcome}

/-- A call's account after its next command. -/
theorem moves_account (moves : Moves redis now call program executed later rest)
    (account : Account history index call program) (told : Told history)
    (sound : Sound history ⟨index, client, now, executed⟩) :
    Account (history ++ [⟨index, client, now, executed⟩]) index call rest := by
  have here : ∀ key value, executed = .get (redisKey key) value →
      Read (history ++ [⟨index, client, now, executed⟩]) index key value :=
    fun key value same => ⟨history, _, [], rfl, rfl, same⟩
  have reports : ∀ key value, executed = .get (redisKey key) value →
      ∃ record, reported value = .ok record := by
    intro key value same
    obtain ⟨_, reports⟩ | reports | ⟨_, _, reports, _⟩ := sound_read told sound same
    · exact ⟨_, reports⟩
    · exact ⟨_, reports⟩
    · exact ⟨_, reports⟩
  cases moves with
  | admitted key ttlS free => exact .admitted key ttlS ⟨_, List.mem_append_right _ (List.mem_singleton_self _), rfl, rfl⟩
  | refused key ttlS entry taken =>
    refine .refused key ttlS fun event member own => ?_
    rcases List.mem_append.mp member with old | fresh
    · exact absurd own (fresh_unheard account event old)
    · rw [List.mem_singleton.mp fresh]
  | read key ttlS =>
    obtain ⟨record, reports⟩ := reports key _ rfl
    rw [answered, reports]
    refine .answered key ttlS _ record (fun event member own ttlS' same => ?_) (here key _ rfl) reports
    rcases List.mem_append.mp member with old | fresh
    · rw [refused_denied account event old own] at same
      exact nomatch (admission_injective same).2.2
    · rw [List.mem_singleton.mp fresh] at same
      cases same
  | completed key responseHash entry there => exact .completed key responseHash
  | missed key responseHash gone => exact .completed key responseHash
  | got key =>
    obtain ⟨record, reports⟩ := reports key _ rfl
    rw [answered, reports]
    exact .got key _ record (here key _ rfl) reports

theorem moves_called (moves : Moves redis now call program executed later rest)
    {key responseHash : String} {stored : Bool} (same : executed = completion key responseHash stored) :
    call = .complete key responseHash := by
  cases moves with
  | admitted | refused => exact absurd same admission_ne_completion
  | read | got => cases same
  | completed own hash | missed own hash =>
    obtain ⟨rfl, rfl, _⟩ := completion_injective same
    rfl

end Steps

theorem accounted_init : Accounted System.init :=
  { faithful_init with
    accounts := fun _ _ found => by cases found
    called := fun _ member => nomatch member }

theorem accounted_next {system later : System} {action : Action} (accounted : Accounted system)
    (moved : system.next action = some later) : Accounted later := by
  refine { faithful_next accounted.toFaithful moved with accounts := ?_, called := ?_ }
  · intro index session found
    cases action with
    | arrive client call =>
      cases moved
      by_cases old : index < system.sessions.length
      · rw [List.getElem?_append_left old] at found
        exact accounted.accounts index session found
      · rw [List.getElem?_append_right (by omega)] at found
        obtain rfl := List.mem_singleton.mp (List.mem_of_getElem? found)
        refine .fresh call fun event member own => ?_
        obtain ⟨sender, sent, _⟩ := accounted.called event member
        have bound := (List.getElem?_eq_some_iff.mp sent).1
        omega
    | step stepped now =>
      obtain ⟨mover, executed, redis, rest, moving, after, moves, rfl⟩ :=
        next_step accounted.staged moved
      have past : ∀ event ∈ system.history, event.time ≤ now :=
        fun event member => (accounted.past event member).trans after
      by_cases own : index = stepped
      · subst own
        have bound := (List.getElem?_eq_some_iff.mp moving).1
        rw [List.getElem?_set_self bound] at found
        cases found
        exact moves_account moves (accounted.accounts index mover moving) accounted.told
          (moves_sound moves accounted.kept past)
      · rw [List.getElem?_set_ne (Ne.symm own)] at found
        exact account_append (accounted.accounts index session found) (Ne.symm own)
  · intro event member
    cases action with
    | arrive client call =>
      cases moved
      obtain ⟨session, found, rest⟩ := accounted.called event member
      have bound := (List.getElem?_eq_some_iff.mp found).1
      exact ⟨session, by rw [List.getElem?_append_left bound, found], rest⟩
    | step stepped now =>
      obtain ⟨mover, executed, redis, rest, moving, after, moves, rfl⟩ :=
        next_step accounted.staged moved
      have bound := (List.getElem?_eq_some_iff.mp moving).1
      rcases List.mem_append.mp member with old | fresh
      · obtain ⟨session, found, client, completes⟩ := accounted.called event old
        by_cases own : event.session = stepped
        · rw [own, moving] at found
          cases found
          rw [own]
          exact ⟨_, List.getElem?_set_self bound, client, completes⟩
        · exact ⟨session, by rw [List.getElem?_set_ne (Ne.symm own), found], client, completes⟩
      · rw [List.mem_singleton.mp fresh]
        exact ⟨_, List.getElem?_set_self bound, rfl, fun key hash stored => moves_called moves⟩

end BackendFoundation.IdempotencyProofs
