import BackendFoundation.KeyedServers
import Mathlib.Data.List.Induction

/-! Programs of at most one command over a server of `KeyedServers`. Those that keep to one
key run one after the other, in the order of their first turns, whatever runs beside them
under other keys. -/
namespace BackendFoundation.SerialRuns
open RequestPrograms TurnTaking KeyedServers

variable {ι κ σ Time Op : Type} {Reply : Op → Type} {ε α : Type}

/-- A program that runs from its first command to its last with nothing in between: what it
ends with, and what it leaves. -/
def alone (server : Server κ σ Time Op Reply ε) (time : Time) :
    Program Op Reply ε α → (κ → σ) → Except ε α × (κ → σ)
  | .ret value, keys => (.ok value, keys)
  | .raise error, keys => (.error error, keys)
  | .call op next, keys =>
    alone server time (next (server.execute time op keys).1) (server.execute time op keys).2

abbrev AtMostOne (program : Program Op Reply ε α) : Prop := program.EndsWithin (fun _ => 1) 1

/-- The programs of these turns, each alone, one after the other. -/
def serial (server : Server κ σ Time Op Reply ε) (programs : ι → Program Op Reply ε α)
    (keys : κ → σ) (turns : List (ι × Time)) : κ → σ :=
  turns.foldl (fun keys turn => (alone server turn.2 (programs turn.1) keys).2) keys

/-- One turn more counts if it is the first of a program at home under the key. -/
def addTurn [DecidableEq ι] [DecidableEq κ] (home : ι → κ) (key : κ) (turns : List (ι × Time))
    (turn : ι × Time) : List (ι × Time) :=
  if home turn.1 = key ∧ turn.1 ∉ turns.map Prod.fst then turns ++ [turn] else turns

/-- The first turns of the programs at home under the key. -/
def firstTurns [DecidableEq ι] [DecidableEq κ] (home : ι → κ) (key : κ)
    (schedule : List (ι × Time)) : List (ι × Time) :=
  schedule.foldl (addTurn home key) []

/-! ## One program -/

section Alone

variable {server : Server κ σ Time Op Reply ε} {key : κ} {time : Time} {keys keys' : κ → σ}
  {program : Program Op Reply ε α}

variable (server time keys) in
theorem alone_of_no_command (ends : program.EndsWithin (fun _ => 1) 0) :
    program.result? = some (alone server time program keys).1 ∧
      (alone server time program keys).2 = keys := by
  cases program with
  | ret value => exact ⟨rfl, rfl⟩
  | raise error => exact ⟨rfl, rfl⟩
  | call op next =>
    have charged : 1 ≤ 0 := ends.1
    omega

variable (time) in
/-- A program that keeps to a key reads and leaves nothing else. -/
theorem alone_congr (keep : KeepsTo server key program) (same : keys key = keys' key) :
    (alone server time program keys).1 = (alone server time program keys').1 ∧
      (alone server time program keys).2 key = (alone server time program keys').2 key := by
  induction program generalizing keys keys' with
  | ret value => exact ⟨rfl, same⟩
  | raise error => exact ⟨rfl, same⟩
  | call op next ih =>
    obtain ⟨own, rest⟩ := keep
    obtain ⟨answers, leaves⟩ := server.reads_own time op keys keys' (by rw [own]; exact same)
    unfold alone
    rw [answers]
    exact ih _ (rest _) (own ▸ leaves)

theorem alone_perform (op : Op) :
    alone server time (Program.perform op) keys = server.execute time op keys := by
  cases executed : server.execute time op keys with
  | mk answer left =>
    unfold Program.perform alone
    rw [executed]
    cases answer with
    | ok reply => rfl
    | error error => rfl

/-- What is made of a program's value changes no key. -/
theorem alone_map {β : Type} (made : α → β) :
    alone server time (program >>= fun value => pure (made value)) keys =
      ((alone server time program keys).1.map made, (alone server time program keys).2) := by
  induction program generalizing keys with
  | ret value => rfl
  | raise error => rfl
  | call op next ih => exact ih _

theorem serial_append (programs : ι → Program Op Reply ε α) (keys : κ → σ)
    (first second : List (ι × Time)) : serial server programs keys (first ++ second) =
      serial server programs (serial server programs keys first) second :=
  List.foldl_append

end Alone

section Steps

variable [DecidableEq ι] {server : Server κ σ Time Op Reply ε} {time : Time}
  {system : Served ι κ σ Op Reply ε α} {i : ι}

variable (server time) in
/-- The first turn of a program of at most one command is all of it. -/
theorem step_alone (one : AtMostOne (system.programs i)) :
    (system.step (server.execute time) i).state = (alone server time (system.programs i) system.state).2 ∧
      ((system.step (server.execute time) i).programs i).result? =
        some (alone server time (system.programs i) system.state).1 := by
  cases current : system.programs i with
  | ret value =>
    rw [step_of_ended (by rw [current]; rfl), current]
    exact ⟨rfl, rfl⟩
  | raise error =>
    rw [step_of_ended (by rw [current]; rfl), current]
    exact ⟨rfl, rfl⟩
  | call op next =>
    rw [current] at one
    obtain ⟨ends, same⟩ := alone_of_no_command server time (server.execute time op system.state).2
      (one.2 (server.execute time op system.state).1)
    rw [step_call current]
    dsimp only
    rw [Function.update_self]
    exact ⟨same.symm, ends⟩

end Steps

/-! ## Every interleaving -/

/-- The key's programs that have had their turns ended as in the serial run of these turns;
the others wait. -/
structure Serialized (server : Server κ σ Time Op Reply ε) (home : ι → κ) (key : κ)
    (start system : Served ι κ σ Op Reply ε α) (turns : List (ι × Time)) : Prop where
  keep : ∀ i, KeepsTo server (home i) (system.programs i)
  homes : ∀ turn ∈ turns, home turn.1 = key
  keys : system.state key = serial server start.programs start.state turns key
  waiting : ∀ i, home i = key → i ∉ turns.map Prod.fst → system.programs i = start.programs i
  ended : ∀ before turn after, turns = before ++ turn :: after →
    (system.programs turn.1).result? = some (alone server turn.2 (start.programs turn.1)
      (serial server start.programs start.state before)).1

section Serialization

variable [DecidableEq ι] {server : Server κ σ Time Op Reply ε} {home : ι → κ}
  {key : κ} {start system : Served ι κ σ Op Reply ε α} {turns : List (ι × Time)} {turn : ι × Time}

theorem serialized_elsewhere (serialized : Serialized server home key start system turns)
    (elsewhere : home turn.1 ≠ key) :
    Serialized server home key start (system.step (server.execute turn.2) turn.1) turns := by
  have agree := step_elsewhere turn.2 (serialized.keep turn.1) elsewhere
  refine ⟨step_keepsTo turn.1 serialized.keep, serialized.homes, agree.keys.trans serialized.keys,
    fun i here waits => ?_, fun before last after split => ?_⟩
  · rw [agree.programs i here]
    exact serialized.waiting i here waits
  · have member : last ∈ turns := by simp [split]
    rw [agree.programs last.1 (serialized.homes last member)]
    exact serialized.ended before last after split

/-- A turn after the first does nothing. -/
theorem serialized_again (serialized : Serialized server home key start system turns)
    (taken : turn.1 ∈ turns.map Prod.fst) :
    Serialized server home key start (system.step (server.execute turn.2) turn.1) turns := by
  obtain ⟨earlier, member, same⟩ := List.mem_map.mp taken
  obtain ⟨before, after, split⟩ := List.append_of_mem member
  have ended := serialized.ended before earlier after split
  rw [same] at ended
  rw [step_of_ended ended]
  exact serialized

theorem serialized_first (one : ∀ i, home i = key → AtMostOne (start.programs i))
    (serialized : Serialized server home key start system turns) (here : home turn.1 = key)
    (fresh : turn.1 ∉ turns.map Prod.fst) :
    Serialized server home key start (system.step (server.execute turn.2) turn.1) (turns ++ [turn]) := by
  have waits := serialized.waiting turn.1 here fresh
  have single : AtMostOne (system.programs turn.1) := waits ▸ one _ here
  obtain ⟨leaves, ends⟩ := step_alone server turn.2 single
  have keep := serialized.keep turn.1
  rw [waits] at leaves ends keep
  obtain ⟨answers, key_left⟩ := alone_congr turn.2 (here ▸ keep) serialized.keys
  refine ⟨step_keepsTo turn.1 serialized.keep, ?_, ?_, fun i athome later => ?_,
    fun before last after split => ?_⟩
  · intro other member
    rcases List.mem_append.mp member with old | new
    · exact serialized.homes other old
    · rw [List.mem_singleton.mp new]
      exact here
  · rw [leaves, serial_append]
    exact key_left
  · rw [List.map_append, List.mem_append, not_or] at later
    have apart : i ≠ turn.1 := fun same => later.2 (by simp [same])
    rw [step_programs_of_ne apart]
    exact serialized.waiting i athome later.1
  · rcases List.eq_nil_or_concat after with rfl | ⟨rest, final, rfl⟩
    · obtain ⟨rfl, same⟩ := List.append_inj' split rfl
      cases same
      rw [ends, answers]
    · rw [List.concat_eq_append, ← List.cons_append, ← List.append_assoc] at split
      obtain ⟨earlier, -⟩ := List.append_inj' split rfl
      have apart : last.1 ≠ turn.1 := by
        intro clash
        apply fresh
        rw [earlier, ← clash]
        simp
      rw [step_programs_of_ne apart]
      exact serialized.ended before last rest earlier

variable [DecidableEq κ]

theorem serialized_step (one : ∀ i, home i = key → AtMostOne (start.programs i))
    (serialized : Serialized server home key start system turns) (turn : ι × Time) :
    Serialized server home key start (system.step (server.execute turn.2) turn.1)
      (addTurn home key turns turn) := by
  unfold addTurn
  split
  · rename_i first
    exact serialized_first one serialized first.1 first.2
  · rename_i other
    by_cases here : home turn.1 = key
    · apply serialized_again serialized
      by_contra fresh
      exact other ⟨here, fresh⟩
    · exact serialized_elsewhere serialized here

variable (server home key start) in
/-- **Serialization.** However the turns interleave. -/
theorem serialized_run (one : ∀ i, home i = key → AtMostOne (start.programs i))
    (keep : ∀ i, KeepsTo server (home i) (start.programs i)) (schedule : List (ι × Time)) :
    Serialized server home key start (server.run start schedule)
      (firstTurns home key schedule) := by
  have initial : Serialized server home key start start [] :=
    ⟨keep, by simp, rfl, fun _ _ _ => rfl, by simp⟩
  have along : ∀ (system : Served ι κ σ Op Reply ε α) (turns : List (ι × Time)),
      Serialized server home key start system turns →
      Serialized server home key start (server.run system schedule)
        (schedule.foldl (addTurn home key) turns) := by
    induction schedule with
    | nil => exact fun _ _ serialized => serialized
    | cons turn rest ih =>
      exact fun _ _ serialized => ih _ _ (serialized_step one serialized turn)
  exact along start [] initial

/-- A program has one first turn. -/
theorem nodup_firstTurns (home : ι → κ) (key : κ) (schedule : List (ι × Time)) :
    ((firstTurns home key schedule).map Prod.fst).Nodup := by
  have kept : ∀ turns : List (ι × Time), (turns.map Prod.fst).Nodup →
      ((schedule.foldl (addTurn home key) turns).map Prod.fst).Nodup := by
    induction schedule with
    | nil => exact fun _ once => once
    | cons turn rest ih =>
      intro turns once
      rw [List.foldl_cons]
      apply ih
      unfold addTurn
      split
      · rename_i first
        rw [List.map_append, List.map_singleton]
        exact List.nodup_append.mpr ⟨once, by simp, fun old member new singleton same =>
          first.2 (List.mem_singleton.mp singleton ▸ same ▸ member)⟩
      · exact once
  exact kept [] List.nodup_nil

/-- A program at home under the key has a first turn if it is scheduled at all. -/
theorem mem_firstTurns {schedule : List (ι × Time)} {i : ι} :
    i ∈ (firstTurns home key schedule).map Prod.fst ↔ home i = key ∧ i ∈ schedule.map Prod.fst := by
  have grown : ∀ turns : List (ι × Time),
      i ∈ (schedule.foldl (addTurn home key) turns).map Prod.fst ↔
        i ∈ turns.map Prod.fst ∨ home i = key ∧ i ∈ schedule.map Prod.fst := by
    induction schedule with
    | nil => simp
    | cons turn rest ih =>
      intro turns
      rw [List.foldl_cons, ih]
      unfold addTurn
      split
      · simp only [List.map_append, List.map_cons, List.map_nil, List.mem_append, List.mem_cons]
        grind
      · simp only [List.map_cons, List.mem_cons]
        grind
  simpa [firstTurns] using grown []

/-! ### What the serial run comes to -/

/-- The key's programs are served in turn: one that is scheduled has one turn, by which it
has ended as `answer` tells from the turns before, and the key holds what all turns have
`left`. -/
structure InTurn (home : ι → κ) (key : κ) (schedule : List (ι × Time))
    (answer : List (ι × Time) → ι × Time → Except ε α) (left : List (ι × Time) → σ)
    (system : Served ι κ σ Op Reply ε α) : Prop where
  once : ((firstTurns home key schedule).map Prod.fst).Nodup
  all : ∀ i, i ∈ (firstTurns home key schedule).map Prod.fst ↔
    home i = key ∧ i ∈ schedule.map Prod.fst
  answered : ∀ before turn after, firstTurns home key schedule = before ++ turn :: after →
    (system.programs turn.1).result? = some (answer before turn)
  kept : system.state key = left (firstTurns home key schedule)

/-- A program at home under the key, alone after some turns, does what it is said to do. -/
def Simulates (server : Server κ σ Time Op Reply ε) (home : ι → κ) (key : κ)
    (programs : ι → Program Op Reply ε α) (answer : List (ι × Time) → ι × Time → Except ε α)
    (left : List (ι × Time) → σ) : Prop :=
  ∀ before turn keys, home turn.1 = key → keys key = left before →
    (alone server turn.2 (programs turn.1) keys).1 = answer before turn ∧
      (alone server turn.2 (programs turn.1) keys).2 key = left (before ++ [turn])

variable {answer : List (ι × Time) → ι × Time → Except ε α} {left : List (ι × Time) → σ}

omit [DecidableEq ι] [DecidableEq κ] in
theorem serial_left (simulates : Simulates server home key start.programs answer left)
    (begun : start.state key = left []) (homes : ∀ turn ∈ turns, home turn.1 = key) :
    serial server start.programs start.state turns key = left turns := by
  induction turns using List.reverseRecOn with
  | nil => exact begun
  | append_singleton turns turn ih =>
    have before := ih fun turn member => homes turn (List.mem_append_left _ member)
    have here := homes turn (List.mem_append_right _ (List.mem_singleton_self _))
    rw [serial_append]
    exact (simulates turns turn _ here before).2

/-- What is shown for one program alone holds however the turns interleave. -/
theorem inTurn_run (one : ∀ i, home i = key → AtMostOne (start.programs i))
    (keep : ∀ i, KeepsTo server (home i) (start.programs i))
    (simulates : Simulates server home key start.programs answer left)
    (begun : start.state key = left []) (schedule : List (ι × Time)) :
    InTurn home key schedule answer left (server.run start schedule) := by
  have serialized := serialized_run server home key start one keep schedule
  refine ⟨nodup_firstTurns _ _ _, fun i => mem_firstTurns, fun before turn after split => ?_,
    serialized.keys.trans (serial_left simulates begun serialized.homes)⟩
  have homes := serialized.homes
  rw [split] at homes
  have left_before := serial_left simulates begun fun turn member =>
    homes turn (List.mem_append_left _ member)
  have here := homes turn (List.mem_append_right _ List.mem_cons_self)
  rw [serialized.ended before turn after split]
  exact congrArg some (simulates before turn _ here left_before).1

end Serialization

end BackendFoundation.SerialRuns
