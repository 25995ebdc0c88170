import BackendFoundation.ReferentialIntegrity
import Mathlib.Data.List.Perm.Subperm

/-! How many steps of its own a transaction takes. Every operation of its program is one
step, but an UPDATE takes a step for each row of its snapshot, one for the snapshot and one
for its answer. No step of another transaction adds to them. -/
namespace BackendFoundation.SessionSteps
open KeyedTables RequestPrograms ReadCommitted ReadCommittedProofs ReferentialIntegrity

variable {ρ κ : Type} [DecidableEq κ] {S : Schema ρ κ}
variable {Ask : Type} {Reply : Ask → Type} {Stmt ε α Req : Type}

/-- The program has nothing left to do. -/
def Ended (session : Session S Reply Stmt ε α Req) : Prop :=
  ∀ op next, session.program ≠ .call op next

/-- What the session still has to do costs no more than this. -/
def Owes (cost : Op Ask Stmt → ℕ) (budget : ℕ) (session : Session S Reply Stmt ε α Req) : Prop :=
  match session.scan with
  | none => session.program.EndsWithin cost budget
  | some scan => ∃ statement next rest, session.program = .call (.stmt statement) next ∧
      scan.todo.length + 1 + rest ≤ budget ∧ ∀ answer, (next answer).EndsWithin cost rest

/-- The cost of an UPDATE that the session is about to begin covers its snapshot. -/
def Covers (driver : Driver S Stmt ε) (cost : Op Ask Stmt → ℕ) (committed : Table S)
    (session : Session S Reply Stmt ε α Req) : Prop :=
  ∀ statement change next, session.program = .call (.stmt statement) next →
    driver.sql statement = .update change → session.scan = none →
    ((Table.overlay committed session.pending).rows.filter change.wanted).length + 2 ≤
      cost (.stmt statement)

section Steps

variable {driver : Driver S Stmt ε} {tick : Tick Reply ε} {committed committed' : Table S}
variable {others : List (Session S Reply Stmt ε α Req)} {session later : Session S Reply Stmt ε α Req}
variable {cost : Op Ask Stmt → ℕ} {budget more : ℕ}

omit [DecidableEq κ] in
/-- After an answer there is less to do, in the middle of an UPDATE too. -/
theorem owes_answered (positive : ∀ op, 1 ≤ cost op) (owes : Owes cost budget session)
    {op : Op Ask Stmt} {next : Except ε (Answer Reply ρ op) → Program (Op Ask Stmt) (Answer Reply ρ) ε α}
    (calls : session.program = .call op next) (answer : Except ε (Answer Reply ρ op)) :
    1 ≤ budget ∧ (next answer).EndsWithin cost (budget - 1) := by
  unfold Owes at owes
  split at owes
  · rw [calls] at owes
    have one := positive op
    have affordable := owes.1
    exact ⟨by omega, (owes.2 answer).mono (by omega)⟩
  · obtain ⟨statement, next', rest, calls', most, ends⟩ := owes
    rw [calls] at calls'
    cases calls'
    exact ⟨by omega, (ends answer).mono (by omega)⟩

omit [DecidableEq κ] in
theorem owes_idle (owes : session.program.EndsWithin cost budget) (idle : session.scan = none) :
    Owes cost budget session := by
  unfold Owes
  rw [idle]
  exact owes

omit [DecidableEq κ] in
theorem owes_ended (ended : Ended session) (idle : session.scan = none) : Owes cost budget session := by
  refine owes_idle ?_ idle
  cases program : session.program with
  | ret value => trivial
  | raise error => trivial
  | call op next => exact absurd program (ended op next)

omit [DecidableEq κ] in
theorem ended_of_owes (positive : ∀ op, 1 ≤ cost op) (owes : Owes cost 0 session) : Ended session := by
  intro op next calls
  cases op with
  | ask question =>
    unfold Owes at owes
    split at owes
    · rw [calls] at owes
      exact absurd (Nat.le_trans (positive _) owes.1) (by omega)
    · obtain ⟨_, _, _, calls', _⟩ := owes
      rw [calls] at calls'
      cases calls'
  | stmt statement => exact absurd (owes_answered positive owes calls (.ok [])).1 (by omega)
  | commit => exact absurd (owes_answered positive owes calls (.ok ())).1 (by omega)

/-- **One step less.** -/
theorem owes_moves (positive : ∀ op, 1 ≤ cost op) (covers : Covers driver cost committed session)
    (owes : Owes cost budget session)
    (moved : Moves driver tick committed others session committed' later) :
    Owes cost (budget - 1) later := by
  cases moved with
  | closed ended => exact owes_ended ended rfl
  | asked question next calls =>
    have idle : session.scan = none := by
      unfold Owes at owes
      split at owes
      · assumption
      · obtain ⟨_, _, _, calls', _⟩ := owes
        rw [calls] at calls'
        cases calls'
    exact owes_idle (owes_answered positive owes calls _).2 idle
  | failed op next error calls cause => exact owes_idle (owes_answered positive owes calls _).2 rfl
  | selected statement wanted next calls sql =>
    exact owes_idle (owes_answered positive owes calls _).2 rfl
  | inserted statement row next calls sql decided room =>
    exact owes_idle (owes_answered positive owes calls _).2 rfl
  | published next calls checks => exact owes_idle (owes_answered positive owes calls _).2 rfl
  | finished statement change next touched calls sql scans =>
    exact owes_idle (owes_answered positive owes calls _).2 rfl
  | snapshot statement change next calls sql begins =>
    have snapshot := covers statement change next calls sql begins
    unfold Owes at owes
    rw [begins, calls] at owes
    have affordable := owes.1
    refine ⟨statement, next, budget - cost (.stmt statement), calls, ?_, owes.2⟩
    rw [List.length_map]
    omega
  | locked statement change next row todo touched calls sql scans free newest meets healthy =>
    unfold Owes at owes
    rw [scans] at owes
    obtain ⟨statement', next', rest, calls', most, ends⟩ := owes
    simp only [List.length_cons] at most
    exact ⟨statement', next', rest, calls', by dsimp only; omega, ends⟩
  | skipped statement change next key todo touched calls sql scans free unmet healthy =>
    unfold Owes at owes
    rw [scans] at owes
    obtain ⟨statement', next', rest, calls', most, ends⟩ := owes
    simp only [List.length_cons] at most
    exact ⟨statement', next', rest, calls', by dsimp only; omega, ends⟩

end Steps

/-! ## Runs -/

/-- The actions that are steps of this session. -/
def stepsOf (index : ℕ) (actions : List (Action Reply ε Req)) : ℕ :=
  actions.countP fun
    | .arrive _ => false
    | .step i _ => i == index

section Runs

variable {driver : Driver S Stmt ε} {serve : Req → Program (Op Ask Stmt) (Answer Reply ρ) ε α}
variable {system after : System S Reply Stmt ε α Req} {actions : List (Action Reply ε Req)}
variable {cost : Op Ask Stmt → ℕ} {bound : Req → ℕ}

omit [DecidableEq κ] in
/-- Tables that cover each other's keys have as many rows. -/
theorem rows_le {before after : Table S} (grows : ∀ key, Covered before key → Covered after key) :
    before.rows.length ≤ after.rows.length := by
  have keys : before.rows.map S.key ⊆ after.rows.map S.key := by
    intro key member
    obtain ⟨row, here, rfl⟩ := List.mem_map.mp member
    obtain ⟨other, there, same⟩ := grows (S.key row) ⟨row, here, rfl⟩
    exact List.mem_map.mpr ⟨other, there, same⟩
  have fewer := (List.subperm_of_subset before.keyed keys).length_le
  rwa [List.length_map, List.length_map] at fewer

theorem rows_next {action : Action Reply ε Req} (stepped : system.next driver serve action = some after) :
    system.committed.rows.length ≤ after.committed.rows.length := by
  rcases next_cases stepped with ⟨_, _, rfl⟩ | ⟨_, _, _, _, _, _, _, moved, rfl⟩
  · exact Nat.le_refl _
  · exact rows_le (moves_covered moved)

theorem rows_run (ran : system.run driver serve actions = some after) :
    system.committed.rows.length ≤ after.committed.rows.length := by
  induction actions generalizing system with
  | nil =>
    cases ran
    exact Nat.le_refl _
  | cons action rest ih =>
    obtain ⟨middle, stepped, ran⟩ := Option.bind_eq_some_iff.mp ran
    exact Nat.le_trans (rows_next stepped) (ih ran)

/-- What every step keeps holds along a run, in which there are never more rows than at its
end. -/
theorem along_kept {holds : System S Reply Stmt ε α Req → Prop}
    (step : ∀ system action later, holds system → system.next driver serve action = some later →
      holds later)
    (start : holds system) (ran : system.run driver serve actions = some after) :
    Along driver serve (fun system _ => holds system ∧
      system.committed.rows.length ≤ after.committed.rows.length) system actions := by
  induction actions generalizing system with
  | nil => trivial
  | cons action rest ih =>
    refine ⟨⟨start, rows_run ran⟩, fun later stepped => ?_⟩
    obtain ⟨middle, stepped', ran⟩ := Option.bind_eq_some_iff.mp ran
    obtain rfl := Option.some.inj (stepped.symm.trans stepped')
    exact ih (step system action later start stepped) ran

/-- What every session owes after the steps it has taken. -/
theorem owes_run (spent : ℕ → ℕ) (positive : ∀ op, 1 ≤ cost op)
    (serves : ∀ request, (serve request).EndsWithin cost (bound request))
    (every : Along driver serve (fun system _ => ∀ session ∈ system.sessions,
      Covers driver cost system.committed session) system actions)
    (owes : ∀ i session, system.sessions[i]? = some session →
      Owes cost (bound session.origin - spent i) session)
    (unborn : ∀ i, system.sessions.length ≤ i → spent i = 0)
    (ran : system.run driver serve actions = some after) {index : ℕ}
    {session : Session S Reply Stmt ε α Req} (found : after.sessions[index]? = some session) :
    Owes cost (bound session.origin - (spent index + stepsOf index actions)) session := by
  induction actions generalizing spent system with
  | nil =>
    cases ran
    exact owes index session found
  | cons action rest ih =>
    obtain ⟨covers, onward⟩ := every
    obtain ⟨middle, stepped, ran⟩ := Option.bind_eq_some_iff.mp ran
    rcases next_cases stepped with ⟨request, rfl, rfl⟩ |
      ⟨i, tick, moving, committed, later, rfl, at_, moved, rfl⟩
    · have same : stepsOf index (.arrive request :: rest) = stepsOf index rest := by
        simp [stepsOf]
      rw [same]
      refine ih spent (onward _ stepped) (fun j other there => ?_) (fun j beyond => ?_) ran
      · rw [List.getElem?_append] at there
        split at there
        · exact owes j other there
        · rename_i beyond
          rw [unborn j (by omega)]
          obtain rfl := List.mem_singleton.mp (List.mem_of_getElem? there)
          exact owes_idle (serves request) rfl
      · rw [List.length_append] at beyond
        exact unborn j (by omega)
    · have paid := owes_moves positive (covers moving (List.mem_of_getElem? at_)) (owes i moving at_) moved
      have here : i < system.sessions.length := (List.getElem?_eq_some_iff.mp at_).1
      have total : spent index + stepsOf index (.step i tick :: rest) =
          (if index = i then spent i + 1 else spent index) + stepsOf index rest := by
        by_cases same : index = i
        · subst same
          simp only [stepsOf, List.countP_cons, beq_self_eq_true, if_true]
          omega
        · have different : (i == index) = false := beq_false_of_ne (Ne.symm same)
          simp only [stepsOf, List.countP_cons, different, same, if_false]
          rfl
      rw [total]
      refine ih (fun j => if j = i then spent i + 1 else spent j) (onward _ stepped)
        (fun j other there => ?_) (fun j beyond => ?_) ran
      · rcases getElem?_set_cases there with ⟨rfl, rfl⟩ | ⟨different, old⟩
        · rw [if_pos rfl, (moves_cases moved).1, ← Nat.sub_sub]
          exact paid
        · rw [if_neg different]
          exact owes j other old
      · rw [List.length_set] at beyond
        rw [if_neg (by omega)]
        exact unborn j beyond

end Runs

end BackendFoundation.SessionSteps
