import BackendFoundation.ReadCommitted
import Mathlib.Data.List.Basic

/-! What interleaved transactions keep of each other. `Moves` says once what a
step of a session can do; the invariants of the database follow from it. Row
locks and the wait of an INSERT keep the uncommitted rows of any two sessions
apart, so a session's own view satisfies the unique indexes at every moment and
a row it has written stays, underneath, the version it has superseded. -/
namespace BackendFoundation.ReadCommittedProofs
open KeyedTables RequestPrograms ReadCommitted

variable {ρ κ : Type} [DecidableEq κ] {S : Schema ρ κ}
variable {Ask : Type} {Reply : Ask → Type} {Stmt ε α Req : Type}

/-- The reasons an operation fails: the surroundings, or a constraint. -/
def Fails (driver : Driver S Stmt ε) (tick : Tick Reply ε) (committed pending : Table S) :
    Op Ask Stmt → ε → Prop
  | .ask _, _ => False
  | .stmt statement, error => tick.fault = some error ∨
      ∃ cause, (driver.sql statement).run committed pending = .error cause ∧
        error = driver.raised cause
  | .commit, error => tick.fault = some error ∨
      settled committed pending = false ∧ error = driver.raised .integrity

/-- The ways a session's step can go: the tables and the session it leaves. -/
inductive Moves (driver : Driver S Stmt ε) (tick : Tick Reply ε) (committed : Table S)
    (others : List (Session S Reply Stmt ε α Req)) (session : Session S Reply Stmt ε α Req) :
    Table S → Session S Reply Stmt ε α Req → Prop where
  | closed (ended : ∀ op next, session.program ≠ .call op next) :
      Moves driver tick committed others session committed (session.abort session.program)
  | asked (question : Ask) (next : Except ε (Reply question) → Program (Op Ask Stmt) (Answer Reply ρ) ε α)
      (calls : session.program = .call (.ask question) next) :
      Moves driver tick committed others session committed
        { session with program := next (tick.answer question) }
  | failed (op : Op Ask Stmt)
      (next : Except ε (Answer Reply ρ op) → Program (Op Ask Stmt) (Answer Reply ρ) ε α) (error : ε)
      (calls : session.program = .call op next)
      (cause : Fails driver tick committed session.pending op error) :
      Moves driver tick committed others session committed (session.abort (next (.error error)))
  | selected (statement : Stmt) (wanted : ρ → Bool)
      (next : Except ε (List ρ) → Program (Op Ask Stmt) (Answer Reply ρ) ε α)
      (calls : session.program = .call (.stmt statement) next)
      (sql : driver.sql statement = .select wanted) :
      Moves driver tick committed others session committed
        (session.proceed (next (.ok ((Table.overlay committed session.pending).rows.filter wanted)))
          session.pending)
  | inserted (statement : Stmt) (row : ρ)
      (next : Except ε (List ρ) → Program (Op Ask Stmt) (Answer Reply ρ) ε α)
      (calls : session.program = .call (.stmt statement) next)
      (sql : driver.sql statement = .insert row)
      (decided : ∀ other ∈ others, other.inDoubt committed row = false)
      (room : admits (Table.overlay committed session.pending) row = true) :
      Moves driver tick committed others session committed
        (session.proceed (next (.ok [row])) (session.pending.put row))
  | snapshot (statement : Stmt) (change : Change S)
      (next : Except ε (List ρ) → Program (Op Ask Stmt) (Answer Reply ρ) ε α)
      (calls : session.program = .call (.stmt statement) next)
      (sql : driver.sql statement = .update change) (begins : session.scan = none) :
      Moves driver tick committed others session committed
        { session with
          scan := some ⟨((Table.overlay committed session.pending).rows.filter change.wanted).map S.key, []⟩ }
  | locked (statement : Stmt) (change : Change S)
      (next : Except ε (List ρ) → Program (Op Ask Stmt) (Answer Reply ρ) ε α)
      (row : ρ) (todo : List κ) (touched : List ρ)
      (calls : session.program = .call (.stmt statement) next)
      (sql : driver.sql statement = .update change)
      (scans : session.scan = some ⟨S.key row :: todo, touched⟩)
      (free : ∀ other ∈ others, other.holds (S.key row) = false)
      (newest : row ∈ Table.overlay committed session.pending) (meets : change.wanted row = true)
      (healthy : tick.fault = none) :
      Moves driver tick committed others session committed
        { session with
          pending := session.pending.put (change.set row)
          scan := some ⟨todo, touched ++ [change.set row]⟩ }
  | skipped (statement : Stmt) (change : Change S)
      (next : Except ε (List ρ) → Program (Op Ask Stmt) (Answer Reply ρ) ε α)
      (key : κ) (todo : List κ) (touched : List ρ)
      (calls : session.program = .call (.stmt statement) next)
      (sql : driver.sql statement = .update change)
      (scans : session.scan = some ⟨key :: todo, touched⟩)
      (free : ∀ other ∈ others, other.holds key = false)
      (unmet : ∀ row ∈ Table.overlay committed session.pending, S.key row = key →
        change.wanted row = false)
      (healthy : tick.fault = none) :
      Moves driver tick committed others session committed
        { session with scan := some ⟨todo, touched⟩ }
  | finished (statement : Stmt) (change : Change S)
      (next : Except ε (List ρ) → Program (Op Ask Stmt) (Answer Reply ρ) ε α) (touched : List ρ)
      (calls : session.program = .call (.stmt statement) next)
      (sql : driver.sql statement = .update change)
      (scans : session.scan = some ⟨[], touched⟩) :
      Moves driver tick committed others session committed
        (session.proceed (next (.ok touched)) session.pending)
  | published (next : Except ε Unit → Program (Op Ask Stmt) (Answer Reply ρ) ε α)
      (calls : session.program = .call .commit next)
      (checks : settled committed session.pending = true) :
      Moves driver tick committed others session (Table.overlay committed session.pending)
        { session with
          program := next (.ok ()), pending := Table.empty S, scan := none
          published := session.published ++ session.pending.rows }

variable {driver : Driver S Stmt ε} {tick : Tick Reply ε} {committed committed' : Table S}
variable {others : List (Session S Reply Stmt ε α Req)}
variable {session later : Session S Reply Stmt ε α Req}

/-- A step of an UPDATE is its snapshot, one row, or its answer. -/
private theorem moves_update {statement : Stmt} {change : Change S}
    {next : Except ε (List ρ) → Program (Op Ask Stmt) (Answer Reply ρ) ε α}
    (calls : session.program = .call (.stmt statement) next)
    (sql : driver.sql statement = .update change) (healthy : tick.fault = none)
    (advanced : session.advanceUpdate committed others change next = some later) :
    Moves driver tick committed others session committed later := by
  unfold Session.advanceUpdate at advanced
  split at advanced
  · rename_i begins
    cases advanced
    exact .snapshot statement change next calls sql begins
  · rename_i touched scans
    cases advanced
    exact .finished statement change next touched calls sql scans
  · rename_i key todo touched scans
    split at advanced
    · cases advanced
    · rename_i free
      have unheld : ∀ other ∈ others, other.holds key = false := by simpa using free
      cases found : (Table.overlay committed session.pending).lookup key with
      | none =>
        simp only [Session.relock, found, Option.some.injEq] at advanced
        cases advanced
        refine .skipped statement change next key todo touched calls sql scans unheld ?_ healthy
        exact fun row member same => absurd same (Table.lookup_eq_none.mp found row member)
      | some row =>
        obtain ⟨newest, rfl⟩ := Table.lookup_eq_some.mp found
        cases meets : change.wanted row with
        | true =>
          simp only [Session.relock, found, meets, if_true, Option.some.injEq] at advanced
          cases advanced
          exact .locked statement change next row todo touched calls sql scans unheld newest meets
            healthy
        | false =>
          simp only [Session.relock, found, meets, Bool.false_eq_true, if_false,
            Option.some.injEq] at advanced
          cases advanced
          refine .skipped statement change next _ todo touched calls sql scans unheld ?_ healthy
          intro other member same
          rw [Table.eq_of_key member newest same, meets]

/-- Every step of a session is one of `Moves`. -/
theorem moves_of_advance
    (advanced : session.advance driver tick committed others = some (committed', later)) :
    Moves driver tick committed others session committed' later := by
  unfold Session.advance at advanced
  split at advanced
  · rename_i value at_
    cases advanced
    rw [← at_]
    exact .closed (by simp [at_])
  · rename_i error at_
    cases advanced
    rw [← at_]
    exact .closed (by simp [at_])
  · rename_i question next calls
    cases advanced
    exact .asked question next calls
  · rename_i statement next calls
    split at advanced
    · rename_i error fault
      cases advanced
      exact .failed _ next error calls (.inl fault)
    · rename_i healthy
      split at advanced
      · rename_i change sql
        obtain ⟨result, stepped, same⟩ := Option.map_eq_some_iff.mp advanced
        cases same
        exact moves_update calls sql healthy stepped
      · rename_i row sql
        split at advanced
        · cases advanced
        · rename_i decided
          split at advanced
          · rename_i room
            cases advanced
            exact .inserted statement row next calls sql (by simpa using decided) room
          · rename_i crowded
            cases advanced
            refine .failed _ next _ calls (.inr ⟨.integrity, ?_, rfl⟩)
            rw [sql, Sql.run, if_neg crowded]
      · rename_i wanted sql
        cases advanced
        exact .selected statement wanted next calls sql
      · rename_i error sql
        cases advanced
        exact .failed _ next _ calls (.inr ⟨error, by rw [sql, Sql.run], rfl⟩)
  · rename_i next calls
    split at advanced
    · rename_i error fault
      cases advanced
      exact .failed _ next error calls (.inl fault)
    · split at advanced
      · rename_i checks
        cases advanced
        exact .published next calls checks
      · rename_i unsettled
        cases advanced
        exact .failed _ next _ calls (.inr ⟨by simpa using unsettled, rfl⟩)

/-- An action opens a session or moves one among the others. -/
theorem next_cases {serve : Req → Program (Op Ask Stmt) (Answer Reply ρ) ε α}
    {system after : System S Reply Stmt ε α Req} {action : Action Reply ε Req}
    (stepped : system.next driver serve action = some after) :
    (∃ request, action = .arrive request ∧
      after = { system with sessions := system.sessions ++ [Session.fresh request (serve request)] }) ∨
    ∃ (index : ℕ) (tick : Tick Reply ε) (session : Session S Reply Stmt ε α Req)
      (committed : Table S) (later : Session S Reply Stmt ε α Req),
      action = .step index tick ∧ system.sessions[index]? = some session ∧
      Moves driver tick system.committed (system.sessions.eraseIdx index) session committed later ∧
      after = ⟨committed, system.sessions.set index later⟩ := by
  cases action with
  | arrive request =>
    cases stepped
    exact .inl ⟨request, rfl, rfl⟩
  | step index tick =>
    simp only [System.next, Option.bind_eq_bind, Option.bind_eq_some_iff] at stepped
    obtain ⟨session, found, ⟨committed, later⟩, advanced, same⟩ := stepped
    cases same
    exact .inr ⟨index, tick, session, committed, later, rfl, found, moves_of_advance advanced, rfl⟩

/-! ## Uncommitted rows of different sessions -/

private theorem apart_put {left right : Table S} {row : ρ} (apart : Table.Apart left right)
    (fresh : ∀ other ∈ right, S.key row ≠ S.key other ∧ S.clash row other = false) :
    Table.Apart (left.put row) right := by
  intro own here
  rcases Table.mem_put.mp here with rfl | ⟨old, _⟩
  · exact fresh
  · exact apart own old

/-- A row another session does not hold is the committed one in its view. -/
theorem mem_overlay_of_unheld {pending : Table S} {row : ρ} (member : row ∈ committed)
    (unheld : ∀ own ∈ pending, S.key own ≠ S.key row) : row ∈ Table.overlay committed pending :=
  Table.mem_overlay.mpr (.inr ⟨member, unheld⟩)

/-- A row may be written by a session when no other holds it or clashes with
it: then it stays apart from what they have written. -/
private theorem moves_apart {other : Session S Reply Stmt ε α Req} (member : other ∈ others)
    (moved : Moves driver tick committed others session committed' later)
    (consistent : (Table.overlay committed other.pending).ClashFree)
    (apart : Table.Apart session.pending other.pending) : Table.Apart later.pending other.pending := by
  cases moved with
  | closed | failed | published => exact Table.apart_empty _
  | asked | selected | snapshot | skipped | finished => exact apart
  | inserted statement row next calls sql decided room =>
    refine apart_put apart fun own here => ?_
    have known := List.any_eq_false.mp (decided other member) own here
    simp only [Bool.or_eq_true, decide_eq_true_eq, not_or] at known
    exact ⟨fun same => known.1.1 same.symm, by simpa [S.clash_symm row own] using known.1.2⟩
  | locked statement change next row todo touched calls sql scans free newest meets healthy =>
    refine apart_put apart fun own here => ?_
    have unheld : ∀ own ∈ other.pending, S.key own ≠ S.key row := by
      intro own here
      simpa using List.any_eq_false.mp (free other member) own here
    refine ⟨fun same => unheld own here (same.symm.trans (change.key_set row)), ?_⟩
    by_contra clashes
    have clash := change.clash_set row own (by simpa using clashes)
    rcases Table.mem_overlay.mp newest with pending | ⟨kept, _⟩
    · rw [(apart row pending own here).2] at clash
      cases clash
    · have same := consistent row (mem_overlay_of_unheld kept unheld) own
        (Table.mem_overlay.mpr (.inl here)) clash
      exact unheld own here same.symm

/-- After a step the session's view still satisfies the unique indexes. -/
private theorem moves_consistent (clean : committed.ClashFree)
    (consistent : (Table.overlay committed session.pending).ClashFree)
    (moved : Moves driver tick committed others session committed' later) :
    (Table.overlay committed' later.pending).ClashFree := by
  have written : ∀ row, (∀ old ∈ Table.overlay committed session.pending,
      S.clash row old → S.key row = S.key old) →
      (Table.overlay committed (session.pending.put row)).ClashFree := by
    intro row fresh left first right second clash
    have split : ∀ one, one ∈ Table.overlay committed (session.pending.put row) →
        one = row ∨ one ∈ Table.overlay committed session.pending := by
      intro one member
      rcases Table.mem_overlay.mp member with pending | ⟨kept, unwritten⟩
      · rcases Table.mem_put.mp pending with rfl | ⟨old, _⟩
        · exact .inl rfl
        · exact .inr (Table.mem_overlay.mpr (.inl old))
      · refine .inr (Table.mem_overlay.mpr (.inr ⟨kept, fun own here same => ?_⟩))
        by_cases own_is : S.key own = S.key row
        · exact unwritten row (Table.mem_put.mpr (.inl rfl)) (own_is.symm.trans same)
        · exact unwritten own (Table.mem_put.mpr (.inr ⟨here, own_is⟩)) same
    rcases split left first with rfl | old <;> rcases split right second with rfl | old'
    · rfl
    · exact fresh right old' clash
    · exact (fresh left old (by rwa [S.clash_symm])).symm
    · exact consistent left old right old' clash
  cases moved with
  | closed | failed => exact clean
  | published => exact consistent
  | asked | selected | snapshot | skipped | finished => exact consistent
  | inserted statement row next calls sql decided room =>
    refine written row fun old member clash => ?_
    simp only [admits, Bool.and_eq_true, List.all_eq_true] at room
    have apart := (room.1 old member).2
    rw [S.clash_symm, clash] at apart
    cases apart
  | locked statement change next row todo touched calls sql scans free newest meets healthy =>
    refine written (change.set row) fun old member clash => ?_
    rw [change.key_set]
    exact consistent row newest old member (change.clash_set row old clash)

/-- A commit lays a session's rows under the view of every other session. -/
private theorem published_consistent {pending other : Table S} (apart : Table.Apart pending other)
    (own : (Table.overlay committed pending).ClashFree)
    (consistent : (Table.overlay committed other).ClashFree) :
    (Table.overlay (Table.overlay committed pending) other).ClashFree := by
  have split : ∀ row, row ∈ Table.overlay (Table.overlay committed pending) other →
      row ∈ pending ∨ row ∈ Table.overlay committed other := by
    intro row member
    rcases Table.mem_overlay.mp member with here | ⟨under, unwritten⟩
    · exact .inr (Table.mem_overlay.mpr (.inl here))
    · rcases Table.mem_overlay.mp under with here | ⟨kept, _⟩
      · exact .inl here
      · exact .inr (Table.mem_overlay.mpr (.inr ⟨kept, unwritten⟩))
  have mixed : ∀ left ∈ pending, ∀ right ∈ Table.overlay (Table.overlay committed pending) other,
      S.clash left right → S.key left = S.key right := by
    intro left here right there clash
    rcases Table.mem_overlay.mp there with theirs | ⟨under, _⟩
    · rw [(apart left here right theirs).2] at clash
      cases clash
    · exact own left (Table.mem_overlay.mpr (.inl here)) right under clash
  intro left first right second clash
  rcases split left first with here | there
  · exact mixed left here right second clash
  · rcases split right second with here | there'
    · exact (mixed right here left first (by rwa [S.clash_symm])).symm
    · exact consistent left there right there' clash

/-- The unique indexes hold of what is committed and of every session's view,
and what the sessions have written is pairwise apart. -/
structure Isolated (system : System S Reply Stmt ε α Req) : Prop where
  clean : system.committed.ClashFree
  consistent : ∀ session ∈ system.sessions,
    (Table.overlay system.committed session.pending).ClashFree
  apart : ∀ (i j : ℕ) (left right : Session S Reply Stmt ε α Req), i ≠ j →
    system.sessions[i]? = some left → system.sessions[j]? = some right →
    Table.Apart left.pending right.pending

theorem isolated_init : Isolated (System.init : System S Reply Stmt ε α Req) where
  clean := fun row here => absurd here (Table.not_mem_empty row)
  consistent := fun _ member => absurd member List.not_mem_nil
  apart := by
    intro i j left right _ found
    simp [System.init] at found

section Lists

variable {β : Type} {items : List β} {index i : ℕ} {changed other : β}

theorem mem_others (different : i ≠ index) (found : items[i]? = some other) :
    other ∈ items.eraseIdx index :=
  List.mem_eraseIdx_iff_getElem?.mpr ⟨i, different, found⟩

/-- The element found at an index after one element has changed. -/
theorem getElem?_set_cases (found : (items.set index changed)[i]? = some other) :
    (i = index ∧ other = changed) ∨ (i ≠ index ∧ items[i]? = some other) := by
  rw [List.getElem?_set] at found
  split at found
  · rename_i same
    split at found
    · exact .inl ⟨same.symm, (Option.some.inj found).symm⟩
    · cases found
  · rename_i different
    exact .inr ⟨fun same => different same.symm, found⟩

/-- The element found at an index after another has been added. -/
theorem getElem?_append_cases (found : (items ++ [changed])[i]? = some other) :
    (i = items.length ∧ other = changed) ∨ items[i]? = some other := by
  rcases Nat.lt_trichotomy i items.length with before | here | after
  · rw [List.getElem?_append_left before] at found
    exact .inr found
  · subst here
    rw [List.getElem?_append_right (Nat.le_refl _), Nat.sub_self] at found
    exact .inl ⟨rfl, (Option.some.inj found).symm⟩
  · rw [List.getElem?_eq_none (by simp; omega)] at found
    cases found

end Lists

/-- A session's step leaves the pending rows of the others' views consistent. -/
private theorem others_consistent {other : Session S Reply Stmt ε α Req}
    (moved : Moves driver tick committed others session committed' later)
    (own : (Table.overlay committed session.pending).ClashFree)
    (consistent : (Table.overlay committed other.pending).ClashFree)
    (apart : Table.Apart session.pending other.pending) :
    (Table.overlay committed' other.pending).ClashFree := by
  cases moved with
  | published => exact published_consistent apart own consistent
  | _ => exact consistent

/-- **Isolation.** Whatever a step does, no session's view comes to violate a
unique index, and no two sessions come to write conflicting rows. -/
theorem isolated_next {serve : Req → Program (Op Ask Stmt) (Answer Reply ρ) ε α}
    {system after : System S Reply Stmt ε α Req} {action : Action Reply ε Req}
    (before : Isolated system) (stepped : system.next driver serve action = some after) :
    Isolated after := by
  rcases next_cases stepped with ⟨request, _, rfl⟩ |
    ⟨index, tick, session, committed, later, _, found, moved, rfl⟩
  · refine ⟨before.clean, fun session member => ?_, fun i j left right different first second => ?_⟩
    · rcases List.mem_append.mp member with old | new
      · exact before.consistent session old
      · rw [List.mem_singleton.mp new]
        exact before.clean
    · rcases getElem?_append_cases first with ⟨_, rfl⟩ | old
      · exact Table.apart_empty _
      · rcases getElem?_append_cases second with ⟨_, rfl⟩ | old'
        · exact (Table.apart_empty _).symm
        · exact before.apart i j left right different old old'
  · have own := before.consistent session (List.mem_of_getElem? found)
    refine ⟨?_, fun other member => ?_, fun i j left right different first second => ?_⟩
    · cases moved with
      | published => exact own
      | _ => exact before.clean
    · obtain ⟨i, at_⟩ := List.getElem?_of_mem member
      rcases getElem?_set_cases at_ with ⟨_, rfl⟩ | ⟨different, old⟩
      · exact moves_consistent before.clean own moved
      · exact others_consistent moved own (before.consistent other (List.mem_of_getElem? old))
          (before.apart index i session other (Ne.symm different) found old)
    · have beside : ∀ (k : ℕ) (other : Session S Reply Stmt ε α Req), k ≠ index →
          system.sessions[k]? = some other → Table.Apart later.pending other.pending :=
        fun k other different old => moves_apart (mem_others different old) moved
          (before.consistent other (List.mem_of_getElem? old))
          (before.apart index k session other (Ne.symm different) found old)
      rcases getElem?_set_cases first with ⟨rfl, rfl⟩ | ⟨apart, old⟩
      · rcases getElem?_set_cases second with ⟨rfl, _⟩ | ⟨apart', old'⟩
        · exact absurd rfl different
        · exact beside j right apart' old'
      · rcases getElem?_set_cases second with ⟨rfl, rfl⟩ | ⟨_, old'⟩
        · exact (beside i left apart old).symm
        · exact before.apart i j left right different old old'

/-- The rows a session holds, and the keys it has taken, stay as they are in the
committed table while another moves. -/
theorem moves_kept {other : Session S Reply Stmt ε α Req}
    (moved : Moves driver tick committed others session committed' later)
    (apart : Table.Apart session.pending other.pending) {own row : ρ} (held : own ∈ other.pending)
    (same : S.key row = S.key own) : row ∈ committed' ↔ row ∈ committed := by
  cases moved with
  | published =>
    constructor
    · intro member
      rcases Table.mem_overlay.mp member with theirs | ⟨kept, _⟩
      · exact absurd same (apart row theirs own held).1
      · exact kept
    · intro member
      refine Table.mem_overlay.mpr (.inr ⟨member, fun theirs here clash => ?_⟩)
      exact (apart theirs here own held).1 (clash.trans same)
  | _ => exact Iff.rfl

/-- A step changes the committed tables only where it is a COMMIT. -/
theorem moves_cases (moved : Moves driver tick committed others session committed' later) :
    later.origin = session.origin ∧
      ((committed' = committed ∧ later.published = session.published) ∨
      ∃ next, session.program = .call .commit next ∧ later.program = next (.ok ()) ∧
        settled committed session.pending = true ∧
        committed' = Table.overlay committed session.pending ∧
        later.published = session.published ++ session.pending.rows) := by
  cases moved with
  | published next calls checks => exact ⟨rfl, .inr ⟨next, calls, rfl, checks, rfl, rfl⟩⟩
  | _ => exact ⟨rfl, .inl ⟨rfl, rfl⟩⟩

/-! ## UPDATEs in progress -/

/-- The condition of an UPDATE selects at most one row. -/
def Single (change : Change S) : Prop :=
  ∀ table : Table S, (table.rows.filter change.wanted).length ≤ 1

/-- A session that is in the middle of an UPDATE has that statement to finish;
one that selects a single row does not lock two. -/
def Scanning (driver : Driver S Stmt ε) (session : Session S Reply Stmt ε α Req) : Prop :=
  ∀ scan, session.scan = some scan → ∃ statement change next,
    session.program = .call (.stmt statement) next ∧ driver.sql statement = .update change ∧
    (Single change → scan.todo.length + scan.touched.length ≤ 1)

omit [DecidableEq κ] in
/-- The UPDATE a session is in the middle of is the statement it executes. -/
theorem scanning_update (scanning : Scanning driver session) {scan : Scan ρ κ}
    (scans : session.scan = some scan) {statement : Stmt} {change : Change S}
    {next : Except ε (List ρ) → Program (Op Ask Stmt) (Answer Reply ρ) ε α}
    (calls : session.program = .call (.stmt statement) next)
    (sql : driver.sql statement = .update change) (single : Single change) :
    scan.todo.length + scan.touched.length ≤ 1 := by
  obtain ⟨own, own_change, own_next, own_calls, own_sql, bounded⟩ := scanning scan scans
  rw [calls] at own_calls
  cases own_calls
  rw [sql] at own_sql
  cases own_sql
  exact bounded single

omit [DecidableEq κ] in
/-- A session whose program is not at a statement is not in the middle of one. -/
theorem scan_eq_none (scanning : Scanning driver session)
    (plain : ∀ statement next, session.program ≠ .call (.stmt statement) next) :
    session.scan = none := by
  cases scans : session.scan with
  | none => rfl
  | some scan =>
    obtain ⟨statement, _, next, calls, _⟩ := scanning scan scans
    exact absurd calls (plain statement next)

theorem moves_scanning (scanning : Scanning driver session)
    (moved : Moves driver tick committed others session committed' later) :
    Scanning driver later := by
  intro scan scans
  cases moved with
  | closed | failed | selected | inserted | finished | published => cases scans
  | asked question next calls =>
    obtain ⟨_, _, _, other, _⟩ := scanning scan scans
    rw [calls] at other
    cases other
  | snapshot statement change next calls sql begins =>
    cases scans
    refine ⟨statement, change, next, calls, sql, fun single => ?_⟩
    simpa using single (Table.overlay committed session.pending)
  | locked statement change next row todo touched calls sql at_ free newest meets healthy =>
    cases scans
    refine ⟨statement, change, next, calls, sql, fun single => ?_⟩
    have bound := scanning_update scanning at_ calls sql single
    simp only [List.length_cons, List.length_append, List.length_nil] at bound ⊢
    omega
  | skipped statement change next key todo touched calls sql at_ free unmet healthy =>
    cases scans
    refine ⟨statement, change, next, calls, sql, fun single => ?_⟩
    have bound := scanning_update scanning at_ calls sql single
    simp only [List.length_cons] at bound ⊢
    omega

/-! ## Runs -/

section Runs

variable {serve : Req → Program (Op Ask Stmt) (Answer Reply ρ) ε α}

/-- Every action of the run is allowed in the state it meets. -/
def Along (driver : Driver S Stmt ε) (serve : Req → Program (Op Ask Stmt) (Answer Reply ρ) ε α)
    (allowed : System S Reply Stmt ε α Req → Action Reply ε Req → Prop) :
    System S Reply Stmt ε α Req → List (Action Reply ε Req) → Prop
  | _, [] => True
  | system, action :: rest => allowed system action ∧
      ∀ later ∈ system.next driver serve action, Along driver serve allowed later rest

instance decidableAlong {allowed : System S Reply Stmt ε α Req → Action Reply ε Req → Prop}
    [∀ system action, Decidable (allowed system action)] :
    (actions : List (Action Reply ε Req)) → (system : System S Reply Stmt ε α Req) →
      Decidable (Along driver serve allowed system actions)
  | [], _ => isTrue trivial
  | action :: rest, system =>
    have (later : System S Reply Stmt ε α Req) :
        Decidable (Along driver serve allowed later rest) := decidableAlong rest later
    inferInstanceAs (Decidable (allowed system action ∧
      ∀ later ∈ system.next driver serve action, Along driver serve allowed later rest))

/-- What every allowed action keeps holds after a run of them. -/
theorem run_invariant {holds : System S Reply Stmt ε α Req → Prop}
    {allowed : System S Reply Stmt ε α Req → Action Reply ε Req → Prop}
    (step : ∀ system action after, holds system → allowed system action →
      system.next driver serve action = some after → holds after)
    {system after : System S Reply Stmt ε α Req} {actions : List (Action Reply ε Req)}
    (start : holds system) (every : Along driver serve allowed system actions)
    (ran : system.run driver serve actions = some after) : holds after := by
  induction actions generalizing system with
  | nil =>
    cases ran
    exact start
  | cons action rest ih =>
    obtain ⟨may, onward⟩ := every
    obtain ⟨later, stepped, ran⟩ := Option.bind_eq_some_iff.mp ran
    exact ih (step system action later start may stepped) (onward later stepped) ran

/-- A weaker condition, where each action is one of the run. -/
theorem along_mono {allowed weaker : System S Reply Stmt ε α Req → Action Reply ε Req → Prop}
    {system : System S Reply Stmt ε α Req} {actions : List (Action Reply ε Req)}
    (implies : ∀ system, ∀ action ∈ actions, allowed system action → weaker system action)
    (every : Along driver serve allowed system actions) :
    Along driver serve weaker system actions := by
  induction actions generalizing system with
  | nil => trivial
  | cons action rest ih =>
    obtain ⟨may, onward⟩ := every
    refine ⟨implies system action List.mem_cons_self may, fun later stepped => ?_⟩
    apply ih _ (onward later stepped)
    exact fun system action member => implies system action (List.mem_cons_of_mem _ member)

/-- A condition on the actions alone. -/
theorem along_of_forall {allowed : System S Reply Stmt ε α Req → Action Reply ε Req → Prop}
    {actions : List (Action Reply ε Req)} (every : ∀ system, ∀ action ∈ actions, allowed system action)
    (system : System S Reply Stmt ε α Req) : Along driver serve allowed system actions := by
  induction actions generalizing system with
  | nil => trivial
  | cons action rest ih =>
    refine ⟨every system action List.mem_cons_self, fun later _ => ?_⟩
    exact ih (fun system action member => every system action (List.mem_cons_of_mem _ member)) later

end Runs

end BackendFoundation.ReadCommittedProofs
