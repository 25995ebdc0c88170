import BackendFoundation.ReadCommittedProofs

/-! A request served alone is one schedule of the interleaved sessions: the one
in which no other session is open. What interleaving keeps is therefore kept by
`exec`. -/
namespace BackendFoundation.SoloRuns
open KeyedTables RequestPrograms ReadCommitted ReadCommittedProofs

variable {ρ κ : Type} [DecidableEq κ] {S : Schema ρ κ}
variable {Ask : Type} {Reply : Ask → Type} {Stmt ε α Req : Type}
variable {driver : Driver S Stmt ε} {tick : Tick Reply ε} {committed committed' : Table S}
variable {serve : Req → Program (Op Ask Stmt) (Answer Reply ρ) ε α}
variable {session later : Session S Reply Stmt ε α Req}

theorem run_append (system : System S Reply Stmt ε α Req) (first second : List (Action Reply ε Req)) :
    system.run driver serve (first ++ second) =
      (system.run driver serve first).bind fun middle => middle.run driver serve second := by
  induction first generalizing system with
  | nil => rfl
  | cons action rest ih =>
    rw [List.cons_append, System.run, System.run, Option.bind_assoc]
    exact Option.bind_congr fun middle _ => ih middle

/-- The only session takes its next step. -/
private theorem run_step (rest : List (Action Reply ε Req))
    (advanced : session.advance driver tick committed [] = some (committed', later)) :
    (System.mk committed [session]).run driver serve (.step 0 tick :: rest) =
      (System.mk committed' [later]).run driver serve rest := by
  simp [System.run, System.next, advanced]

/-- An UPDATE that nothing disturbs takes every row its snapshot has selected. -/
private theorem run_scan {statement : Stmt} {change : Change S}
    {next : Except ε (List ρ) → Program (Op Ask Stmt) (Answer Reply ρ) ε α}
    (healthy : tick.fault = none) (sql : driver.sql statement = .update change) (rows touched : List ρ)
    (calls : session.program = .call (.stmt statement) next)
    (scans : session.scan = some ⟨rows.map S.key, touched⟩)
    (selected : ∀ row ∈ rows, row ∈ Table.overlay committed session.pending ∧ change.wanted row = true)
    (distinct : (rows.map S.key).Nodup) :
    (System.mk committed [session]).run driver serve (List.replicate rows.length (.step 0 tick)) =
      some ⟨committed, [{ session with
        pending := (rows.map change.set).foldl Table.put session.pending
        scan := some ⟨[], touched ++ rows.map change.set⟩ }]⟩ := by
  induction rows generalizing session touched with
  | nil =>
    simp only [List.map_nil, List.foldl_nil, List.append_nil] at scans ⊢
    rw [← scans]
    rfl
  | cons row rest ih =>
    obtain ⟨fresh, distinct⟩ := List.nodup_cons.mp distinct
    obtain ⟨visible, wanted⟩ := selected row List.mem_cons_self
    have newest : (Table.overlay committed session.pending).lookup (S.key row) = some row :=
      Table.lookup_eq_some.mpr ⟨visible, rfl⟩
    have advanced : session.advance driver tick committed [] = some (committed, { session with
        pending := session.pending.put (change.set row)
        scan := some ⟨rest.map S.key, touched ++ [change.set row]⟩ }) := by
      simp [Session.advance, calls, healthy, sql, Session.advanceUpdate, scans, Session.relock, newest,
        wanted]
    have still : ∀ other ∈ rest,
        other ∈ Table.overlay committed (session.pending.put (change.set row)) ∧
          change.wanted other = true := by
      intro other member
      obtain ⟨there, wants⟩ := selected other (List.mem_cons_of_mem _ member)
      have apart : S.key (change.set row) ≠ S.key other := by
        rw [change.key_set]
        exact fun same => fresh (same ▸ List.mem_map_of_mem member)
      refine ⟨Table.mem_overlay.mpr ?_, wants⟩
      rcases Table.mem_overlay.mp there with own | ⟨kept, unwritten⟩
      · exact .inl (Table.mem_put.mpr (.inr ⟨own, apart.symm⟩))
      · refine .inr ⟨kept, fun own here => ?_⟩
        rcases Table.mem_put.mp here with rfl | ⟨old, _⟩
        · exact apart
        · exact unwritten own old
    have onward := @ih { session with
        pending := session.pending.put (change.set row)
        scan := some ⟨rest.map S.key, touched ++ [change.set row]⟩ } _ calls rfl still distinct
    rw [List.length_cons, List.replicate_succ, run_step _ advanced, onward]
    simp

/-- The session's next operation is one step that answers as `perform` does. -/
private theorem run_once {op : Op Ask Stmt} {answer : Except ε (Answer Reply ρ op)}
    {next : Except ε (Answer Reply ρ op) → Program (Op Ask Stmt) (Answer Reply ρ) ε α}
    (advanced : session.advance driver tick committed [] = some (committed', later))
    (performed : perform driver tick committed session.pending op = (answer, committed', later.pending))
    (program : later.program = next answer) (ended : later.scan = none) :
    ∃ count after, (System.mk committed [session]).run driver serve
        (List.replicate count (.step 0 tick)) =
          some ⟨(perform driver tick committed session.pending op).2.1, [after]⟩ ∧
      after.program = next (perform driver tick committed session.pending op).1 ∧
      after.pending = (perform driver tick committed session.pending op).2.2 ∧ after.scan = none := by
  rw [performed]
  exact ⟨1, later, run_step [] advanced, program, rfl, ended⟩

/-- An UPDATE takes its snapshot, the rows that it selects, and its answer. -/
private theorem run_update {statement : Stmt} {change : Change S}
    {next : Except ε (List ρ) → Program (Op Ask Stmt) (Answer Reply ρ) ε α}
    (fault : tick.fault = none) (sql : driver.sql statement = .update change)
    (calls : session.program = .call (.stmt statement) next) (begins : session.scan = none) :
    ∃ count after, (System.mk committed [session]).run driver serve
        (List.replicate count (.step 0 tick)) =
          some ⟨(perform driver tick committed session.pending (.stmt statement)).2.1, [after]⟩ ∧
      after.program = next (perform driver tick committed session.pending (.stmt statement)).1 ∧
      after.pending = (perform driver tick committed session.pending (.stmt statement)).2.2 ∧
      after.scan = none := by
  generalize selection : (Table.overlay committed session.pending).rows.filter change.wanted = rows
  have selected : ∀ row ∈ rows, row ∈ Table.overlay committed session.pending ∧
      change.wanted row = true := by
    intro row member
    rw [← selection] at member
    exact List.mem_filter.mp member
  have distinct : (rows.map S.key).Nodup := by
    rw [← selection]
    exact (Table.overlay committed session.pending).keyed.sublist (List.filter_sublist.map S.key)
  have began : session.advance driver tick committed [] =
      some (committed, { session with scan := some ⟨rows.map S.key, []⟩ }) := by
    simp [Session.advance, calls, fault, sql, Session.advanceUpdate, begins, selection]
  have scanned : (System.mk committed [{ session with
        scan := some ⟨rows.map S.key, []⟩ }]).run driver serve
          (List.replicate rows.length (.step 0 tick)) = some ⟨committed, [{ session with
        pending := (rows.map change.set).foldl Table.put session.pending
        scan := some ⟨[], rows.map change.set⟩ }]⟩ :=
    run_scan fault sql rows [] calls rfl selected distinct
  have answered : Session.advance driver { session with
        pending := (rows.map change.set).foldl Table.put session.pending
        scan := some ⟨[], rows.map change.set⟩ } tick committed [] =
      some (committed, session.proceed (next (.ok (rows.map change.set)))
        ((rows.map change.set).foldl Table.put session.pending)) := by
    simp [Session.advance, calls, fault, sql, Session.advanceUpdate, Session.proceed]
  have performed : perform driver tick committed session.pending (.stmt statement) =
      (.ok (rows.map change.set), committed,
        (rows.map change.set).foldl Table.put session.pending) := by
    simp [perform, fault, sql, Sql.run, selection]
  rw [performed]
  refine ⟨rows.length + 1 + 1, session.proceed (next (.ok (rows.map change.set)))
    ((rows.map change.set).foldl Table.put session.pending), ?_, rfl, rfl, rfl⟩
  rw [List.replicate_succ, run_step _ began, List.replicate_succ', run_append, scanned]
  exact run_step [] answered

/-- One operation of a session alone takes as many steps as it needs. -/
private theorem run_perform {op : Op Ask Stmt}
    {next : Except ε (Answer Reply ρ op) → Program (Op Ask Stmt) (Answer Reply ρ) ε α}
    (calls : session.program = .call op next) (begins : session.scan = none) :
    ∃ count after, (System.mk committed [session]).run driver serve
        (List.replicate count (.step 0 tick)) =
          some ⟨(perform driver tick committed session.pending op).2.1, [after]⟩ ∧
      after.program = next (perform driver tick committed session.pending op).1 ∧
      after.pending = (perform driver tick committed session.pending op).2.2 ∧ after.scan = none := by
  cases op with
  | ask question =>
    have advanced : session.advance driver tick committed [] =
        some (committed, { session with program := next (tick.answer question) }) := by
      simp [Session.advance, calls]
    exact run_once advanced rfl rfl begins
  | commit =>
    cases fault : tick.fault with
    | some error =>
      have advanced : session.advance driver tick committed [] =
          some (committed, session.abort (next (.error error))) := by
        simp [Session.advance, calls, fault]
      exact run_once advanced (by simp [perform, fault, Session.abort]) rfl rfl
    | none =>
      cases checks : settled committed session.pending with
      | true =>
        have advanced : session.advance driver tick committed [] =
            some (Table.overlay committed session.pending, { session with
              program := next (.ok ()), pending := Table.empty S, scan := none
              published := session.published ++ session.pending.rows }) := by
          simp [Session.advance, calls, fault, checks]
        exact run_once advanced (by simp [perform, fault, checks]) rfl rfl
      | false =>
        have advanced : session.advance driver tick committed [] =
            some (committed, session.abort (next (.error (driver.raised .integrity)))) := by
          simp [Session.advance, calls, fault, checks]
        exact run_once advanced (by simp [perform, fault, checks, Session.abort]) rfl rfl
  | stmt statement =>
    cases fault : tick.fault with
    | some error =>
      have advanced : session.advance driver tick committed [] =
          some (committed, session.abort (next (.error error))) := by
        simp [Session.advance, calls, fault]
      exact run_once advanced (by simp [perform, fault, Session.abort]) rfl rfl
    | none =>
      cases sql : driver.sql statement with
      | refused error =>
        have advanced : session.advance driver tick committed [] =
            some (committed, session.abort (next (.error (driver.raised error)))) := by
          simp [Session.advance, calls, fault, sql]
        exact run_once advanced (by simp [perform, fault, sql, Sql.run, Session.abort]) rfl rfl
      | select wanted =>
        have advanced : session.advance driver tick committed [] = some (committed, session.proceed
            (next (.ok ((Table.overlay committed session.pending).rows.filter wanted)))
            session.pending) := by
          simp [Session.advance, calls, fault, sql]
        exact run_once advanced (by simp [perform, fault, sql, Sql.run, Session.proceed]) rfl rfl
      | insert row =>
        cases room : admits (Table.overlay committed session.pending) row with
        | true =>
          have advanced : session.advance driver tick committed [] =
              some (committed, session.proceed (next (.ok [row])) (session.pending.put row)) := by
            simp [Session.advance, calls, fault, sql, room]
          exact run_once advanced (by simp [perform, fault, sql, Sql.run, room, Session.proceed]) rfl rfl
        | false =>
          have advanced : session.advance driver tick committed [] =
              some (committed, session.abort (next (.error (driver.raised .integrity)))) := by
            simp [Session.advance, calls, fault, sql, room]
          exact run_once advanced (by simp [perform, fault, sql, Sql.run, room, Session.abort]) rfl rfl
      | update change =>
        exact run_update fault sql calls begins

/-- **Served alone, a request ends as some interleaved run of its session does.** -/
theorem exec_run (ticks : ℕ → Tick Reply ε) (moment : ℕ)
    {program : Program (Op Ask Stmt) (Answer Reply ρ) ε α} (starts : session.program = program)
    (begins : session.scan = none) :
    ∃ actions after, (System.mk committed [session]).run driver serve actions =
        some ⟨(exec driver ticks moment committed session.pending program).2, [after]⟩ ∧
      after.program = Program.ofExcept (exec driver ticks moment committed session.pending program).1 := by
  induction program generalizing moment committed session with
  | ret value => exact ⟨[], session, rfl, starts⟩
  | raise error => exact ⟨[], session, rfl, starts⟩
  | call op next ih =>
    obtain ⟨count, middle, ran, program, pending, ended⟩ :=
      @run_perform _ _ _ _ _ _ _ _ _ _ driver (ticks moment) committed serve session op next starts begins
    obtain ⟨actions, after, onward, result⟩ :=
      ih _ (moment + 1) program ended
    rw [pending] at onward result
    refine ⟨List.replicate count (.step 0 (ticks moment)) ++ actions, after, ?_, result⟩
    rw [run_append, ran]
    exact onward

/-- A request served alone keeps the unique indexes. -/
theorem exec_clean (ticks : ℕ → Tick Reply ε) (program : Program (Op Ask Stmt) (Answer Reply ρ) ε α)
    (clean : committed.ClashFree) :
    (exec driver ticks 0 committed (Table.empty S) program).2.ClashFree := by
  have start : Isolated (⟨committed, [Session.fresh () program]⟩ : System S Reply Stmt ε α Unit) := by
    refine ⟨clean, fun session member => ?_, fun i j left right different first second => ?_⟩
    · rw [List.mem_singleton.mp member]
      exact clean
    · obtain ⟨zero, _⟩ := List.getElem?_eq_some_iff.mp first
      obtain ⟨zero', _⟩ := List.getElem?_eq_some_iff.mp second
      simp only [List.length_cons, List.length_nil] at zero zero'
      omega
  have fresh : (Session.fresh () program : Session S Reply Stmt ε α Unit).program = program := rfl
  obtain ⟨actions, after, ran, _⟩ :=
    @exec_run _ _ _ _ _ _ _ _ _ _ driver committed (fun _ => program) _ ticks 0 program fresh rfl
  have isolated := run_invariant (fun _ _ _ before _ => isolated_next before) start
    (along_of_forall (fun _ _ _ => trivial) _) ran
  exact isolated.clean

end BackendFoundation.SoloRuns
