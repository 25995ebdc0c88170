import BackendFoundation.Catalogs

/-! Migrations in a chain, and a database in which a table of the migration tool records the
last one that is applied. A command applies or takes back some of them in one transaction,
which makes that table if it is not there yet, between commands others change what they own,
and a command that fails leaves no trace. -/
namespace BackendFoundation.MigrationChains
open Catalogs Catalog

structure Migration (ν : Type) where
  revision : ν
  downRevision : Option ν
  upgrade : List (Ddl ν)
  downgrade : List (Ddl ν)

/-- What the tool works with: the table that it keeps its record in, and the migrations,
oldest first. -/
structure Scripts (ν : Type) where
  ledger : TableDef ν
  migrations : List (Migration ν)

/-- A database: the row of the tool's table, if it has one, and the catalog. -/
structure Deployment (ν : Type) where
  version : Option ν
  catalog : Catalog ν

/-- The revision a command is to reach; `none` is the base. -/
inductive Command (ν : Type) where
  | upgrade (target : Option ν)
  | downgrade (target : Option ν)

/-- A command, which may fail at any statement or at its COMMIT, or a statement of others. -/
inductive Action (ν : Type) where
  | command (command : Command ν) (fails : Bool)
  | other (statement : Ddl ν)

variable {ν : Type} [DecidableEq ν]

/-- The migrations up to a revision, oldest first. -/
def upTo (revision : ν) : List (Migration ν) → Option (List (Migration ν))
  | [] => none
  | migration :: rest =>
    if migration.revision = revision then some [migration]
    else (upTo revision rest).map (migration :: ·)

def history (migrations : List (Migration ν)) : Option ν → Option (List (Migration ν))
  | none => some []
  | some revision => upTo revision migrations

/-- The scripts of a migration, each of which records the revision it leads to. -/
def Migration.up (deployment : Deployment ν) (migration : Migration ν) : Option (Deployment ν) :=
  (deployment.catalog.execAll migration.upgrade).map (⟨some migration.revision, ·⟩)

def Migration.down (deployment : Deployment ν) (migration : Migration ν) : Option (Deployment ν) :=
  (deployment.catalog.execAll migration.downgrade).map (⟨migration.downRevision, ·⟩)

namespace Deployment

/-- Where nothing is recorded the tool makes sure that its table is there. -/
def prepare (ledger : TableDef ν) (deployment : Deployment ν) : Option (Deployment ν) :=
  if deployment.version = none ∧ ¬ deployment.catalog.HasTable ledger.name then
    (deployment.catalog.exec (.createTable ledger)).map (⟨none, ·⟩)
  else some deployment

/-- The migrations that a command runs, one after the other. -/
def migrate (migrations : List (Migration ν)) (deployment : Deployment ν) :
    Command ν → Option (Deployment ν)
  | .upgrade target => do
    let applied ← history migrations deployment.version
    let wanted ← history migrations target
    (wanted.drop applied.length).foldlM Migration.up deployment
  | .downgrade target => do
    let applied ← history migrations deployment.version
    let wanted ← history migrations target
    -- A revision that is not applied is no target.
    if wanted.length ≤ applied.length then
      (applied.drop wanted.length).reverse.foldlM Migration.down deployment
    else none

/-- A command where nothing fails but what the catalog refuses. -/
def run (scripts : Scripts ν) (deployment : Deployment ν) (command : Command ν) :
    Option (Deployment ν) := do
  let ready ← deployment.prepare scripts.ledger
  ready.migrate scripts.migrations command

def next (scripts : Scripts ν) (deployment : Deployment ν) : Action ν → Deployment ν
  | .command command fails =>
    if fails then deployment else (deployment.run scripts command).getD deployment
  | .other statement =>
    { deployment with catalog := (deployment.catalog.exec statement).getD deployment.catalog }

def runAll (scripts : Scripts ν) (deployment : Deployment ν) (actions : List (Action ν)) :
    Deployment ν :=
  actions.foldl (next scripts) deployment

end Deployment

/-! ## The chain -/

omit [DecidableEq ν] in
/-- The revision that a database is at after these migrations. -/
def headOf (migrations : List (Migration ν)) : Option ν := migrations.getLast?.map (·.revision)

/-- The scripts of some migrations, in the order in which they run. -/
def upgrades (migrations : List (Migration ν)) : List (Ddl ν) := migrations.flatMap (·.upgrade)

def downgrades (migrations : List (Migration ν)) : List (Ddl ν) :=
  migrations.reverse.flatMap (·.downgrade)

/-- What the migrations build where nothing else is. -/
def built (migrations : List (Migration ν)) : Option (Catalog ν) :=
  Catalog.empty.execAll (upgrades migrations)

/-- Each migration names the one before it, and its downgrade takes back what its upgrade
adds to what those before it have built. -/
def Chained (version : Option ν) (own : Catalog ν) : List (Migration ν) → Prop
  | [] => True
  | migration :: rest =>
    migration.downRevision = version ∧ ∃ own', own.execAll migration.upgrade = some own' ∧
      own'.execAll migration.downgrade = some own ∧ Chained (some migration.revision) own' rest

/-- The migrations of an owner, and the table of the tool, which owns no more than this. -/
structure Chain (mine tool : Names ν) extends Scripts ν where
  ledgered : ledger.Within tool
  makes : Catalog.empty.exec (.createTable ledger) = some ⟨[ledger], [], []⟩
  apart : mine.Apart tool
  distinct : (migrations.map (·.revision)).Nodup
  creates : ∀ statement ∈ upgrades migrations, statement.Within mine ∧ statement.Creates
  drops : ∀ statement ∈ downgrades migrations, statement.Within mine ∧ statement.Drops
  chained : Chained none Catalog.empty migrations

omit [DecidableEq ν] in
theorem upgrades_append (first second : List (Migration ν)) :
    upgrades (first ++ second) = upgrades first ++ upgrades second := List.flatMap_append

omit [DecidableEq ν] in
theorem downgrades_append (first second : List (Migration ν)) :
    downgrades (first ++ second) = downgrades second ++ downgrades first := by
  simp only [downgrades, List.reverse_append, List.flatMap_append]

theorem upTo_some {revision : ν} {migrations found : List (Migration ν)}
    (finds : upTo revision migrations = some found) :
    found <+: migrations ∧ headOf found = some revision := by
  induction migrations generalizing found with
  | nil => cases finds
  | cons migration rest ih =>
    unfold upTo at finds
    split at finds
    · rename_i here
      cases finds
      exact ⟨⟨rest, rfl⟩, congrArg some here⟩
    · obtain ⟨tail, found_tail, rfl⟩ := Option.map_eq_some_iff.mp finds
      obtain ⟨start, last⟩ := ih found_tail
      refine ⟨List.prefix_cons_inj migration |>.mpr start, ?_⟩
      cases tail with
      | nil => cases last
      | cons other tail =>
        rw [headOf, List.getLast?_cons_cons]
        exact last

theorem upTo_append {before after : List (Migration ν)} {migration : Migration ν}
    (distinct : ((before ++ migration :: after).map (·.revision)).Nodup) :
    upTo migration.revision (before ++ migration :: after) = some (before ++ [migration]) := by
  induction before with
  | nil => exact if_pos rfl
  | cons first before ih =>
    obtain ⟨fresh, rest⟩ := List.nodup_cons.mp distinct
    have later : migration ∈ before ++ migration :: after :=
      List.mem_append.mpr (.inr List.mem_cons_self)
    have other : first.revision ≠ migration.revision :=
      fun same => fresh (List.mem_map.mpr ⟨migration, later, same.symm⟩)
    rw [List.cons_append, upTo, if_neg other, ih rest]
    rfl

theorem history_some {migrations found : List (Migration ν)} {target : Option ν}
    (finds : history migrations target = some found) : found <+: migrations ∧ headOf found = target := by
  cases target with
  | none =>
    cases finds
    exact ⟨List.nil_prefix, rfl⟩
  | some revision => exact upTo_some finds

theorem history_headOf {migrations before : List (Migration ν)}
    (distinct : (migrations.map (·.revision)).Nodup) (start : before <+: migrations) :
    history migrations (headOf before) = some before := by
  obtain ⟨after, rfl⟩ := start
  rcases List.eq_nil_or_concat' before with rfl | ⟨before, migration, rfl⟩
  · rfl
  · have last : headOf (before ++ [migration]) = some migration.revision := by simp [headOf]
    rw [last]
    rw [List.append_assoc] at distinct ⊢
    exact upTo_append distinct

/-- What the chain says of the migrations between two places. -/
theorem chained_between {before middle after : List (Migration ν)} {version : Option ν} {own : Catalog ν}
    (chained : Chained version own (before ++ (middle ++ after))) :
    ∃ own₁ own₂, own.execAll (upgrades before) = some own₁ ∧
      own₁.execAll (upgrades middle) = some own₂ ∧ own₂.execAll (downgrades middle) = some own₁ ∧
      ∀ migration ∈ middle.head?, migration.downRevision = (headOf before).or version := by
  induction before generalizing version own with
  | cons first before ih =>
    obtain ⟨_, own', adds, _, rest⟩ := chained
    obtain ⟨own₁, own₂, build, up, down, linked⟩ := ih rest
    refine ⟨own₁, own₂, ?_, up, down, fun migration member => (linked migration member).trans ?_⟩
    · change own.execAll (first.upgrade ++ upgrades before) = some own₁
      rw [execAll_append, adds]
      exact build
    · cases before with
      | nil => rfl
      | cons second before =>
        simp only [headOf, List.getLast?_cons_cons]
        cases last : (second :: before).getLast? with
        | none => simp at last
        | some _ => rfl
  | nil =>
    refine ⟨own, ?_⟩
    rw [List.nil_append] at chained
    induction middle generalizing version own with
    | nil => exact ⟨own, rfl, rfl, rfl, fun _ never => by cases never⟩
    | cons migration middle ih =>
      obtain ⟨names, own', adds, takes, rest⟩ := chained
      obtain ⟨own₂, _, up, down, _⟩ := ih rest
      refine ⟨own₂, rfl, ?_, ?_, fun _ here => by cases here; exact names⟩
      · change own.execAll (migration.upgrade ++ upgrades middle) = some own₂
        rw [execAll_append, adds]
        exact up
      · have order : downgrades (migration :: middle) = downgrades middle ++ migration.downgrade := by
          simp [downgrades]
        rw [order, execAll_append, down]
        exact takes

/-- Migrations one after the other are their scripts one after the other. -/
theorem foldlM_up (migrations : List (Migration ν)) (deployment : Deployment ν) :
    migrations.foldlM Migration.up deployment = (deployment.catalog.execAll (upgrades migrations)).map
      (⟨(headOf migrations).or deployment.version, ·⟩) := by
  induction migrations generalizing deployment with
  | nil => rfl
  | cons migration rest ih =>
    rw [List.foldlM_cons]
    change (Option.map _ _).bind _ = Option.map _ (deployment.catalog.execAll (migration.upgrade ++ upgrades rest))
    rw [execAll_append]
    cases deployment.catalog.execAll migration.upgrade with
    | none => rfl
    | some later =>
      refine (ih _).trans (congrArg (Option.map · _) (funext fun _ => congrArg (Deployment.mk · _) ?_))
      cases rest with
      | nil => rfl
      | cons second rest =>
        simp only [headOf, List.getLast?_cons_cons]
        cases last : (second :: rest).getLast? with
        | none => simp at last
        | some _ => rfl

theorem foldlM_down (migrations : List (Migration ν)) (deployment : Deployment ν) :
    migrations.reverse.foldlM Migration.down deployment =
      (deployment.catalog.execAll (downgrades migrations)).map
        (⟨(migrations.head?.map (·.downRevision)).getD deployment.version, ·⟩) := by
  induction migrations generalizing deployment with
  | nil => rfl
  | cons migration rest ih =>
    have order : downgrades (migration :: rest) = downgrades rest ++ migration.downgrade := by
      simp [downgrades]
    rw [List.reverse_cons, List.foldlM_append, ih, order, execAll_append]
    cases deployment.catalog.execAll (downgrades rest) with
    | none => rfl
    | some later =>
      simp only [Option.map_some, Option.bind_eq_bind, Option.bind_some, List.foldlM_cons,
        List.foldlM_nil, Option.pure_def, Option.bind_fun_some]
      rfl

/-! ## Runs -/

variable {mine tool : Names ν}

/-- The tool's table tells the migrations that are applied, the owner's part of the catalog is
what these build, and the tool's part is its table, or nothing yet. -/
structure Stands (chain : Chain mine tool) (before : List (Migration ν)) (deployment : Deployment ν) :
    Prop where
  applied : before <+: chain.migrations
  version : deployment.version = headOf before
  contains : ∃ own, built before = some own ∧ Contains mine own deployment.catalog
  closed : deployment.catalog.Closed
  ledger : Contains tool ⟨[chain.ledger], [], []⟩ deployment.catalog ∨
    deployment.version = none ∧ Contains tool Catalog.empty deployment.catalog

/-- The tool's table is there. -/
structure Ready (chain : Chain mine tool) (before : List (Migration ν)) (deployment : Deployment ν) :
    Prop extends Stands chain before deployment where
  ready : Contains tool ⟨[chain.ledger], [], []⟩ deployment.catalog

/-- A command, or a statement of others. -/
def Action.Respects (mine tool : Names ν) : Action ν → Prop
  | .command _ _ => True
  | .other statement => statement.Outside (mine.both tool)

section Runs

variable {chain : Chain mine tool} {before middle : List (Migration ν)}
  {deployment ready later : Deployment ν} {command : Command ν} {script : List (Ddl ν)}

theorem Chain.within_up (chain : Chain mine tool) (part : before ++ middle <+: chain.migrations) :
    ∀ statement ∈ upgrades middle, statement.Within mine ∧ statement.Creates := by
  obtain ⟨after, split⟩ := part
  intro statement member
  apply chain.creates
  rw [← split, upgrades_append, upgrades_append]
  exact List.mem_append.mpr (.inl (List.mem_append.mpr (.inr member)))

theorem Chain.within_down (chain : Chain mine tool) (part : before ++ middle <+: chain.migrations) :
    ∀ statement ∈ downgrades middle, statement.Within mine ∧ statement.Drops := by
  obtain ⟨after, split⟩ := part
  intro statement member
  apply chain.drops
  rw [← split, downgrades_append, downgrades_append]
  exact List.mem_append.mpr (.inr (List.mem_append.mpr (.inl member)))

/-- What the chain builds before and after some migrations. -/
theorem Chain.between (chain : Chain mine tool) (part : before ++ middle <+: chain.migrations) :
    ∃ own₁ own₂, built before = some own₁ ∧ built (before ++ middle) = some own₂ ∧
      own₁.execAll (upgrades middle) = some own₂ ∧ own₂.execAll (downgrades middle) = some own₁ ∧
      ∀ migration ∈ middle.head?, migration.downRevision = headOf before := by
  obtain ⟨after, split⟩ := part
  have chained := chain.chained
  rw [← split, List.append_assoc] at chained
  obtain ⟨own₁, own₂, build, up, down, linked⟩ := chained_between chained
  refine ⟨own₁, own₂, build, ?_, up, down, fun migration member => ?_⟩
  · rw [built, upgrades_append, execAll_append, build]
    exact up
  · rw [linked migration member, Option.or_none]

/-- A table that is there already is not made again. -/
theorem Ready.prepare (ready : Ready chain before deployment) :
    deployment.prepare chain.ledger = some deployment := by
  have there : chain.ledger ∈ deployment.catalog.tables :=
    (ready.ready.mem_tables.mp List.mem_cons_self).1
  exact if_neg fun missing => missing.2 ⟨chain.ledger, there, rfl⟩

/-- Before the first command the table is made, and makes no difference to anybody else. -/
theorem Stands.prepare (stands : Stands chain before deployment) :
    ∃ ready, deployment.prepare chain.ledger = some ready ∧ Ready chain before ready ∧
      (ready = deployment ∨
        ready = ⟨deployment.version, deployment.catalog.edit (.createTable chain.ledger)⟩) := by
  rcases stands.ledger with there | ⟨unrecorded, nothing⟩
  · exact ⟨deployment, Ready.prepare ⟨stands, there⟩, ⟨stands, there⟩, .inl rfl⟩
  · have missing : ¬ deployment.catalog.HasTable chain.ledger.name := by
      rintro ⟨table, member, named⟩
      have among := nothing.mem_tables.mpr ⟨member, named ▸ chain.ledgered.1⟩
      exact absurd among List.not_mem_nil
    have within : (Ddl.createTable chain.ledger).Within tool := chain.ledgered
    have creates : (Ddl.createTable chain.ledger).Creates := trivial
    obtain ⟨catalog, ran⟩ := nothing.exec_creates stands.closed within creates chain.makes
    obtain ⟨own, made, holds⟩ := nothing.exec_within within ran
    cases chain.makes.symm.trans made
    obtain ⟨own, build, contains⟩ := stands.contains
    have kept := contains.exec_outside (within.outside chain.apart.symm) ran
    obtain ⟨_, closed, rfl⟩ := exec_eq_some.mp ran
    have ready : Ready chain before ⟨deployment.version,
        deployment.catalog.edit (.createTable chain.ledger)⟩ :=
      ⟨⟨stands.applied, stands.version, ⟨own, build, kept⟩, closed, .inl holds⟩, holds⟩
    refine ⟨_, ?_, ready, .inr rfl⟩
    unfold Deployment.prepare
    rw [if_pos ⟨unrecorded, missing⟩, ran, unrecorded]
    rfl

/-- Preparing leaves everything but the tool's table as it is. -/
theorem Stands.prepare_others (stands : Stands chain before deployment)
    (prepared : deployment.prepare chain.ledger = some ready) :
    ready.catalog.others (mine.both tool) = deployment.catalog.others (mine.both tool) := by
  obtain ⟨_, again, _, rfl | rfl⟩ := stands.prepare
  · cases prepared.symm.trans again
    rfl
  · cases prepared.symm.trans again
    refine others_both_right ?_
    have named := chain.ledgered.1
    simp [Catalog.others, edit, List.filter_append, named]

theorem Stands.prepared (stands : Stands chain before deployment)
    (prepared : deployment.prepare chain.ledger = some ready) : Ready chain before ready := by
  obtain ⟨_, again, stood, _⟩ := stands.prepare
  cases prepared.symm.trans again
  exact stood

/-- The owner's scripts leave the tool's table alone. -/
theorem Ready.keeps_ledger (ready : Ready chain before deployment)
    (within : ∀ statement ∈ script, statement.Within mine) {catalog : Catalog ν}
    (ran : deployment.catalog.execAll script = some catalog) :
    Contains tool ⟨[chain.ledger], [], []⟩ catalog :=
  ready.ready.execAll_outside
    (fun statement member => (within statement member).outside chain.apart) ran

/-- Some migrations applied one after the other. -/
theorem Ready.ups (stands : Ready chain before deployment)
    (part : before ++ middle <+: chain.migrations)
    (done : middle.foldlM Migration.up deployment = some later) :
    Ready chain (before ++ middle) later ∧
      later.catalog.others mine = deployment.catalog.others mine := by
  obtain ⟨own₁, own₂, build₁, build₂, up, _, _⟩ := chain.between part
  obtain ⟨own, build, contains⟩ := stands.contains
  cases build₁.symm.trans build
  rw [foldlM_up] at done
  obtain ⟨catalog, ran, rfl⟩ := Option.map_eq_some_iff.mp done
  have within := fun statement member => (chain.within_up part statement member).1
  obtain ⟨_, again, contains', kept⟩ := contains.execAll_within within ran
  cases up.symm.trans again
  have ledger := stands.keeps_ledger within ran
  refine ⟨⟨⟨part, ?_, ⟨own₂, build₂, contains'⟩, Contains.execAll_closed stands.closed ran,
    .inl ledger⟩, ledger⟩, kept⟩
  change (headOf middle).or deployment.version = headOf (before ++ middle)
  rw [stands.version, headOf, headOf, headOf, List.getLast?_append]
  cases middle.getLast? <;> rfl

/-- Some migrations taken back, the last one first. -/
theorem Ready.downs (stands : Ready chain (before ++ middle) deployment)
    (done : middle.reverse.foldlM Migration.down deployment = some later) :
    Ready chain before later ∧ later.catalog.others mine = deployment.catalog.others mine := by
  obtain ⟨own₁, own₂, build₁, build₂, _, down, linked⟩ := chain.between stands.applied
  obtain ⟨own, build, contains⟩ := stands.contains
  cases build₂.symm.trans build
  rw [foldlM_down] at done
  obtain ⟨catalog, ran, rfl⟩ := Option.map_eq_some_iff.mp done
  have within := fun statement member => (chain.within_down stands.applied statement member).1
  obtain ⟨_, again, contains', kept⟩ := contains.execAll_within within ran
  cases down.symm.trans again
  have ledger := stands.keeps_ledger within ran
  refine ⟨⟨⟨(List.prefix_append _ _).trans stands.applied, ?_, ⟨own₁, build₁, contains'⟩,
    Contains.execAll_closed stands.closed ran, .inl ledger⟩, ledger⟩, kept⟩
  cases middle with
  | nil => exact stands.version.trans (congrArg headOf (List.append_nil before))
  | cons migration rest => exact linked migration rfl

theorem Stands.history (stands : Stands chain before deployment) :
    history chain.migrations deployment.version = some before :=
  stands.version ▸ history_headOf chain.distinct stands.applied

/-- The migrations of a command lead to a version of the chain. -/
theorem Ready.migrate (stands : Ready chain before deployment)
    (done : deployment.migrate chain.migrations command = some later) :
    (∃ after, Ready chain after later) ∧
      later.catalog.others mine = deployment.catalog.others mine := by
  cases command with
  | upgrade target =>
    obtain ⟨applied, known, rest⟩ := Option.bind_eq_some_iff.mp done
    obtain ⟨wanted, found, ran⟩ := Option.bind_eq_some_iff.mp rest
    cases stands.history.symm.trans known
    obtain ⟨start, _⟩ := history_some found
    rcases List.prefix_or_prefix_of_prefix stands.applied start with ⟨middle, rfl⟩ | shorter
    · rw [List.drop_left] at ran
      obtain ⟨reached, kept⟩ := stands.ups start ran
      exact ⟨⟨_, reached⟩, kept⟩
    · rw [List.drop_eq_nil_of_le shorter.length_le] at ran
      cases ran
      exact ⟨⟨before, stands⟩, rfl⟩
  | downgrade target =>
    obtain ⟨applied, known, rest⟩ := Option.bind_eq_some_iff.mp done
    obtain ⟨wanted, found, ran⟩ := Option.bind_eq_some_iff.mp rest
    cases stands.history.symm.trans known
    obtain ⟨start, _⟩ := history_some found
    split at ran
    · rename_i lower
      obtain ⟨middle, rfl⟩ := List.prefix_of_prefix_length_le start stands.applied lower
      rw [List.drop_left] at ran
      obtain ⟨reached, kept⟩ := stands.downs ran
      exact ⟨⟨_, reached⟩, kept⟩
    · cases ran

/-- A command leads to a version of the chain, and leaves the others' objects alone. -/
theorem Stands.run (stands : Stands chain before deployment)
    (done : deployment.run chain.toScripts command = some later) :
    (∃ after, Ready chain after later) ∧
      later.catalog.others (mine.both tool) = deployment.catalog.others (mine.both tool) := by
  obtain ⟨ready, prepared, ran⟩ := Option.bind_eq_some_iff.mp done
  obtain ⟨reached, kept⟩ := (stands.prepared prepared).migrate ran
  exact ⟨reached, (others_both_left kept).trans (stands.prepare_others prepared)⟩

theorem Stands.other (stands : Stands chain before deployment) {statement : Ddl ν}
    (outside : statement.Outside (mine.both tool)) :
    Stands chain before (deployment.next chain.toScripts (.other statement)) := by
  obtain ⟨own, build, contains⟩ := stands.contains
  obtain ⟨ours, tools⟩ := outside.of_both
  cases ran : deployment.catalog.exec statement with
  | none =>
    change Stands chain before { deployment with catalog := Option.getD _ _ }
    rw [ran]
    exact stands
  | some catalog =>
    change Stands chain before { deployment with catalog := Option.getD _ _ }
    rw [ran]
    obtain ⟨_, closed, rfl⟩ := exec_eq_some.mp ran
    refine ⟨stands.applied, stands.version, ⟨own, build, contains.exec_outside ours ran⟩, closed, ?_⟩
    rcases stands.ledger with there | ⟨unrecorded, nothing⟩
    · exact .inl (there.exec_outside tools ran)
    · exact .inr ⟨unrecorded, nothing.exec_outside tools ran⟩

theorem Stands.next (stands : Stands chain before deployment) {action : Action ν}
    (respects : action.Respects mine tool) :
    ∃ after, Stands chain after (deployment.next chain.toScripts action) := by
  cases action with
  | other statement => exact ⟨before, stands.other respects⟩
  | command command fails =>
    cases fails with
    | true => exact ⟨before, stands⟩
    | false =>
      cases ran : deployment.run chain.toScripts command with
      | none =>
        refine ⟨before, ?_⟩
        change Stands chain before (Option.getD _ _)
        rw [ran]
        exact stands
      | some later =>
        obtain ⟨⟨after, reached⟩, _⟩ := stands.run ran
        refine ⟨after, ?_⟩
        change Stands chain after (Option.getD _ _)
        rw [ran]
        exact reached.toStands

/-- **Runs.** However commands, failures and the others' statements follow each other. -/
theorem Stands.runAll (stands : Stands chain before deployment) {actions : List (Action ν)}
    (respect : ∀ action ∈ actions, action.Respects mine tool) :
    ∃ after, Stands chain after (deployment.runAll chain.toScripts actions) := by
  induction actions generalizing before deployment with
  | nil => exact ⟨before, stands⟩
  | cons action rest ih =>
    obtain ⟨after, reached⟩ := stands.next (respect action List.mem_cons_self)
    exact ih reached fun other member => respect other (List.mem_cons_of_mem _ member)

/-- A database with nothing of the owner's or the tool's, before the first command. -/
theorem stands_base {base : Catalog ν} (free : Contains mine Catalog.empty base)
    (unused : Contains tool Catalog.empty base) (closed : base.Closed) :
    Stands chain [] ⟨none, base⟩ :=
  ⟨List.nil_prefix, rfl, ⟨Catalog.empty, rfl, free⟩, closed, .inr ⟨rfl, unused⟩⟩

/-! ## Success -/

theorem Ready.migrate_upgrade (stands : Ready chain before deployment)
    (part : before ++ middle <+: chain.migrations) :
    deployment.migrate chain.migrations (.upgrade (headOf (before ++ middle))) =
      (deployment.catalog.execAll (upgrades middle)).map
        (⟨(headOf middle).or deployment.version, ·⟩) := by
  rw [← foldlM_up]
  change (MigrationChains.history _ _).bind _ = _
  rw [stands.history, Option.bind_some]
  change (MigrationChains.history _ _).bind _ = _
  rw [history_headOf chain.distinct part, Option.bind_some, List.drop_left]

/-- An upgrade that nothing makes fail reaches its target. -/
theorem Stands.upgrade (stands : Stands chain before deployment)
    (part : before ++ middle <+: chain.migrations) :
    ∃ ready later, deployment.prepare chain.ledger = some ready ∧
      deployment.run chain.toScripts (.upgrade (headOf (before ++ middle))) = some later ∧
      (ready.catalog.execAll (upgrades middle)).map (⟨(headOf middle).or ready.version, ·⟩) =
        some later ∧
      Ready chain (before ++ middle) later ∧
        later.catalog.others mine = ready.catalog.others mine := by
  obtain ⟨ready, prepared, stood, _⟩ := stands.prepare
  obtain ⟨own₁, own₂, build₁, _, up, _, _⟩ := chain.between part
  obtain ⟨own, build, contains⟩ := stood.contains
  cases build₁.symm.trans build
  have within := chain.within_up part
  obtain ⟨catalog, ran⟩ := contains.execAll_creates stood.closed
    (fun statement member => (within statement member).1)
    (fun statement member => (within statement member).2) up
  have done : middle.foldlM Migration.up ready = some ⟨_, catalog⟩ :=
    (foldlM_up middle ready).trans (by rw [ran]; rfl)
  have migrated := stood.migrate_upgrade part
  rw [← foldlM_up, done] at migrated
  refine ⟨ready, _, prepared, ?_, (foldlM_up middle ready).symm.trans done, stood.ups part done⟩
  exact Option.bind_eq_some_iff.mpr ⟨ready, prepared, migrated⟩

end Runs

end BackendFoundation.MigrationChains
