import Mathlib.Data.List.Basic

/-! Paths through directories and symbolic links, and how one is made canonical: every
name is looked up under the canonical path to its directory, and a link is followed in
place. A link that is met again before the end of its own path leads nowhere, so it stays
as it is, as does a name that is not there. -/
namespace BackendFoundation.SymbolicLinks

inductive Step (ν : Type) where
  | stay
  | up
  | down (name : ν)

/-- A path as it is written, from the root or from the place where it is read. -/
structure PurePath (ν : Type) where
  absolute : Bool
  steps : List (Step ν)

/-- The second path from the place to which the first one leads. -/
def PurePath.join {ν : Type} (path other : PurePath ν) : PurePath ν :=
  if other.absolute then other else { path with steps := path.steps ++ other.steps }

inductive Entry (ν γ : Type) where
  | file (content : γ)
  | dir
  | link (target : PurePath ν)

/-- Everything there is, each thing under its path from the root, on which there are only
directories. -/
abbrev Files (ν γ : Type) := List (List ν × Entry ν γ)

/-- What is left of a walk. -/
inductive Pending (ν : Type) where
  | step (step : Step ν)
  /-- The end of the path that a link holds. -/
  | resolved (link : List ν)

/-- The links met, each with the path to which it leads unless it is still being followed. -/
abbrev Seen (ν : Type) := List (List ν × Option (List ν))

variable {ν γ : Type} [DecidableEq ν]

def Files.unseen (files : Files ν γ) (seen : Seen ν) : ℕ :=
  files.countP fun entry => (seen.lookup entry.1).isNone

theorem Files.unseen_le (files : Files ν γ) (seen : Seen ν) (link : List ν)
    (target : Option (List ν)) : files.unseen ((link, target) :: seen) ≤ files.unseen seen := by
  refine List.countP_mono_left fun entry _ unmet => ?_
  rw [List.lookup_cons] at unmet
  split at unmet
  · cases unmet
  · exact unmet

/-- Following a link for the first time leaves fewer links to meet. -/
theorem Files.unseen_lt {files : Files ν γ} {seen : Seen ν} {link : List ν} {entry : Entry ν γ}
    (there : files.lookup link = some entry) (unmet : seen.lookup link = none)
    (target : Option (List ν)) : files.unseen ((link, target) :: seen) < files.unseen seen := by
  induction files with
  | nil => cases there
  | cons first rest ih =>
    obtain ⟨path, found⟩ := first
    have fewer := Files.unseen_le rest seen link target
    unfold Files.unseen at ih fewer ⊢
    rw [List.countP_cons, List.countP_cons]
    rw [List.lookup_cons] at there
    by_cases here : link = path
    · subst here
      have met : ((link, target) :: seen).lookup link = some target := by
        rw [List.lookup_cons, beq_self_eq_true]
      rw [met, unmet]
      exact Nat.add_lt_add_of_le_of_lt fewer Nat.zero_lt_one
    · rw [beq_false_of_ne here] at there
      have same : ((link, target) :: seen).lookup path = seen.lookup path := by
        rw [List.lookup_cons, beq_false_of_ne (Ne.symm here)]
      rw [same]
      exact Nat.add_lt_add_right (ih there) _

/-- The walk. A name can fail to be one that the file system is asked for: the path that
ends in it is the error. -/
def walk (readable : ν → Bool) (files : Files ν γ) : List (Pending ν) → List ν → Seen ν →
    Except (List ν) (List ν)
  | [], path, _ => .ok path
  | .resolved link :: rest, path, seen => walk readable files rest path ((link, some path) :: seen)
  | .step .stay :: rest, path, seen => walk readable files rest path seen
  | .step .up :: rest, path, seen => walk readable files rest path.dropLast seen
  | .step (.down name) :: rest, path, seen =>
    let next := path ++ [name]
    if readable name then
      match _there : files.lookup next with
      | some (.link target) =>
        match _met : seen.lookup next with
        | some (some leads) => walk readable files rest leads seen
        | some none => walk readable files rest next seen
        | none =>
          walk readable files (target.steps.map .step ++ .resolved next :: rest)
            (if target.absolute then [] else path) ((next, none) :: seen)
      | _ => walk readable files rest next seen
    else .error next
termination_by tasks _ seen => (files.unseen seen, tasks.length)
decreasing_by
  · exact Prod.Lex.right' _ (files.unseen_le seen link _) (Nat.lt_succ_self _)
  · exact Prod.Lex.right _ (Nat.lt_succ_self _)
  · exact Prod.Lex.right _ (Nat.lt_succ_self _)
  · exact Prod.Lex.right _ (Nat.lt_succ_self _)
  · exact Prod.Lex.right _ (Nat.lt_succ_self _)
  · exact Prod.Lex.left _ _ (Files.unseen_lt _there _met none)
  · exact Prod.Lex.right _ (Nat.lt_succ_self _)

/-- The canonical path of what a path leads to from a directory. -/
def realpath (readable : ν → Bool) (files : Files ν γ) (directory : List ν) (path : PurePath ν) :
    Except (List ν) (List ν) :=
  walk readable files (path.steps.map .step) (if path.absolute then [] else directory) []

/-! ## Where walks end -/

variable {readable : ν → Bool} {files : Files ν γ}

/-- The names of these links' paths could be read. -/
def Seen.Readable (readable : ν → Bool) (seen : Seen ν) : Prop :=
  ∀ link leads, seen.lookup link = some (some leads) → ∀ name ∈ leads, readable name = true

theorem Seen.Readable.nil : Seen.Readable readable [] := by
  intro link leads met
  cases met

theorem Seen.Readable.cons {seen : Seen ν} {link : List ν} {target : Option (List ν)}
    (known : Seen.Readable readable seen)
    (leads : ∀ path, target = some path → ∀ name ∈ path, readable name = true) :
    Seen.Readable readable ((link, target) :: seen) := by
  intro other path met
  rw [List.lookup_cons] at met
  split at met
  · exact leads path (Option.some.inj met)
  · exact known other path met

/-- A walk asks for every name on the path it ends with, whatever the links hold. -/
theorem walk_readable {tasks : List (Pending ν)} {path final : List ν} {seen : Seen ν}
    (start : ∀ name ∈ path, readable name = true) (known : Seen.Readable readable seen)
    (ends : walk readable files tasks path seen = .ok final) :
    ∀ name ∈ final, readable name = true := by
  fun_induction walk readable files tasks path seen with
  | case1 path seen =>
    cases ends
    exact start
  | case2 link rest path seen ih =>
    exact ih start (known.cons fun _ same => Option.some.inj same ▸ start) ends
  | case3 rest path seen ih => exact ih start known ends
  | case4 rest path seen ih =>
    exact ih (fun name member => start name (List.dropLast_subset path member)) known ends
  | case5 name rest path seen next asked target there leads met ih =>
    exact ih (known _ _ met) known ends
  | case6 name rest path seen next asked target there met ih =>
    exact ih (by simpa [next, or_imp, forall_and] using ⟨start, asked⟩) known ends
  | case7 name rest path seen next asked target there met ih =>
    refine ih ?_ (known.cons nofun) ends
    split
    · exact List.forall_mem_nil _
    · exact start
  | case8 name rest path seen next asked other ih =>
    exact ih (by simpa [next, or_imp, forall_and] using ⟨start, asked⟩) known ends
  | case9 => cases ends

theorem realpath_readable {directory final : List ν} {path : PurePath ν}
    (start : ∀ name ∈ directory, readable name = true)
    (ends : realpath readable files directory path = .ok final) :
    ∀ name ∈ final, readable name = true := by
  refine walk_readable ?_ Seen.Readable.nil ends
  split
  · exact List.forall_mem_nil _
  · exact start

/-- No link is on the way to this path or below it. -/
def Files.Unlinked (files : Files ν γ) (path : List ν) : Prop :=
  ∀ link target, files.lookup link = some (.link target) → ¬ link <+: path ∧ ¬ path <+: link

/-- What is on the way to a place below such a path is no link. -/
theorem Files.Unlinked.not_link {path below way : List ν} (free : files.Unlinked path)
    (on : way <+: path ++ below) (target : PurePath ν) : files.lookup way ≠ some (.link target) := by
  intro there
  have apart := free way target there
  rcases List.prefix_or_prefix_of_prefix on (List.prefix_append path below) with above | inside
  · exact apart.1 above
  · exact apart.2 inside

/-- One step down a directory. -/
theorem walk_down {tasks : List (Pending ν)} {path : List ν} {seen : Seen ν} {name : ν}
    (asked : readable name = true)
    (plain : ∀ target, files.lookup (path ++ [name]) ≠ some (.link target)) :
    walk readable files (.step (.down name) :: tasks) path seen =
      walk readable files tasks (path ++ [name]) seen := by
  rw [walk, if_pos asked]
  split
  · rename_i target there
    exact absurd there (plain target)
  · rfl

/-- Where there are no links, a walk down ends at the path with the names below it. -/
theorem walk_downs {names path : List ν} {seen : Seen ν}
    (plain : ∀ way, way <+: path ++ names → ∀ target, files.lookup way ≠ some (.link target))
    (asked : ∀ name ∈ names, readable name = true) :
    walk readable files (names.map fun name => .step (.down name)) path seen =
      .ok (path ++ names) := by
  induction names generalizing path with
  | nil =>
    rw [List.map_nil, walk, List.append_nil]
  | cons name rest ih =>
    have whole : path ++ name :: rest = path ++ [name] ++ rest := by simp
    rw [whole] at plain ⊢
    rw [List.map_cons, walk_down (asked name List.mem_cons_self)
      (plain _ (List.prefix_append _ rest))]
    exact ih plain fun other member => asked other (List.mem_cons_of_mem _ member)

theorem walk_downs_error {names path : List ν} {seen : Seen ν}
    (plain : ∀ way, way <+: path ++ names → ∀ target, files.lookup way ≠ some (.link target))
    {unread : ν} (there : unread ∈ names) (unasked : readable unread = false) :
    ∃ failed, walk readable files (names.map fun name => .step (.down name)) path seen =
      .error failed := by
  induction names generalizing path with
  | nil => cases there
  | cons name rest ih =>
    have whole : path ++ name :: rest = path ++ [name] ++ rest := by simp
    rw [whole] at plain
    rw [List.map_cons]
    by_cases asked : readable name = true
    · rw [walk_down asked (plain _ (List.prefix_append _ rest))]
      rcases List.mem_cons.mp there with rfl | later
      · rw [unasked] at asked
        cases asked
      · exact ih plain later
    · rw [walk, if_neg asked]
      exact ⟨_, rfl⟩

end BackendFoundation.SymbolicLinks
