import Mathlib.Data.List.Infix
import Mathlib.Logic.Function.Basic

/-! Directories and files under names, and the calls by which programs change them. A
call finds its way through the directories on its path and fails with the reason for
which a kernel fails it. There are no links. -/
namespace BackendFoundation.FileTrees

inductive Tree (ν γ : Type) where
  | file (content : γ)
  | dir (entries : ν → Option (Tree ν γ))

/-- What there is at a place, if anything. -/
abbrev Node (ν γ : Type) := Option (Tree ν γ)

inductive Errno where
  | noEntry
  | notDirectory
  | exists
  | isDirectory
  deriving DecidableEq

variable {ν γ : Type}

namespace Node

/-- What there is at the end of a path. -/
def lookup : Node ν γ → List ν → Except Errno (Tree ν γ)
  | none, _ => .error .noEntry
  | some tree, [] => .ok tree
  | some (.file _), _ :: _ => .error .notDirectory
  | some (.dir entries), name :: rest => lookup (entries name) rest

def isDir (node : Node ν γ) (path : List ν) : Bool :=
  match node.lookup path with
  | .ok (.dir _) => true
  | _ => false

/-- Reads the file at the end of a path. -/
def read (node : Node ν γ) (path : List ν) : Except Errno γ :=
  match node.lookup path with
  | .ok (.file content) => .ok content
  | .ok (.dir _) => .error .isDirectory
  | .error errno => .error errno

variable [DecidableEq ν]

/-- Changes what there is at the end of a path. -/
def alter (change : Node ν γ → Except Errno (Node ν γ)) : Node ν γ → List ν →
    Except Errno (Node ν γ)
  | node, [] => change node
  | none, _ :: _ => .error .noEntry
  | some (.file _), _ :: _ => .error .notDirectory
  | some (.dir entries), name :: rest =>
    match alter change (entries name) rest with
    | .error errno => .error errno
    | .ok child => .ok (some (.dir (Function.update entries name child)))

def mkdir : Node ν γ → List ν → Except Errno (Node ν γ) :=
  alter fun
    | none => .ok (some (.dir fun _ => none))
    | some _ => .error .exists

def write (content : γ) : Node ν γ → List ν → Except Errno (Node ν γ) :=
  alter fun
    | some (.dir _) => .error .isDirectory
    | _ => .ok (some (.file content))

def unlink : Node ν γ → List ν → Except Errno (Node ν γ) :=
  alter fun
    | none => .error .noEntry
    | some (.file _) => .ok none
    | some (.dir _) => .error .isDirectory

/-- What has been written is there. -/
theorem lookup_write {content : γ} {node later : Node ν γ} {path : List ν}
    (written : node.write content path = .ok later) : later.lookup path = .ok (.file content) := by
  unfold write at written
  induction path generalizing node later with
  | nil =>
    unfold alter at written
    cases node with
    | none =>
      cases written
      rfl
    | some tree =>
      cases tree with
      | file old =>
        cases written
        rfl
      | dir entries => cases written
  | cons name rest ih =>
    cases node with
    | none => cases written
    | some tree =>
      cases tree with
      | file old => cases written
      | dir entries =>
        unfold alter at written
        split at written
        · cases written
        · rename_i child altered
          cases written
          simp only [lookup, Function.update_self]
          exact ih altered

/-! ## What a call leaves elsewhere -/

/-- What there is at a path to which directories lead. -/
def slot : Node ν γ → List ν → Except Errno (Node ν γ)
  | node, [] => .ok node
  | none, _ :: _ => .error .noEntry
  | some (.file _), _ :: _ => .error .notDirectory
  | some (.dir entries), name :: rest => slot (entries name) rest

section Slots

variable {node later old : Node ν γ} {path rest other : List ν} {errno : Errno} {content : γ}
  {change : Node ν γ → Except Errno (Node ν γ)}

omit [DecidableEq ν] in
theorem lookup_append (found : node.slot path = .ok old) :
    node.lookup (path ++ rest) = old.lookup rest := by
  induction path generalizing node with
  | nil =>
    cases found
    rfl
  | cons name path ih =>
    cases node with
    | none => cases found
    | some tree =>
      cases tree with
      | file content => cases found
      | dir entries => exact ih found

omit [DecidableEq ν] in
theorem lookup_slot (found : node.slot path = .ok old) : node.lookup path = old.lookup [] := by
  rw [← lookup_append found, List.append_nil]

omit [DecidableEq ν] in
theorem lookup_slot_error (failed : node.slot path = .error errno) :
    node.lookup path = .error errno := by
  induction path generalizing node with
  | nil => cases failed
  | cons name path ih =>
    cases node with
    | none =>
      cases failed
      rfl
    | some tree =>
      cases tree with
      | file content =>
        cases failed
        rfl
      | dir entries => exact ih failed

omit [DecidableEq ν] in
/-- A path fails where there is nothing, or at a file. -/
theorem slot_error (failed : node.slot path = .error errno) :
    errno = .noEntry ∨ ∃ above content, above <+: path ∧ above ≠ path ∧
      node.lookup above = .ok (.file content) := by
  induction path generalizing node with
  | nil => cases failed
  | cons name path ih =>
    cases node with
    | none =>
      cases failed
      exact .inl rfl
    | some tree =>
      cases tree with
      | file content => exact .inr ⟨[], content, List.nil_prefix, (List.cons_ne_nil name path).symm, rfl⟩
      | dir entries =>
        rcases ih failed with missing | ⟨above, content, below, apart, there⟩
        · exact .inl missing
        · refine .inr ⟨name :: above, content, ?_, ?_, there⟩
          · exact (List.prefix_cons_inj name).mpr below
          · simpa using apart

omit [DecidableEq ν] in
/-- In a directory every name has its place. -/
theorem slot_below {name : ν} (dir : node.isDir path = true) :
    ∃ old, node.slot (path ++ [name]) = .ok old := by
  induction path generalizing node with
  | nil =>
    cases node with
    | none => cases dir
    | some tree =>
      cases tree with
      | file content => cases dir
      | dir entries => exact ⟨entries name, rfl⟩
  | cons first path ih =>
    cases node with
    | none => cases dir
    | some tree =>
      cases tree with
      | file content => cases dir
      | dir entries => exact ih dir

theorem alter_error (failed : node.alter change path = .error errno) :
    node.slot path = .error errno ∨ ∃ old, node.slot path = .ok old ∧ change old = .error errno := by
  induction path generalizing node with
  | nil => exact .inr ⟨node, rfl, by simpa [alter] using failed⟩
  | cons name path ih =>
    cases node with
    | none => exact .inl failed
    | some tree =>
      cases tree with
      | file content => exact .inl failed
      | dir entries =>
        unfold alter at failed
        split at failed
        · rename_i raised
          cases failed
          exact ih raised
        · cases failed

/-- A change of what is at a path, as seen from the path. -/
theorem alter_slot (altered : node.alter change path = .ok later) :
    ∃ old new, node.slot path = .ok old ∧ change old = .ok new ∧ later.slot path = .ok new := by
  induction path generalizing node later with
  | nil => exact ⟨node, later, rfl, by simpa [alter] using altered, rfl⟩
  | cons name path ih =>
    cases node with
    | none => cases altered
    | some tree =>
      cases tree with
      | file content => cases altered
      | dir entries =>
        unfold alter at altered
        split at altered
        · cases altered
        · rename_i child inside
          cases altered
          obtain ⟨old, new, found, changed, left⟩ := ih inside
          refine ⟨old, new, found, changed, ?_⟩
          simpa [slot] using left

/-- And as seen from any path that does not lead through it. -/
theorem alter_elsewhere (altered : node.alter change path = .ok later) (apart : ¬ path <+: other) :
    later.isDir other = node.isDir other ∧ ∀ content,
      later.lookup other = .ok (.file content) ↔ node.lookup other = .ok (.file content) := by
  induction path generalizing node later other with
  | nil => exact absurd List.nil_prefix apart
  | cons name path ih =>
    cases node with
    | none => cases altered
    | some tree =>
      cases tree with
      | file content => cases altered
      | dir entries =>
        unfold alter at altered
        split at altered
        · cases altered
        · rename_i child inside
          cases altered
          cases other with
          | nil => simp [isDir, lookup]
          | cons next other =>
            by_cases same : next = name
            · subst same
              have below : ¬ path <+: other := fun under =>
                apart ((List.prefix_cons_inj next).mpr under)
              simpa [isDir, lookup] using ih inside below
            · simp [isDir, lookup, Function.update_of_ne same]

/-- A new directory is one more directory. -/
theorem mkdir_effect (made : node.mkdir path = .ok later) (other : List ν) :
    (later.isDir other = true ↔ node.isDir other = true ∨ other = path) ∧
      ∀ content, later.lookup other = .ok (.file content) ↔
        node.lookup other = .ok (.file content) := by
  by_cases below : path <+: other
  · obtain ⟨rest, rfl⟩ := below
    obtain ⟨old, new, found, changed, left⟩ := alter_slot made
    cases old with
    | some tree => cases changed
    | none =>
      cases changed
      unfold isDir
      rw [lookup_append found, lookup_append left]
      cases rest with
      | nil => simp [lookup]
      | cons name rest => simp [lookup]
  · have apart : other ≠ path := fun same => below (same ▸ List.prefix_rfl)
    have kept := alter_elsewhere made below
    rw [kept.1]
    exact ⟨by simp [apart], kept.2⟩

/-- A new file is the only difference. -/
theorem write_effect (written : node.write content path = .ok later) (other : List ν) :
    later.isDir other = node.isDir other ∧ (other ≠ path → ∀ found,
      later.lookup other = .ok (.file found) ↔ node.lookup other = .ok (.file found)) := by
  by_cases below : path <+: other
  · obtain ⟨rest, rfl⟩ := below
    obtain ⟨old, new, found, changed, left⟩ := alter_slot written
    unfold isDir
    rw [lookup_append found, lookup_append left]
    cases old with
    | none =>
      cases changed
      cases rest with
      | nil => simp [lookup]
      | cons name rest => simp [lookup]
    | some tree =>
      cases tree with
      | dir entries => cases changed
      | file former =>
        cases changed
        cases rest with
        | nil => simp [lookup]
        | cons name rest => simp [lookup]
  · have kept := alter_elsewhere written below
    exact ⟨kept.1, fun _ => kept.2⟩

/-- A removed file was the only difference. -/
theorem unlink_effect (removed : node.unlink path = .ok later) (other : List ν) :
    later.isDir other = node.isDir other ∧
      (∀ found, later.lookup path ≠ .ok (.file found)) ∧
      (other ≠ path → ∀ found,
        later.lookup other = .ok (.file found) ↔ node.lookup other = .ok (.file found)) := by
  obtain ⟨old, new, found, changed, left⟩ := alter_slot removed
  cases old with
  | none => cases changed
  | some tree =>
    cases tree with
    | dir entries => cases changed
    | file former =>
      cases changed
      have gone : ∀ found, later.lookup path ≠ .ok (.file found) := by
        intro content
        rw [lookup_slot left]
        simp [lookup]
      by_cases below : path <+: other
      · obtain ⟨rest, rfl⟩ := below
        unfold isDir
        rw [lookup_append found, lookup_append left]
        cases rest with
        | nil => exact ⟨rfl, gone, by simp⟩
        | cons name rest => exact ⟨rfl, gone, by simp [lookup]⟩
      · have kept := alter_elsewhere removed below
        exact ⟨kept.1, gone, fun _ => kept.2⟩

end Slots

end Node

end BackendFoundation.FileTrees
