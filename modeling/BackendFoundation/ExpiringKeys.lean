import Mathlib.Data.Nat.Notation
import Mathlib.Logic.Function.Basic

/-! Keys with a time to live, as a server of single commands keeps them. A key
whose time has passed is not there for any command, whether or not the server has
removed it yet. -/
namespace BackendFoundation.ExpiringKeys

/-- What is kept under a key, and the last moment at which it is there. -/
structure Entry (ν : Type) where
  value : ν
  expires : Option ℕ

abbrev Keyspace (κ ν : Type) := κ → Option (Entry ν)

/-- The options of SET: only if the key is missing, only if it exists, a time to
live, and keeping the one the key has. -/
structure SetOptions where
  nx : Bool := false
  xx : Bool := false
  ex : Option ℕ := none
  keepttl : Bool := false
  deriving DecidableEq

variable {κ ν : Type}

def Entry.alive (entry : Entry ν) (now : ℕ) : Bool := entry.expires.all (now ≤ ·)

namespace Keyspace

/-- The entry a command sees. -/
def live (keys : Keyspace κ ν) (now : ℕ) (key : κ) : Option (Entry ν) :=
  (keys key).filter (·.alive now)

theorem live_eq_some {keys : Keyspace κ ν} {now : ℕ} {key : κ} {entry : Entry ν} :
    keys.live now key = some entry ↔ keys key = some entry ∧ entry.alive now = true := by
  simp [live, Option.filter_eq_some_iff]

variable [DecidableEq κ]

/-- SET: whether the value was stored, and the keys then. -/
def set (keys : Keyspace κ ν) (now : ℕ) (key : κ) (value : ν) (options : SetOptions) :
    Bool × Keyspace κ ν :=
  if (options.nx && (keys.live now key).isSome) || (options.xx && (keys.live now key).isNone) then
    (false, keys)
  else
    let expires := if options.keepttl then (keys.live now key).bind Entry.expires
      else options.ex.map (now + ·)
    (true, Function.update keys key (some ⟨value, expires⟩))

variable {keys : Keyspace κ ν} {now : ℕ} {key : κ} {value : ν}

theorem live_update_self {kept : Option (Entry ν)} :
    live (Function.update keys key kept) now key = kept.filter (·.alive now) := by
  rw [live, Function.update_self]

theorem set_nx_refused {ttl : ℕ} {entry : Entry ν} (there : keys.live now key = some entry) :
    keys.set now key value { nx := true, ex := some ttl } = (false, keys) := by
  simp [set, there]

theorem set_nx_stored {ttl : ℕ} (missing : keys.live now key = none) :
    keys.set now key value { nx := true, ex := some ttl } =
      (true, Function.update keys key (some ⟨value, some (now + ttl)⟩)) := by
  simp [set, missing]

theorem set_xx_refused (missing : keys.live now key = none) :
    keys.set now key value { xx := true, keepttl := true } = (false, keys) := by
  simp [set, missing]

theorem set_xx_stored {entry : Entry ν} (there : keys.live now key = some entry) :
    keys.set now key value { xx := true, keepttl := true } =
      (true, Function.update keys key (some { entry with value })) := by
  simp [set, there]

end Keyspace

end BackendFoundation.ExpiringKeys
