import BackendFoundation.PythonValues

/-! What the refresh tokens of the service are for. A login starts a family of
tokens. The newest token of a live family can be exchanged for one that is then
the newest; a token shown after its exchange ends its family, and so does a
logout with the newest. Nothing here knows of tables, statements or hashes. -/
namespace BackendFoundation.TokenFamilies
open PythonValues

structure Account where
  id : UUID
  email : Str
  password : Str
  disabled : Bool

/-- An issued refresh token. -/
structure Token where
  id : UUID
  text : Str
  expiresAt : DateTime

/-- The tokens of one login: those already exchanged, in their order, and the
newest. A dead family exchanges no more. -/
structure Family where
  id : UUID
  owner : UUID
  spent : List Token
  newest : Token
  dead : Bool

/-- A string that is shown, and the id of the token it verifies as, if it does. -/
structure Shown where
  text : Str
  names : Option UUID

/-- The string is this token, and it verifies. -/
def Shown.is (shown : Shown) (token : Token) : Bool :=
  shown.names == some token.id && shown.text == token.text

namespace Family

def issued (family : Family) : List Token := family.spent ++ [family.newest]

/-- The string is a token that the family has already exchanged. -/
def spends (family : Family) (shown : Shown) : Bool := family.spent.any shown.is

/-- The string is the family's newest token, and it can be exchanged. -/
def exchanges (family : Family) (shown : Shown) (now : DateTime) : Bool :=
  shown.is family.newest && !family.dead && now ≤ family.newest.expiresAt

def kill (family : Family) : Family := { family with dead := true }

def extend (token : Token) (family : Family) : Family :=
  { family with spent := family.spent ++ [family.newest], newest := token }

end Family

/-- How a request ends. -/
inductive Outcome where
  | done
  | issued (token : Token)
  | conflict
  | invalidCredentials
  | reuseDetected
  | failed

structure Machine where
  accounts : List Account
  families : List Family

/-- A request with what decides it, or an administrator's change. An account may
be kept under an email cut short from the one asked for. A `refused` request
carries a text that the database does not take. -/
inductive Event where
  | register (asked : Str) (account : Account)
  | login (email password : Str) (familyId : UUID) (token : Token)
  | refresh (shown : Shown) (now : DateTime) (successor : Token)
  | logout (shown : Shown)
  | refused
  | setDisabled (userId : UUID) (disabled : Bool)

namespace Machine

def init : Machine := ⟨[], []⟩

variable (machine : Machine)

def account? (email : Str) : Option Account := machine.accounts.find? (·.email == email)

/-- The user exists and is not disabled. -/
def enabled (userId : UUID) : Bool :=
  machine.accounts.any fun account => account.id == userId && !account.disabled

/-- Change the families that meet a condition. -/
def update (affected : Family → Bool) (change : Family → Family) : Machine :=
  { machine with
    families := machine.families.map fun family => if affected family then change family else family }

/-- Only the email asked for can be a conflict. An account without an email is
kept, but its request fails. -/
def register (asked : Str) (account : Account) : Machine × Outcome :=
  if (machine.account? asked).isSome then (machine, .conflict)
  else if (machine.account? account.email).isSome then (machine, .failed)
  else ({ machine with accounts := machine.accounts ++ [account] },
    if account.email = [] then .failed else .done)

def login (email password : Str) (familyId : UUID) (token : Token) : Machine × Outcome :=
  match machine.account? email with
  | none => (machine, .invalidCredentials)
  | some account =>
    if account.disabled || account.password != password then (machine, .invalidCredentials)
    else ({ machine with
      families := machine.families ++ [⟨familyId, account.id, [], token, false⟩] }, .issued token)

def refresh (shown : Shown) (now : DateTime) (successor : Token) : Machine × Outcome :=
  if machine.families.any (·.spends shown) then
    (machine.update (·.spends shown) Family.kill, .reuseDetected)
  else if machine.families.any fun family =>
      family.exchanges shown now && machine.enabled family.owner then
    (machine.update (shown.is ·.newest) (Family.extend successor), .issued successor)
  else (machine, .invalidCredentials)

/-- A logout goes by the token that the string verifies as. -/
def logout (shown : Shown) : Machine × Outcome :=
  (machine.update (fun family => shown.names == some family.newest.id) Family.kill, .done)

def setDisabled (userId : UUID) (disabled : Bool) : Machine :=
  { machine with
    accounts := machine.accounts.map fun account =>
      if account.id == userId then { account with disabled } else account }

def step : Event → Machine × Outcome
  | .register asked account => machine.register asked account
  | .login email password familyId token => machine.login email password familyId token
  | .refresh shown now successor => machine.refresh shown now successor
  | .logout shown => machine.logout shown
  | .refused => (machine, .failed)
  | .setDisabled userId disabled => (machine.setDisabled userId disabled, .done)

end Machine

/-- The state after each event, with the event's outcome. -/
def history (machine : Machine) : List Event → List (Machine × Outcome)
  | [] => []
  | event :: rest => machine.step event :: history (machine.step event).1 rest

section Refusals

variable {machine : Machine} {shown : Shown} {now : DateTime} {successor : Token}

/-- A string that is neither a spent token nor one that can be exchanged changes
nothing. -/
theorem refresh_refused (unspent : ∀ family ∈ machine.families, family.spends shown = false)
    (closed : ∀ family ∈ machine.families,
      (family.exchanges shown now && machine.enabled family.owner) = false) :
    machine.refresh shown now successor = (machine, .invalidCredentials) := by
  unfold Machine.refresh
  rw [if_neg, if_neg]
  · simpa using closed
  · simpa using unspent

theorem refresh_reused {family : Family} (member : family ∈ machine.families)
    (spends : family.spends shown = true) : machine.refresh shown now successor =
      (machine.update (·.spends shown) Family.kill, .reuseDetected) := by
  unfold Machine.refresh
  rw [if_pos]
  exact List.any_eq_true.mpr ⟨family, member, spends⟩

theorem refresh_exchanged (unspent : ∀ family ∈ machine.families, family.spends shown = false)
    {family : Family} (member : family ∈ machine.families)
    (exchanges : family.exchanges shown now = true) (enabled : machine.enabled family.owner = true) :
    machine.refresh shown now successor =
      (machine.update (shown.is ·.newest) (Family.extend successor), .issued successor) := by
  unfold Machine.refresh
  rw [if_neg, if_pos]
  · exact List.any_eq_true.mpr ⟨family, member, by rw [exchanges, enabled]; rfl⟩
  · simpa using unspent

end Refusals

end BackendFoundation.TokenFamilies
