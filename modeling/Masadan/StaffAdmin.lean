import Masadan.Server

/-!
# Staff accounts

`src/lib/staffAdmin.ts`: what a manager does on the admin screen. Accounts are
created, changed and deactivated, and everybody changes their own password. The
route handlers call in here once they have established who is asking.

The hash of passwords is a library's and is a parameter, `Bcrypt`. The salt it draws
is an argument of the call it is drawn in.
-/

namespace Masadan

def PASSWORD_MIN : ℕ := 8

/-! ## What the schemas admit -/

/-- `staffCreateSchema`. An address has no characters but ASCII ones; `zod` is the schema
library that has counted. -/
structure StaffCreate where
  email : Text
  name : Text
  role : Role
  password : Text
  zod : Zod
  emailAscii : ∀ u ∈ email, u < 128
  nameLength : 1 ≤ zod.length name ∧ zod.length name ≤ 80
  passwordLength : PASSWORD_MIN ≤ zod.length password

/-- `staffUpdateSchema`. -/
structure StaffUpdate where
  name : Option Text
  role : Option Role
  active : Option Bool
  password : Option Text
  signOutEverywhere : Option Bool
  zod : Zod
  nameLength : ∀ n, name = some n → 1 ≤ zod.length n ∧ zod.length n ≤ 80
  passwordLength : ∀ p, password = some p → PASSWORD_MIN ≤ zod.length p

/-- A name left out passes. -/
theorem StaffUpdate.no_name (zod : Zod) :
    ∀ n : Text, none = some n → 1 ≤ zod.length n ∧ zod.length n ≤ 80 := nofun

theorem StaffUpdate.no_password (zod : Zod) :
    ∀ p : Text, none = some p → PASSWORD_MIN ≤ zod.length p := nofun

/-- `passwordChangeSchema`. -/
structure PasswordChange where
  currentPassword : Text
  newPassword : Text
  zod : Zod
  currentLength : 1 ≤ zod.length currentPassword
  newLength : PASSWORD_MIN ≤ zod.length newPassword

inductive StaffError where
  | email_taken | not_found | last_admin | cannot_deactivate_self | cannot_demote_self
  | nothing_to_do | wrong_password
  deriving DecidableEq, Repr

/-- The password hash: `hash` under a salt, and `compare`. -/
structure Bcrypt where
  hash : ℕ → Text → Text
  compare : Text → Text → Bool

/-! ## The last admin -/

/-- An active admin of the venue. -/
def activeAdmin (venueId : Id) (u : StaffUser) : Bool :=
  u.venueId == venueId && u.role == .admin && u.active

/-- Active admins other than `exceptId`. -/
def World.otherActiveAdmins (w : World) (venueId exceptId : Id) : ℕ :=
  w.staffUsers.count (fun id u => activeAdmin venueId u && id != exceptId)

/-- **Whether an update takes an admin away.** -/
def losesAdmin (target : StaffUser) (input : StaffUpdate) : Bool :=
  target.role == .admin && target.active
    && (input.active == some false || input.role == some .desk)

/-! ## `createStaff` -/

def createStaff (bcrypt : Bcrypt) (venueId : Id) (input : StaffCreate) (salt : ℕ) :
    Api (Except StaffError Id) := do
  let email := input.email.toLowerCase.trim
  let user ← (perform (.staffUserCreate
    ⟨venueId, email, input.name.trim, input.role, bcrypt.hash salt input.password⟩)).attempt
  match user with
  | .ok id => return .ok id
  | .error (.p2002 _) => return .error .email_taken
  | .error e => throw' e

/-! ## `updateStaff` -/

/-- What anything that changes who an account is, or who may use it, does to the
tokens already issued to it. -/
def StaffUpdate.mustRevoke (input : StaffUpdate) : Bool :=
  input.signOutEverywhere == some true || input.active == some false
    || input.password.isSome || input.role.isSome

/-- The columns an update writes; `tokenVersion` says whether it counts up. -/
structure StaffData where
  name : Option Text
  role : Option Role
  active : Option Bool
  passwordHash : Option Text
  tokenVersion : Bool

def StaffUpdate.data (input : StaffUpdate) (hash : Text → Text) : StaffData where
  name := input.name.map Text.trim
  role := input.role
  active := input.active
  passwordHash := input.password.map hash
  tokenVersion := input.mustRevoke

/-- `Object.keys(data).length === 0`. -/
def StaffData.isEmpty (d : StaffData) : Bool :=
  d.name.isNone && d.role.isNone && d.active.isNone && d.passwordHash.isNone && !d.tokenVersion

def StaffData.write (d : StaffData) (u : StaffUser) : StaffUser :=
  { u with
    name := d.name.getD u.name
    role := d.role.getD u.role
    active := d.active.getD u.active
    passwordHash := d.passwordHash.getD u.passwordHash
    tokenVersion := if d.tokenVersion then u.tokenVersion + 1 else u.tokenVersion }

/-- `invalidateStaffCache`: drop the cached state of one account. -/
def invalidateStaffCache (staffId : Id) : Api Unit := perform (.accountCacheDelete staffId)

/-- An account of the venue. -/
def World.staffOf (w : World) (id venueId : Id) : Option StaffUser :=
  (w.staffUsers.get? id).filter (fun u => u.venueId == venueId)

/-- **An admin changes an account.** Nobody locks themselves out, and the last admin
stays. -/
def updateStaff (bcrypt : Bcrypt) (venueId targetId actorId : Id) (input : StaffUpdate)
    (salt : ℕ) : Api (Except StaffError Unit) := do
  let found ← query (fun w => w.staffOf targetId venueId)
  match found with
  | none => return .error .not_found
  | some target =>
    if targetId = actorId ∧ input.active = some false then return .error .cannot_deactivate_self
    else if targetId = actorId ∧ input.role = some .desk then return .error .cannot_demote_self
    else
      let last ← (if losesAdmin target input
        then (fun n : ℕ => n == 0) <$> query (fun w => w.otherActiveAdmins venueId targetId)
        else return false)
      if last then return .error .last_admin
      else if (input.data (bcrypt.hash salt)).isEmpty then return .error .nothing_to_do
      else
        let _ ← perform (.staffUserUpdate targetId (input.data (bcrypt.hash salt)).write)
        invalidateStaffCache targetId
        return .ok ()

/-! ## `changeOwnPassword` -/

/-- What a change of password writes. -/
def newPassword (passwordHash : Text) (u : StaffUser) : StaffUser :=
  { u with passwordHash := passwordHash, tokenVersion := u.tokenVersion + 1 }

/-- **Staff change their own password**; the current one is required. -/
def changeOwnPassword (bcrypt : Bcrypt) (staffId : Id) (input : PasswordChange) (salt : ℕ) :
    Api (Except StaffError Unit) := do
  let found ← query (fun w => w.staffUsers.get? staffId)
  match found with
  | none => return .error .not_found
  | some user =>
    if !bcrypt.compare input.currentPassword user.passwordHash then return .error .wrong_password
    else
      let _ ← perform (.staffUserUpdate staffId (newPassword (bcrypt.hash salt input.newPassword)))
      invalidateStaffCache staffId
      return .ok ()

end Masadan
