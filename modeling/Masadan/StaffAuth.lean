import Masadan.StaffAdmin

/-!
# Who is asking

`src/lib/staffAuth.ts`: a member of staff is known by a signed token, and the token is
good for as long as the account still exists, is active, and is on the token version
the token was cut at. The account is looked up in the database, and what was found is
remembered for a while.

A token is given here as what its signature vouches for; a cookie that is missing,
forged or expired is none.
-/

namespace Masadan

/-- `ACCOUNT_CACHE_MS`: half a minute. -/
def ACCOUNT_CACHE_MS : ℤ := 30000

/-- What a token says, as far as it is read. -/
structure TokenClaims where
  sub : Option Id
  venueId : Id
  ver : Option ℤ
  deriving DecidableEq, Repr

/-- What an account is found to be; when it was checked is nobody else's business. -/
structure Account where
  active : Bool
  tokenVersion : ℤ
  role : Role
  name : Text
  deriving DecidableEq, Repr

/-- The columns that are read of an account. -/
def StaffUser.account (u : StaffUser) : Account := ⟨u.active, u.tokenVersion, u.role, u.name⟩

def AccountState.account (s : AccountState) : Account := ⟨s.active, s.tokenVersion, s.role, s.name⟩

/-- What is remembered of an account. -/
def Account.checked (a : Account) (checkedAt : Time) : AccountState :=
  ⟨checkedAt, a.active, a.tokenVersion, a.role, a.name⟩

/-- What is remembered, if it may still be used. -/
def World.cachedAccount (w : World) (staffId : Id) : Option AccountState :=
  (w.accountCache staffId).filter (fun s => decide (w.now - s.checkedAt < ACCOUNT_CACHE_MS))

/-- **The state of an account**, remembered or read. -/
def accountState (staffId : Id) : Api (Option Account) := do
  let cached ← query (fun w => w.cachedAccount staffId)
  match cached with
  | some state => return some state.account
  | none =>
    let user ← query (fun w => w.staffUsers.get? staffId)
    match user with
    | none =>
      perform (.accountCacheDelete staffId)
      return none
    | some user =>
      perform (.accountCacheSet staffId user.account.checked)
      return some user.account

/-- What a token is good for: the claims of staff, with the role and the version. -/
structure SignedIn extends StaffClaims where
  role : Role
  ver : ℤ
  deriving DecidableEq, Repr

/-- **The member of staff who is asking.** -/
def getStaff (token : Option TokenClaims) : Api (Option SignedIn) := do
  match token with
  | none => return none
  | some claims =>
    match claims.sub with
    | none => return none
    | some sub =>
      let found ← accountState sub
      match found with
      | none => return none
      | some account =>
        if !account.active then return none
        else if claims.ver.getD (-1) ≠ account.tokenVersion then return none
        else return some ⟨⟨sub, claims.venueId, account.name⟩, account.role, account.tokenVersion⟩

end Masadan
