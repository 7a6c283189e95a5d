import Masadan.Visit

/-!
# Table sessions

`src/lib/tableSession.ts`: what a phone's cookie stands for, and how a scan
mints one; and the abuse ledger's `logAttempt`, which every customer route
writes through.
-/

namespace Masadan

/-- `HARD_CAP_MS`: two hours. -/
def HARD_CAP_MS : ℤ := 2 * 60 * 60 * 1000

/-- `IDLE_MS`: thirty minutes. -/
def IDLE_MS : ℤ := 30 * 60 * 1000

/-- A table of friends may each scan. -/
def MAX_ACTIVE_PER_TABLE : ℕ := 6

/-- How stale `lastSeenAt` may be before a request refreshes it. -/
def TOUCH_INTERVAL_MS : ℤ := 60 * 1000

/-- A session a request was validated against. -/
structure ActiveSession where
  id : Id
  venueId : Id
  tableId : Id
  tableCode : Text
  tableName : Text
  /-- The party this phone belongs to. -/
  visitId : Option Id
  deriving DecidableEq, Repr

/-- A session by its token, with its table. -/
def World.sessionByToken (w : World) (token : ℕ) : Option (Id × TableSession × Table) :=
  match w.tableSessions.find? (fun _ s => s.token == token) with
  | none => none
  | some (id, s) => (w.tables.get? s.tableId).map (fun t => (id, s, t))

/-- **Validates the session cookie** and slides the inactivity window.
`expected` is `expectedTableCode`. -/
def getActiveSession (cookie : Option ℕ) (expected : Option Text) : Api (Option ActiveSession) := do
  match cookie with
  | none => return none
  | some token =>
    let found ← query (fun w => w.sessionByToken token)
    match found with
    | none => return none
    | some (id, session, table) =>
      if session.revokedAt.isSome then return none
      else
        let now ← query (fun w => w.now)
        if session.expiresAt < now then return none
        else if session.lastSeenAt + IDLE_MS < now then return none
        else if expected.any (fun code => code != table.code) then return none
        else if !table.active then return none
        else
          let active : ActiveSession :=
            ⟨id, session.venueId, session.tableId, table.code, table.name, session.visitId⟩
          -- the write is skipped while the stamp is fresh
          if session.lastSeenAt + TOUCH_INTERVAL_MS ≤ now then
            let _ ← perform (.tableSessionUpdate id (fun now s => { s with lastSeenAt := now }))
            return some active
          else return some active

/-- The table's sessions that are neither revoked nor expired. -/
def World.activeSessions (w : World) (tableId : Id) : List (Id × TableSession) :=
  w.tableSessions.filter (fun _ s =>
    s.tableId == tableId && s.revokedAt.isNone && decide (s.expiresAt > w.now))

/-- **A scan mints a session**, and displaces the oldest beyond the per-table
cap. `token` is the random token drawn for it. -/
def mintSession (tableId venueId token : Id) : Api ℕ := do
  let visitId ← openOrJoinVisit tableId venueId
  let _ ← perform (.tableSessionCreate ⟨tableId, venueId, token, visitId, HARD_CAP_MS⟩)
  let active ← query (fun w => orderByDesc (fun s => s.2.createdAt) (w.activeSessions tableId))
  if active.length > MAX_ACTIVE_PER_TABLE then
    let stale := (active.drop MAX_ACTIVE_PER_TABLE).map Prod.fst
    let _ ← perform (.tableSessionUpdateMany (fun id _ => stale.contains id) revoke)
    return token
  else return token

/-! ## The abuse ledger -/

/-- Who sent a request: `clientIp(req)` and the user agent. -/
structure Caller where
  ip : Text
  userAgent : Text

/-- What a ledger row says beyond its outcome. -/
structure AttemptInfo where
  venueId : Option Id := none
  tableId : Option Id := none
  sessionId : Option Id := none
  orderId : Option Id := none
  detail : Text := []

/-- The ids a session puts into a ledger row. -/
def ActiveSession.base (s : ActiveSession) : AttemptInfo :=
  { venueId := some s.venueId, tableId := some s.tableId, sessionId := some s.id }

/-- Write a row of the abuse ledger; a failure to is swallowed. -/
def logAttempt (caller : Caller) (outcome : AttemptOutcome) (extra : AttemptInfo) : Api Unit := do
  let _ ← (perform (.orderAttemptCreate ⟨outcome, caller.ip, caller.userAgent, extra.detail,
    extra.venueId, extra.tableId, extra.sessionId, extra.orderId⟩)).attempt
  return ()

end Masadan
