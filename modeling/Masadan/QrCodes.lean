import Masadan.DeskOrders
import Masadan.RateLimit
import Masadan.Utf8

/-!
# Table codes

`src/lib/qr.ts`, `src/app/scan/[code]/route.ts`, `src/app/api/admin/tables/route.ts`,
`src/app/api/admin/tables/[id]/route.ts` and `rotateQrSecret` of `src/lib/venueSettings.ts`:
a new table has a code of its own, the code on a table is signed under the venue's secret for
the table's current version, a scan that checks out mints a session, and a reset counts the
version up and revokes the sessions there are.

`hmac` is SHA-256 under a key, in base64url: of the secret and the message.
-/

namespace Masadan

/-! ## Signatures -/

/-- The keyed hash: secret, message, digest. -/
abbrev Hmac := Text → Text → Text

/-- What is signed: the table's code and its version. -/
def qrMessage (tableCode : Text) (qrVersion : ℕ) : Text :=
  tableCode ++ text ":" ++ text (Nat.repr qrVersion)

def signTableQr (hmac : Hmac) (qrSecret tableCode : Text) (qrVersion : ℕ) : Text :=
  (hmac qrSecret (qrMessage tableCode qrVersion)).slice 24

/-- The bytes are compared (`verifyTableQrBytes`); a digest has no character of two, so the
texts may be. -/
def verifyTableQr (hmac : Hmac) (qrSecret tableCode : Text) (qrVersion : ℕ) (sig : Text) : Bool :=
  sig == signTableQr hmac qrSecret tableCode qrVersion

/-- `ERR_CRYPTO_TIMING_SAFE_EQUAL_LENGTH`. -/
inductive LengthError where
  | bytes (a b : ℕ)
  deriving DecidableEq, Repr

/-- `timingSafeEqual`: it throws on buffers of different lengths. -/
def timingSafeEqual (a b : List UInt8) : Except LengthError Bool :=
  if a.length ≠ b.length then .error (.bytes a.length b.length) else .ok (a == b)

/-- `verifyTableQr`, as it compares. -/
def verifyTableQrBytes (hmac : Hmac) (qrSecret tableCode : Text) (qrVersion : ℕ) (sig : Text) :
    Except LengthError Bool :=
  let expected := Utf8.utf8 (signTableQr hmac qrSecret tableCode qrVersion)
  let actual := Utf8.utf8 sig
  if actual.length ≠ expected.length then .ok false else timingSafeEqual actual expected

/-! ## The scan -/

/-- Failed scans per address and window. -/
def FAIL_LIMIT : ℕ := 20
def FAIL_WINDOW_SEC : ℤ := 10 * 60

/-- Successful scans per address and window. -/
def OK_LIMIT : ℕ := 300
def OK_WINDOW_SEC : ℤ := 10 * 60

/-- Failed scans of all addresses. -/
def GLOBAL_FAIL_LIMIT : ℕ := 200

/-- The address a scan is counted under. -/
def Caller.address (caller : Caller) : Text :=
  if caller.ip = [] then text "unknown" else caller.ip

/-- Before the table is looked up: `none` is to go on, `some log` is the wall, and
whether the flood is put on record. -/
def failGate (ip : Text) (now : Time) (windows : Windows) : Windows × Option Bool :=
  let fail := rateLimit (text "scan:fail:" ++ ip) FAIL_LIMIT FAIL_WINDOW_SEC now windows
  if fail.2.allowed then (fail.1, none)
  else
    let log := rateLimit (text "scan:faillog:" ++ ip) 1 FAIL_WINDOW_SEC now fail.1
    (log.1, some log.2.allowed)

/-- A valid signature refunds the failure budget, and counts as a success. -/
def okGate (ip : Text) (now : Time) (windows : Windows) : Windows × Bool :=
  let ok := rateLimit (text "scan:ok:" ++ ip) OK_LIMIT OK_WINDOW_SEC now
    (clearRateLimit (text "scan:fail:" ++ ip) windows)
  (ok.1, ok.2.allowed)

/-- A row for a failure, while there is budget for one. -/
def logFailure (caller : Caller) (outcome : AttemptOutcome) (extra : AttemptInfo) : Api Unit := do
  let counted : RateLimitResult ← perform
    (.limiter (rateLimit (text "scan:fail:all") GLOBAL_FAIL_LIMIT FAIL_WINDOW_SEC))
  if counted.allowed then logAttempt caller outcome extra else return ()

/-- A table by its code, with its venue. -/
def World.tableByCode (w : World) (code : Text) : Option (Id × Table × Venue) :=
  match w.tables.find? (fun _ t => t.code == code) with
  | none => none
  | some (id, t) => (w.venues.get? t.venueId).map (fun v => (id, t, v))

/-- Where a scan is sent to. -/
inductive ScanAnswer where
  /-- `/t/{code}?err=invalid`. -/
  | wall
  /-- `/t/{code}`, with the session's token in a cookie. -/
  | menu (token : ℕ)
  deriving DecidableEq, Repr

/-- **`GET /scan/[code]`.** `token` is the random token drawn for the session. -/
def getScan (hmac : Hmac) (caller : Caller) (code sig : Text) (token : ℕ) : Api ScanAnswer := do
  let ip := caller.address
  let gate : Option Bool ← perform (.limiter (failGate ip))
  match gate with
  | some log =>
    if log then
      logAttempt caller .rate_limited { detail := text "scan flood from " ++ ip }
      return .wall
    else return .wall
  | none =>
    let found ← query (fun w => w.tableByCode code)
    match found with
    | none =>
      logFailure caller .table_inactive { detail := code }
      return .wall
    | some (id, table, venue) =>
      let base : AttemptInfo := { tableId := some id, venueId := some table.venueId }
      if !table.active then
        logFailure caller .table_inactive { base with detail := code }
        return .wall
      else if !verifyTableQr hmac venue.qrSecret table.code table.qrVersion sig then
        logFailure caller .invalid_qr base
        return .wall
      else
        let ok : Bool ← perform (.limiter (okGate ip))
        if !ok then
          logAttempt caller .rate_limited { base with detail := text "scan cap" }
          return .wall
        else
          let minted ← mintSession id table.venueId token
          logAttempt caller .scan_ok base
          return .menu minted

/-! ## New tables -/

inductive NewTableAnswer where
  | unauthorized
  | name_required
  | ok (id : Id)
  deriving DecidableEq, Repr

/-- **`POST /api/admin/tables`.** `name` is none where the body has none to speak of, and
`code` is the random text drawn for the table. -/
def createTable (staff : Option StaffClaims) (name : Option Text) (code : Text) :
    Api NewTableAnswer := do
  match staff with
  | none => return .unauthorized
  | some staff =>
    match name with
    | none => return .name_required
    | some name =>
      let id : Id ← perform (.tableCreate ⟨staff.venueId, name, code⟩)
      return .ok id

/-! ## Resets -/

/-- The body of the `PATCH` on a table. -/
structure TablePatch where
  regenerateQr : Bool
  name : Option Text
  active : Option Bool

inductive TableAnswer where
  | unauthorized
  | not_found
  | ok
  deriving DecidableEq, Repr

/-- The table's sessions that are not revoked. -/
def World.sessionsOfTable (w : World) (tableId : Id) : List Id :=
  (w.tableSessions.filter (fun _ s => s.tableId == tableId && s.revokedAt.isNone)).map Prod.fst

/-- The venue's. -/
def World.sessionsOfVenue (w : World) (venueId : Id) : List Id :=
  (w.tableSessions.filter (fun _ s => s.venueId == venueId && s.revokedAt.isNone)).map Prod.fst

/-- The columns of a table the `PATCH` writes. -/
def TablePatch.apply (body : TablePatch) (t : Table) : Table :=
  { t with name := body.name.getD t.name, active := body.active.getD t.active }

/-- **`PATCH /api/admin/tables/[id]`.** The sessions a regeneration revokes are those
its second statement finds; they are revoked when it commits. -/
def patchTable (staff : Option StaffClaims) (id : Id) (body : TablePatch) : Api TableAnswer := do
  match staff with
  | none => return .unauthorized
  | some staff =>
    let found ← query (fun w => (w.tables.get? id).filter (fun t => t.venueId == staff.venueId))
    match found with
    | none => return .not_found
    | some _ =>
      if body.regenerateQr then
        let sessions ← query (fun w => w.sessionsOfTable id)
        let _ ← perform (.regenerateTransaction id sessions)
        return .ok
      else
        let _ ← perform (.tableUpdate id body.apply)
        return .ok

/-- **Rotates the secret** every code of the venue is signed under. `secret` is the
random text drawn for it. -/
def rotateQrSecret (venueId : Id) (secret : Text) : Api ℕ := do
  let sessions ← query (fun w => w.sessionsOfVenue venueId)
  perform (.rotateTransaction venueId secret sessions)

end Masadan
