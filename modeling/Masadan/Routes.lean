import Masadan.Bridge
import Masadan.DeskBoard
import Masadan.Export
import Masadan.RateLimit
import Masadan.Reporting
import Masadan.Retention
import Masadan.SixPhones
import Masadan.StaffAuth

/-!
# The routes

The route handlers under `src/app/api`, whole: who is asking, the body, the work, the
answer. The work is in other modules; here is what the routes add to it. Staff routes begin
with `requireStaff`, which turns a token into a member of staff or nobody.

A body is given as what parsing left of it, `none` where the schema refuses it or there is
none to parse.
-/

namespace Masadan

/-! ## Who is asking -/

/-- **`requireStaff`**: the admin role implies desk access. -/
def requireStaff (role : Role) (token : Option TokenClaims) : Api (Option SignedIn) := do
  let staff ← getStaff token
  match staff with
  | none => return none
  | some staff =>
    if role = .admin ∧ staff.role ≠ .admin then return none
    else return some staff

/-! ## `GET /api/bill` -/

/-- The customer's view of the table's bill. -/
structure CustomerBill where
  status : VisitStatus
  billRequested : Bool
  totalKurus : ℤ
  lines : List BillLine
  yourTotalKurus : ℤ
  phoneCount : ℕ

inductive CustomerBillAnswer where
  | no_session
  | no_visit
  | ok (bill : CustomerBill)

/-- The HTTP status of an answer. -/
def CustomerBillAnswer.status : CustomerBillAnswer → ℕ
  | .no_session => 401
  | .no_visit => 409
  | .ok _ => 200

/-- What a phone is shown of a bill: its own share beside the table's total. -/
def Bill.forPhone (b : Bill) (sessionId : Id) : CustomerBill where
  status := b.status
  billRequested := b.billRequestedAt.isSome
  totalKurus := b.totalKurus
  lines := b.lines
  yourTotalKurus :=
    ((b.phones.find? (fun p => p.sessionId == sessionId)).map (fun p => p.totalKurus)).getD 0
  phoneCount := b.phones.length

def getBill (cookie : Option ℕ) : Api CustomerBillAnswer := do
  let session ← getActiveSession cookie none
  match session with
  | none => return .no_session
  | some session =>
    match session.visitId with
    | none => return .no_visit
    | some visitId =>
      let bill ← query (fun w => w.buildBill visitId)
      match bill with
      | none => return .no_visit
      | some bill => return .ok (bill.forPhone session.id)

/-! ## `/api/desk/bills` -/

inductive DeskBillsAnswer where
  | unauthorized
  | ok (bills : List DeskBill)
  deriving DecidableEq, Repr

/-- `GET /api/desk/bills`. -/
def getDeskBills (staff : Option StaffClaims) : Api DeskBillsAnswer := do
  match staff with
  | none => return .unauthorized
  | some staff =>
    let bills ← query (fun w => w.deskBills staff.venueId)
    return .ok bills

inductive DeskBillAnswer where
  | unauthorized
  | not_found
  | ok (bill : Bill)

/-- `GET /api/desk/bills/[id]`. -/
def getDeskBill (staff : Option StaffClaims) (id : Id) : Api DeskBillAnswer := do
  match staff with
  | none => return .unauthorized
  | some staff =>
    let visit ← query (fun w => w.visitOf id staff.venueId)
    match visit with
    | none => return .not_found
    | some _ =>
      let bill ← query (fun w => w.buildBill id)
      match bill with
      | none => return .not_found
      | some bill => return .ok bill

inductive DismissAnswer where
  | unauthorized
  | not_requested
  | ok
  deriving DecidableEq, Repr

/-- The HTTP status of an answer. -/
def DismissAnswer.status : DismissAnswer → ℕ
  | .unauthorized => 401
  | .not_requested => 409
  | .ok => 200

/-- `PATCH /api/desk/bills/[id]`: dismiss a bill request. -/
def dismissBill (staff : Option StaffClaims) (id : Id) : Api DismissAnswer := do
  match staff with
  | none => return .unauthorized
  | some staff =>
    let ok ← clearBillRequest id staff.venueId
    if !ok then return .not_requested else return .ok

/-- The body of a settlement, before the schema. -/
structure RawSettle where
  /-- `none` is no method at all. -/
  paymentMethod : Option PaymentMethod
  paidAmountKurus : Option ℤ
  force : Option Bool

/-- **A settlement `settleSchema` admits.** -/
structure SettleBody where
  paymentMethod : PaymentMethod
  paidAmountKurus : Option ℤ
  force : Option Bool
  nonneg : ∀ p, paidAmountKurus = some p → 0 ≤ p

/-- `settleSchema.safeParse`. -/
def settleSchema (raw : RawSettle) : Option SettleBody :=
  match raw.paymentMethod with
  | none => none
  | some paymentMethod =>
    if h : ∀ p, raw.paidAmountKurus = some p → 0 ≤ p then
      some ⟨paymentMethod, raw.paidAmountKurus, raw.force, h⟩
    else none

/-- What `settleVisit` is given; a `force` left out is false. -/
def SettleBody.input (b : SettleBody) (staffId : Id) : SettleInput where
  paymentMethod := b.paymentMethod
  paidAmountKurus := b.paidAmountKurus
  staffId := staffId
  force := b.force.getD false

inductive SettleBillAnswer where
  | unauthorized
  | invalid
  | refused (error : SettleError)
  | ok (totalKurus : ℤ)
  deriving DecidableEq, Repr

/-- The HTTP status of an answer. -/
def SettleBillAnswer.status : SettleBillAnswer → ℕ
  | .unauthorized => 401
  | .invalid => 400
  | .refused .not_found => 404
  | .refused _ => 409
  | .ok _ => 200

/-- `POST /api/desk/bills/[id]/settle`. -/
def settleBill (staff : Option StaffClaims) (id : Id) (body : Option RawSettle) :
    Api SettleBillAnswer := do
  match staff with
  | none => return .unauthorized
  | some staff =>
    match body.bind settleSchema with
    | none => return .invalid
    | some body =>
      let result ← settleVisit id staff.venueId (body.input staff.sub)
      match result with
      | .error e => return .refused e
      | .ok totalKurus => return .ok totalKurus

/-! ## `GET /api/admin/stats` -/

/-- `Math.round`. -/
def mathRound (x : ℚ) : ℤ := (x + mkRat 1 2).floor

/-- Percentage change, none where there is no baseline to compare against. -/
def percentChange (current previous : ℤ) : Option ℤ :=
  if previous = 0 then none
  else some (mathRound (JsNumber.nearest
    (JsNumber.nearest ((current - previous : ℤ) / (previous : ℚ)) * 100)))

/-- Today's figures beside those of the whole of yesterday, and the floor. -/
structure Stats where
  today : PeriodReport
  yesterday : PeriodReport
  openTables : OpenTablesSummary
  settledChange : Option ℤ
  ordersChange : Option ℤ
  deriving DecidableEq, Repr

inductive StatsAnswer where
  | unauthorized
  | ok (stats : Stats)
  deriving DecidableEq, Repr

/-- `offset` is how far local time is ahead; a day that no date reaches is a query that
fails. -/
def getStats (staff : Option StaffClaims) (offset : Time) : Api StatsAnswer := do
  match staff with
  | none => return .unauthorized
  | some staff =>
    let today ← query (fun w => dayBounds offset w.now 0)
    let yesterday ← query (fun w => dayBounds offset w.now 1)
    match today, yesterday with
    | some today, some yesterday =>
      let todayReport ← periodReport staff.venueId today.1 today.2
      let yesterdayReport ← periodReport staff.venueId yesterday.1 yesterday.2
      let floor ← query (fun w => w.openTables staff.venueId)
      return .ok ⟨todayReport, yesterdayReport, floor,
        percentChange todayReport.settledKurus yesterdayReport.settledKurus,
        percentChange todayReport.ordersPlaced yesterdayReport.ordersPlaced⟩
    | _, _ => throw' .failed

/-! ## `POST /api/admin/venue/qr-secret` -/

inductive RotateAnswer where
  | unauthorized
  | confirmation_required
  | ok (tablesAffected : ℕ)
  deriving DecidableEq, Repr

/-- `confirmed` says whether the body names the venue. -/
def postQrSecret (staff : Option StaffClaims) (confirmed : Bool) (secret : Text) :
    Api RotateAnswer := do
  match staff with
  | none => return .unauthorized
  | some staff =>
    if !confirmed then return .confirmation_required
    else
      let tablesAffected ← rotateQrSecret staff.venueId secret
      return .ok tablesAffected

/-! ## `/api/admin/staff` -/

inductive StaffRouteAnswer where
  | unauthorized
  | invalid
  | refused (error : StaffError)
  | created (id : Id)
  | ok
  deriving DecidableEq, Repr

/-- `POST /api/admin/staff`. `salt` is drawn for the hash. -/
def postStaff (bcrypt : Bcrypt) (staff : Option StaffClaims) (body : Option StaffCreate)
    (salt : ℕ) : Api StaffRouteAnswer := do
  match staff with
  | none => return .unauthorized
  | some staff =>
    match body with
    | none => return .invalid
    | some input =>
      let result ← createStaff bcrypt staff.venueId input salt
      match result with
      | .error e => return .refused e
      | .ok id => return .created id

/-- `PATCH /api/admin/staff/[id]`. -/
def patchStaff (bcrypt : Bcrypt) (staff : Option StaffClaims) (id : Id)
    (body : Option StaffUpdate) (salt : ℕ) : Api StaffRouteAnswer := do
  match staff with
  | none => return .unauthorized
  | some staff =>
    match body with
    | none => return .invalid
    | some input =>
      let result ← updateStaff bcrypt staff.venueId id staff.sub input salt
      match result with
      | .error e => return .refused e
      | .ok _ => return .ok

/-! ## `POST /api/auth/password` -/

inductive PasswordAnswer where
  | unauthorized
  | rate_limited (retryAfterSec : ℤ)
  | invalid
  | refused (error : StaffError)
  /-- The token this browser goes on with. -/
  | ok (claims : TokenClaims)

/-- The HTTP status of an answer. -/
def PasswordAnswer.status : PasswordAnswer → ℕ
  | .unauthorized => 401
  | .rate_limited _ => 429
  | .invalid => 400
  | .refused .wrong_password => 403
  | .refused _ => 404
  | .ok _ => 200

/-- The key the changes of one person from one address are counted under. -/
def passwordKey (sub : Id) (ip : Text) : Text :=
  text "pwchange:" ++ text (Nat.repr sub) ++ text ":" ++ ip

/-- The token of an account as it is. -/
def StaffUser.claims (u : StaffUser) (id : Id) : TokenClaims := ⟨some id, u.venueId, some u.tokenVersion⟩

/-- **Staff change their own password**, and stay signed in where they do. -/
def postPassword (bcrypt : Bcrypt) (token : Option TokenClaims) (ip : Text)
    (body : Option PasswordChange) (salt : ℕ) : Api PasswordAnswer := do
  let staff ← getStaff token
  match staff with
  | none => return .unauthorized
  | some staff =>
    let limit : RateLimitResult ← perform (.limiter (rateLimit (passwordKey staff.sub ip) 5 (15 * 60)))
    if !limit.allowed then return .rate_limited limit.retryAfterSec
    else
      match body with
      | none => return .invalid
      | some input =>
        let result ← changeOwnPassword bcrypt staff.sub input salt
        match result with
        | .error e => return .refused e
        | .ok _ =>
          let fresh ← query (fun w => w.staffUsers.get? staff.sub)
          match fresh with
          | none => throw' .p2025
          | some user => return .ok (user.claims staff.sub)

end Masadan
