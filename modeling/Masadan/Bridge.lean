import Masadan.Handlers

/-!
# The bridge

`src/app/api/bridge/pending/route.ts` and `src/app/api/bridge/ack/route.ts`: a
kitchen behind a firewall is printed to by an agent on its premises, which asks
for pending deliveries, prints them, and reports how each print went. With them
the panel's "print again", `src/app/api/admin/pos/[id]/retry/route.ts`.
-/

namespace Masadan

/-- How many deliveries one poll hands out. -/
def BATCH : ℕ := 10

/-- `venueForBridgeKey`: `key` is the hash of the key presented, `none` when there is
none or it lacks the prefix. -/
def venueForBridgeKey (key : Option Text) : Api (Option Id) := do
  match key with
  | none => return none
  | some keyHash =>
    query (fun w => (w.bridgeKeys.find? (fun _ k => k.keyHash == keyHash)).map
      (fun k => k.2.venueId))

/-! ## `GET /api/bridge/pending` -/

/-- A delivery as it is handed to an agent. -/
structure Handed where
  id : Id
  orderNumber : ℕ
  tableName : Text
  /-- `payloadBase64`. -/
  payload : Payload
  deriving DecidableEq, Repr

inductive PendingAnswer where
  | deliveries (handed : List Handed)
  | unauthorized
  deriving DecidableEq, Repr

/-- A row is claimable if it is pending, or if an agent claimed it and died without
acking. -/
def claimable (venueId : Id) (staleBefore : Time) (d : PosDelivery) : Bool :=
  d.venueId == venueId && d.adapter == .escpos_bridge && decide (d.attempts < MAX_ATTEMPTS)
    && (d.status == .pending
      || (d.status == .claimed && d.claimedAt.any (fun t => decide (t < staleBefore)))
      || (d.status == .claimed && d.claimedAt.isNone))

/-- The claimable rows, oldest first, at most `BATCH`. -/
def World.claimCandidates (w : World) (venueId : Id) (staleBefore : Time) : List Id :=
  ((orderBy (fun d => d.2.createdAt)
    (w.posDeliveries.filter (fun _ d => claimable venueId staleBefore d))).take BATCH).map Prod.fst

/-- What claiming a row writes into it. -/
def claim (claimedAt : Time) (claimId : ℕ) (d : PosDelivery) : PosDelivery :=
  { d with
    status := .claimed
    claimedAt := some claimedAt
    claimId := some claimId
    attempts := d.attempts + 1 }

/-- A delivery as it is handed out, with its order and its table. -/
def World.hand (w : World) (d : Id × PosDelivery) : Option Handed :=
  match w.orders.get? d.2.orderId with
  | none => none
  | some o => (w.tables.get? o.tableId).map (fun t => ⟨d.1, o.number, t.name, d.2.payload⟩)

/-- The deliveries claimed under an id, oldest first. -/
def World.claimedUnder (w : World) (claimId : ℕ) : List Handed :=
  (orderBy (fun d => d.2.createdAt)
    (w.posDeliveries.filter (fun _ d => d.claimId == some claimId))).filterMap w.hand

/-- **A poll**: choose candidates, claim those still claimable, and hand out what was
claimed. `claimId` is the random id drawn for it. -/
def getPending (key : Option Text) (claimId : ℕ) : Api PendingAnswer := do
  let venueId ← venueForBridgeKey key
  match venueId with
  | none => return .unauthorized
  | some venueId =>
    let staleBefore : Time ← query (fun w => w.now - CLAIM_TIMEOUT_MS)
    let candidates : List Id ← query (fun w => w.claimCandidates venueId staleBefore)
    if candidates.isEmpty then return .deliveries []
    else
      let claimedAt : Time ← query (fun w => w.now)
      let _ ← perform (.posDeliveryUpdateMany
        (fun _ id d => candidates.contains id && claimable venueId staleBefore d)
        (claim claimedAt claimId))
      let claimed ← query (fun w => w.claimedUnder claimId)
      return .deliveries claimed

/-! ## `POST /api/bridge/ack` -/

/-- The body of an ack. `deliveryId` is `none` when it is no delivery's id; an error
that is not a text is what `String` makes of it. -/
structure AckBody where
  deliveryId : Option Id
  ok : Bool
  error : Option Text
  deriving DecidableEq, Repr

inductive AckAnswer where
  | ok
  | ignored
  | unauthorized
  | not_found
  deriving DecidableEq, Repr

/-- The HTTP status of an answer. -/
def AckAnswer.status : AckAnswer → ℕ
  | .ok | .ignored => 200
  | .unauthorized => 401
  | .not_found => 404

/-- What an ack writes into the row, `attempts` being those it has read. -/
def settle (body : AckBody) (attempts : ℕ) (d : PosDelivery) : PosDelivery :=
  if body.ok then
    { d with status := .sent, claimedAt := none, claimId := none, lastError := none }
  else
    { d with
      status := if attempts ≥ MAX_ATTEMPTS then .failed else .pending
      claimedAt := none
      claimId := none
      lastError := some ((body.error.getD (text "unknown")).slice 500) }

/-- A delivery of the venue. -/
def World.deliveryOf (w : World) (id venueId : Id) : Option PosDelivery :=
  (w.posDeliveries.get? id).filter (fun d => d.venueId == venueId)

/-- **An ack**: record how the print of a claimed delivery went. A row that is no
longer claimed is left alone; the update is by id alone. -/
def postAck (key : Option Text) (body : AckBody) : Api AckAnswer := do
  let venueId ← venueForBridgeKey key
  match venueId with
  | none => return .unauthorized
  | some venueId =>
    let found ← query (fun w => body.deliveryId.bind (fun id =>
      (w.deliveryOf id venueId).map (fun d => (id, d))))
    match found with
    | none => return .not_found
    | some (id, delivery) =>
      if delivery.status ≠ .claimed then return .ignored
      else
        let _ ← perform (.posDeliveryUpdate id (settle body delivery.attempts))
        return .ok

/-! ## `POST /api/admin/pos/[id]/retry` -/

inductive RetryAnswer where
  | ok
  | unauthorized
  | not_found
  deriving DecidableEq, Repr

/-- What "print again" writes into the row. -/
def again (d : PosDelivery) : PosDelivery :=
  { d with status := .pending, attempts := 0, claimedAt := none, claimId := none, lastError := none }

/-- **Print again.** -/
def retryDelivery (staff : Option StaffClaims) (id : Id) : Api RetryAnswer := do
  match staff with
  | none => return .unauthorized
  | some staff =>
    let found ← query (fun w => w.deliveryOf id staff.venueId)
    match found with
    | none => return .not_found
    | some _ =>
      let _ ← perform (.posDeliveryUpdate id again)
      return .ok

/-! ## The requests -/

/-- Agents poll and ack, the panel retries, jobs write deliveries and push them, and the
sweep reconciles. -/
inductive BridgeRequest where
  | poll (key : Option Text) (claimId : ℕ)
  | ack (key : Option Text) (body : AckBody)
  | retry (staff : Option StaffClaims) (id : Id)
  | enqueue (job : Job)
  | sweep

inductive BridgeAnswer where
  | polled (a : PendingAnswer)
  | acked (a : AckAnswer)
  | retried (a : RetryAnswer)
  | enqueued
  | swept (result : SweepResult)

def BridgeRequest.prog : BridgeRequest → Api BridgeAnswer
  | .poll key claimId => BridgeAnswer.polled <$> getPending key claimId
  | .ack key body => BridgeAnswer.acked <$> postAck key body
  | .retry staff id => BridgeAnswer.retried <$> retryDelivery staff id
  | .enqueue j => (fun _ => BridgeAnswer.enqueued) <$> enqueuePosDelivery j.orderId j.amendment
  | .sweep => BridgeAnswer.swept <$> sweepPosDeliveries

/-- The claim id a poll has drawn. -/
def BridgeRequest.claimId? : BridgeRequest → Option ℕ
  | .poll _ claimId => some claimId
  | _ => none

/-- Everything may arrive at any time; a retry only where there are retries. -/
def BridgeRequest.external (retries : Bool) : BridgeRequest → Bool
  | .retry _ _ => retries
  | _ => true

/-- The server serving these requests. -/
abbrev bridgeServer (retries rough : Bool) : Sys api :=
  server BridgeRequest.prog (BridgeRequest.external retries) (fun j => [.enqueue j]) rough

/-- A run of these requests, from a world. -/
abbrev bridgeRun (retries rough : Bool) (w₀ : World)
    (acts : List (bridgeServer retries rough).Action) : (bridgeServer retries rough).Pool :=
  Sys.Pool.run (Sys.Pool.init w₀ : (bridgeServer retries rough).Pool) acts

/-! ## A kitchen behind a bridge -/

/-- A venue whose kitchen has a bridge, and an order whose ticket is pending. -/
def kitchenBehindBridge : World :=
  { World.blank 0 with
    venues := Rows.ofList [⟨[], [], [], some .escpos_bridge⟩]
    tables := Rows.ofList [⟨0, [], [], 1, true⟩]
    bridgeKeys := Rows.ofList [⟨0, []⟩]
    orders := Rows.ofList [⟨0, 0, 0, none, 1, .accepted, none, 0, .unpaid, none, none, 0⟩]
    posDeliveries := Rows.ofList [⟨0, 0, .escpos_bridge, .pending, 0, none, none, none,
      .escPos ⟨[], [], [], 1, 0, [], 0, none⟩, 0⟩] }

/-- An agent claims the delivery and is given up; another claims it again. -/
def claimedTwice {retries rough : Bool} : List (bridgeServer retries rough).Action :=
  [.arrive (.poll (some []) 1)] ++ List.replicate 6 (.step 0 plain) ++ [.env (.tick 60001)]
    ++ [.arrive (.poll (some []) 2)] ++ List.replicate 6 (.step 1 plain)

end Masadan
