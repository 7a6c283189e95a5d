import Masadan.ClaimedOnce
import Masadan.Tokens

/-!
# A delivery is tried so often, and then no more

A delivery that the kitchen's agent claims and never settles is claimed again, and must not
be claimed for ever. Its attempts are counted when it is claimed, a row of `MAX_ATTEMPTS`
is not claimed any more, and the sweep gives it up, after it has released the claims that are
too old.

Acks come late, twice or never, and write on what they have read; but none of them writes the
attempts. So the count is right in every run of polls, acks, sweeps and pushes, whatever fails
(`retries_bounded`). That a delivery is handed out no more often than it is claimed is the
claim id's doing: a poll hands out what it reads back under the id it has drawn.
-/

namespace Masadan

/-! ## What is counted -/

section

variable (rough : Bool) (id : Id)

/-- **The call claims the delivery**: it is the update of a poll, it does not fail, and it selects
the row. -/
def claimsCall (r : BridgeRequest) (c : Choice) (op : Call) (w : World) : Bool :=
  match r, op with
  | .poll _ _, .posDeliveryUpdateMany cond _ =>
    !(rough && c.fault) && (w.posDeliveries.get? id).any (cond w.now id)
  | _, _ => false

/-- The delivery is claimed by the action: it answers such a call. -/
def claimsRow (p : (bridgeServer false rough).Pool) : (bridgeServer false rough).Action → Bool
  | .step i c => (p.threads[i]?).any (fun t =>
    t.prog.next.any (fun op => claimsCall rough id t.req c op p.world))
  | _ => false

/-- A poll that has returned the delivery. -/
def hasHanded (t : (bridgeServer false rough).Thread) : Bool :=
  match t.req, t.outcome with
  | .poll _ _, some (.ok (.polled (.deliveries handed))) => handed.any (fun h => h.id == id)
  | _, _ => false

/-- **The delivery is handed out**: with the action a poll returns it. -/
def handsOut (p : (bridgeServer false rough).Pool) : (bridgeServer false rough).Action → Bool
  | .step i c => (p.threads[i]?).any (fun t => t.outcome.isNone)
    && ((p.act (.step i c)).threads[i]?).any (hasHanded rough id)
  | _ => false

variable {rough}

/-- The claim ids that the polls of a run have drawn. -/
def drawnIds (acts : List (bridgeServer false rough).Action) : List ℕ :=
  acts.filterMap (fun a => match a with
    | .arrive r => r.claimId?
    | _ => none)

end

/-- A delivery as it is written to the outbox. -/
structure PosDelivery.Fresh (d : PosDelivery) : Prop where
  status : d.status = .pending
  attempts : d.attempts = 0
  claimedAt : d.claimedAt = none
  claimId : d.claimId = none

/-- **Where a sweep leaves a delivery for the bridge**: through, held by an agent that has still
time, or pending with attempts left. -/
def PosDelivery.Swept (now : Time) (d : PosDelivery) : Prop :=
  d.status = .sent ∨ d.status = .failed
    ∨ (d.status = .claimed ∧ ∃ claimedAt, d.claimedAt = some claimedAt
      ∧ now - CLAIM_TIMEOUT_MS ≤ claimedAt)
    ∨ (d.status = .pending ∧ d.attempts < MAX_ATTEMPTS)

/-- **Bounded retries and no limbo**, for one delivery over one run. -/
structure BoundedRetries (rough : Bool) (w₀ : World) (id : Id)
    (acts : List (bridgeServer false rough).Action) : Prop where
  /-- The attempts are the claims, and they are bounded. -/
  attempts : ∀ d, (bridgeRun false rough w₀ acts).world.posDeliveries.get? id = some d →
    d.adapter = .escpos_bridge →
    d.attempts = (Sys.Pool.init w₀).times (claimsRow rough id) acts ∧ d.attempts ≤ MAX_ATTEMPTS
  /-- The delivery is handed out no more often than that, where no two polls draw one id. -/
  handed : (drawnIds acts).Nodup → ∀ d, (bridgeRun false rough w₀ acts).world.posDeliveries.get? id = some d →
    d.adapter = .escpos_bridge →
    (Sys.Pool.init w₀).times (handsOut rough id) acts ≤ MAX_ATTEMPTS
  /-- A sweep among nobody else leaves it out of limbo. -/
  swept : ∀ d, (bridgeRun false rough w₀ acts).world.posDeliveries.get? id = some d →
    d.adapter = .escpos_bridge →
    ∃ d', ((bridgeRun false rough w₀ acts).world.after sweepPosDeliveries).posDeliveries.get? id
        = some d' ∧ d'.Swept (bridgeRun false rough w₀ acts).world.now
  /-- It does not touch what is through. -/
  spared : ∀ d, (bridgeRun false rough w₀ acts).world.posDeliveries.get? id = some d →
    d.status = .sent ∨ d.status = .failed →
    ((bridgeRun false rough w₀ acts).world.after sweepPosDeliveries).posDeliveries.get? id = some d
  /-- Nor does any call of a sweep that runs among others. -/
  sparedAmong : ∀ pre i c post, acts = pre ++ .step i c :: post → ∀ t,
    (bridgeRun false rough w₀ pre).threads[i]? = some t → t.req = .sweep → ∀ d,
    (bridgeRun false rough w₀ pre).world.posDeliveries.get? id = some d →
    d.adapter = .escpos_bridge → d.status = .sent ∨ d.status = .failed →
    (bridgeRun false rough w₀ (pre ++ [.step i c])).world.posDeliveries.get? id = some d

/-! ## The sweep alone -/

section

/-- The rows a retry leaves alone: those of the bridge, and those that are not pending. -/
def PosDelivery.Settled (d : PosDelivery) : Prop := d.adapter = .escpos_bridge ∨ d.status ≠ .pending

/-- They are as they were. -/
def SparesSettled (w w' : World) : Prop :=
  ∀ id d, w.posDeliveries.get? id = some d → d.Settled → w'.posDeliveries.get? id = some d

theorem SparesSettled.trans {w w' w'' : World} (h : SparesSettled w w') (h' : SparesSettled w' w'') :
    SparesSettled w w'' := fun id d hd hs => h' id d (h id d hd hs) hs

theorem attemptDelivery_alone (w : World) (deliveryId : Id) (ticket : Ticket) :
    Alone (fun w' _ => SparesSettled w w') (attemptDelivery deliveryId ticket) w := by
  unfold attemptDelivery
  refine alone_query ?_
  cases hfound : w.posDeliveries.get? deliveryId with
  | none => exact fun _ _ hd _ => hd
  | some delivery =>
    dsimp only
    split
    · exact fun _ _ hd _ => hd
    · next hpending =>
      rw [not_not] at hpending
      unfold push
      dsimp only
      cases hadapter : delivery.adapter with
      | escpos_bridge => exact fun _ _ hd _ => hd
      | console =>
        -- the push is recorded, in a row that is pending and not the bridge's
        have hexec : ∀ data, World.exec plain (.posDeliveryUpdate deliveryId data) w
            = ({ w with posDeliveries := w.posDeliveries.updateAt deliveryId data }, .ok ()) := by
          intro data
          show w.posDeliveryUpdate deliveryId data = _
          unfold World.posDeliveryUpdate
          rw [hfound]
        have hcall : ∀ (data : PosDelivery → PosDelivery) (k : Except DbError Unit → Api Unit),
            Alone (fun w' _ => SparesSettled w w') (k (.ok ()))
              { w with posDeliveries := w.posDeliveries.updateAt deliveryId data } →
            Alone (fun w' _ => SparesSettled w w') (.call (.posDeliveryUpdate deliveryId data) k) w := by
          intro data k h
          show Alone (fun w' _ => SparesSettled w w')
            (k (World.exec plain (.posDeliveryUpdate deliveryId data) w).2)
            (World.exec plain (.posDeliveryUpdate deliveryId data) w).1
          rw [hexec]
          exact h
        refine hcall _ _ (fun k d hd hs => ?_)
        show (w.posDeliveries.updateAt deliveryId _).get? k = some d
        rw [Rows.get?_updateAt, hd, Option.map_some, if_neg]
        rintro rfl
        rw [hfound] at hd
        cases hd
        rcases hs with hs | hs
        · rw [hadapter] at hs
          cases hs
        · exact hs hpending

theorem retryEach_alone (w : World) (rows : List (Id × Ticket)) :
    Alone (fun w' _ => SparesSettled w w') (retryEach rows) w := by
  induction rows generalizing w with
  | nil => exact fun _ _ hd _ => hd
  | cons row rest ih =>
    refine Prog.alone_bind (Prog.alone_mono (attemptDelivery_alone w row.1 row.2) (fun w' x h => ?_))
    cases x with
    | ok _ => exact Prog.alone_mono (ih w') (fun _ _ h' => h.trans h')
    | error _ => exact h

/-- **What a sweep writes into a row**, its pushes apart. -/
def PosDelivery.reconciled (now : Time) (d : PosDelivery) : PosDelivery :=
  let released :=
    if d.status == .claimed && d.claimedAt.any (fun t => decide (t < now - CLAIM_TIMEOUT_MS)) then
      expire d
    else if d.status == .claimed && d.claimedAt.isNone then
      { d with status := .pending, claimId := none, lastError := some claimExpired }
    else d
  if released.status == .pending && decide (released.attempts ≥ MAX_ATTEMPTS) then
    { released with status := .failed }
  else released

/-- **A sweep alone** reconciles each row, and then pushes some that are pending and not the
bridge's. -/
theorem sweepPosDeliveries_alone (w : World) :
    Alone (fun w' _ => ∀ id d, w.posDeliveries.get? id = some d → (d.reconciled w.now).Settled →
      w'.posDeliveries.get? id = some (d.reconciled w.now)) sweepPosDeliveries w := by
  unfold sweepPosDeliveries
  refine alone_query (alone_write (fun w₁ x₁ hx₁ => ?_))
  cases hx₁
  refine alone_write (fun w₂ x₂ hx₂ => ?_)
  cases hx₂
  refine alone_write (fun w₃ x₃ hx₃ => ?_)
  cases hx₃
  refine alone_query (Prog.alone_bind (Prog.alone_mono (retryEach_alone _ _) (fun w' x h => ?_)))
  have hrows : ∀ id d, w.posDeliveries.get? id = some d → (d.reconciled w.now).Settled →
      w'.posDeliveries.get? id = some (d.reconciled w.now) := by
    intro id d hd hs
    refine h id _ ?_ hs
    dsimp only
    rw [Rows.get?_update, Rows.get?_update, Rows.get?_update, hd]
    unfold PosDelivery.reconciled
    dsimp only [Option.map_some]
    by_cases hold : (d.status == .claimed
        && d.claimedAt.any (fun t => decide (t < w.now - CLAIM_TIMEOUT_MS))) = true
    · simp only [if_pos hold]
      rfl
    · simp only [if_neg hold]
  cases x with
  | ok _ => exact hrows
  | error _ => exact hrows

theorem get?_after_sweep {w : World} {id : Id} {d : PosDelivery}
    (hd : w.posDeliveries.get? id = some d) (hsettled : (d.reconciled w.now).Settled) :
    (w.after sweepPosDeliveries).posDeliveries.get? id = some (d.reconciled w.now) :=
  sweepPosDeliveries_alone w id d hd hsettled

theorem reconciled_adapter (now : Time) (d : PosDelivery) :
    (d.reconciled now).adapter = d.adapter := by
  unfold PosDelivery.reconciled
  dsimp only
  repeat' split
  all_goals rfl

/-- What is through is as it was. -/
theorem reconciled_through {d : PosDelivery} (h : d.status = .sent ∨ d.status = .failed)
    (now : Time) : d.reconciled now = d := by
  have hclaimed : (d.status == .claimed) = false := by rcases h with h | h <;> rw [h] <;> rfl
  have hpending : (d.status == .pending) = false := by rcases h with h | h <;> rw [h] <;> rfl
  simp [PosDelivery.reconciled, hclaimed, hpending]

/-- Nothing is in limbo after the sweep. -/
theorem reconciled_swept (now : Time) (d : PosDelivery) : (d.reconciled now).Swept now := by
  -- what is pending has attempts left, or has failed
  have hgivenUp : ∀ u : PosDelivery, u.status = .pending →
      (if u.status == .pending && decide (u.attempts ≥ MAX_ATTEMPTS) then
        { u with status := .failed } else u).Swept now := by
    intro u hu
    split
    · exact .inr (.inl rfl)
    · next hleft =>
      refine .inr (.inr (.inr ⟨hu, ?_⟩))
      simpa [hu] using hleft
  unfold PosDelivery.reconciled
  dsimp only
  by_cases hold : (d.status == .claimed
      && d.claimedAt.any (fun t => decide (t < now - CLAIM_TIMEOUT_MS))) = true
  · rw [if_pos hold]
    exact hgivenUp _ rfl
  · rw [if_neg hold]
    by_cases htimeless : (d.status == .claimed && d.claimedAt.isNone) = true
    · rw [if_pos htimeless]
      exact hgivenUp _ rfl
    · rw [if_neg htimeless]
      cases hs : d.status with
      | pending => exact hs ▸ hgivenUp d hs
      | sent => exact .inl (by simp [hs])
      | failed => exact .inr (.inl (by simp [hs]))
      | claimed =>
        -- it is held, and not too long
        refine .inr (.inr (.inl ⟨by simp [hs], ?_⟩))
        cases hat : d.claimedAt with
        | none => simp [hs, hat] at htimeless
        | some claimedAt =>
          refine ⟨claimedAt, by simp [hat], ?_⟩
          simpa [hs, hat] using hold

end

/-! ## The calls of a request -/

/-- The calls of a poll: reads, and the update that claims, of rows with attempts left. -/
def Call.PollWork (claimId : ℕ) : Call → Prop
  | .query _ => True
  | .posDeliveryUpdateMany cond data =>
    (∀ now id d, cond now id d = true → d.attempts < MAX_ATTEMPTS)
      ∧ ∃ claimedAt, data = claim claimedAt claimId
  | _ => False

/-- The calls of a request: those of the outbox, and a poll's are a poll's. -/
def BridgeWork (r : BridgeRequest) (op : Call) : Prop :=
  op.OutboxWork ∧ ∀ key claimId, r = .poll key claimId → op.PollWork claimId

theorem claimable_attempts {venueId : Id} {staleBefore : Time} {d : PosDelivery}
    (h : claimable venueId staleBefore d = true) : d.attempts < MAX_ATTEMPTS := by
  unfold claimable at h
  simp only [Bool.and_eq_true, decide_eq_true_eq] at h
  exact h.1.2

theorem venueForBridgeKey_calls (key : Option Text) {A : Call → Prop}
    (hA : ∀ {β : Type} (q : World → β), A (.query q)) :
    (venueForBridgeKey key).Calls A (fun _ => True) := by
  unfold venueForBridgeKey
  cases key with
  | none => exact trivial
  | some keyHash => exact Prog.calls_perform (S := api) (hA _)

theorem getPending_calls (key : Option Text) (claimId : ℕ) :
    (getPending key claimId).Calls (BridgeWork (.poll key claimId)) (fun _ => True) := by
  have hquery : ∀ {β : Type} (q : World → β), BridgeWork (.poll key claimId) (.query q) :=
    fun q => ⟨trivial, fun _ _ _ => trivial⟩
  unfold getPending
  refine Prog.calls_bind (venueForBridgeKey_calls key hquery) (fun venueId _ => ?_)
  cases venueId with
  | none => exact trivial
  | some venueId =>
    refine Prog.calls_bind (Prog.calls_perform (S := api) (hquery _)) (fun staleBefore _ => ?_)
    refine Prog.calls_bind (Prog.calls_perform (S := api) (hquery _)) (fun candidates _ => ?_)
    split
    · exact trivial
    · refine Prog.calls_bind (Prog.calls_perform (S := api) (hquery _)) (fun claimedAt _ => ?_)
      refine Prog.calls_bind (Prog.calls_perform (S := api) ⟨fun _ => ⟨rfl, rfl⟩, ?_⟩) (fun _ _ =>
        Prog.calls_bind (Prog.calls_perform (S := api) (hquery _)) (fun _ _ => trivial))
      rintro key' claimId' heq
      cases heq
      exact ⟨fun now id d h => claimable_attempts (Bool.and_eq_true_iff.mp h).2, claimedAt, rfl⟩

theorem bridge_calls (r : BridgeRequest) : r.prog.Calls (BridgeWork r) (fun _ => True) := by
  have hother : ∀ {op : Call}, (∀ key claimId, r ≠ .poll key claimId) → op.OutboxWork →
      BridgeWork r op := fun hr hop => ⟨hop, fun key claimId h => absurd h (hr key claimId)⟩
  cases r with
  | poll key claimId =>
    exact Prog.calls_bind (getPending_calls key claimId) (fun _ _ => trivial)
  | ack key body =>
    have hne : ∀ key' claimId, BridgeRequest.ack key body ≠ .poll key' claimId :=
      fun _ _ h => by cases h
    refine Prog.calls_bind (?_ : (postAck key body).Calls _ (fun _ => True)) (fun _ _ => trivial)
    unfold postAck
    refine Prog.calls_bind (venueForBridgeKey_calls key (fun _ => hother hne trivial))
      (fun venueId _ => ?_)
    cases venueId with
    | none => exact trivial
    | some venueId =>
      refine Prog.calls_bind (Prog.calls_perform (S := api) (hother hne trivial)) (fun found _ => ?_)
      cases found with
      | none => exact trivial
      | some row =>
        dsimp only
        split
        · exact trivial
        · refine Prog.calls_bind (Prog.calls_perform (S := api) (hother hne (fun d => ?_)))
            (fun _ _ => trivial)
          unfold settle
          split
          · exact ⟨rfl, rfl⟩
          · exact ⟨rfl, rfl⟩
  | retry staff id =>
    have hne : ∀ key' claimId, BridgeRequest.retry staff id ≠ .poll key' claimId :=
      fun _ _ h => by cases h
    refine Prog.calls_bind (?_ : (retryDelivery staff id).Calls _ (fun _ => True))
      (fun _ _ => trivial)
    unfold retryDelivery
    cases staff with
    | none => exact trivial
    | some staff =>
      refine Prog.calls_bind (Prog.calls_perform (S := api) (hother hne trivial)) (fun found _ => ?_)
      cases found with
      | none => exact trivial
      | some d =>
        exact Prog.calls_bind (Prog.calls_perform (S := api) (hother hne (fun _ => ⟨rfl, rfl⟩)))
          (fun _ _ => trivial)
  | enqueue job =>
    exact Prog.calls_bind (Prog.calls_mono (enqueuePosDelivery_calls _ _)
      (fun _ h => hother (fun _ _ h => by cases h) h) (fun _ h => h)) (fun _ _ => trivial)
  | sweep =>
    exact Prog.calls_bind (Prog.calls_mono sweepPosDeliveries_calls
      (fun _ h => hother (fun _ _ h => by cases h) h.outboxWork) (fun _ h => h)) (fun _ _ => trivial)

/-! ## What a step does to the row -/

section

variable {rough : Bool} {id : Id}

variable (id) in
/-- **A call of a poll** claims the row, which has attempts left, or leaves it. -/
theorem poll_call (key : Option Text) {claimId : ℕ} {c : Choice} {op : Call}
    (hop : op.PollWork claimId) (w : World) :
    (claimsCall rough id (.poll key claimId) c op w = true ∧ ∃ d claimedAt, w.posDeliveries.get? id = some d
        ∧ d.attempts < MAX_ATTEMPTS
        ∧ ((bridgeServer false rough).exec c op w).1.posDeliveries.get? id = some (claim claimedAt claimId d))
      ∨ (claimsCall rough id (.poll key claimId) c op w = false
        ∧ ((bridgeServer false rough).exec c op w).1.posDeliveries.get? id = w.posDeliveries.get? id) := by
  cases op with
  | query q =>
    refine .inr ⟨rfl, ?_⟩
    dsimp only [server]
    split
    · rfl
    · rfl
  | posDeliveryUpdateMany cond data =>
    obtain ⟨hleft, claimedAt, rfl⟩ := hop
    by_cases hfault : (rough && c.fault) = true
    · have hexec : (bridgeServer false rough).exec c
          (.posDeliveryUpdateMany cond (claim claimedAt claimId)) w = (w, .error .failed) :=
        if_pos (by rw [hfault]; rfl)
      exact .inr ⟨by simp [claimsCall, hfault], by rw [hexec]⟩
    · have hexec : (bridgeServer false rough).exec c
          (.posDeliveryUpdateMany cond (claim claimedAt claimId)) w
            = World.exec c (.posDeliveryUpdateMany cond (claim claimedAt claimId)) w :=
        if_neg (by simpa [Call.onDatabase] using hfault)
      have hafter : (World.exec c (.posDeliveryUpdateMany cond (claim claimedAt claimId))
          w).1.posDeliveries.get? id = (w.posDeliveries.get? id).map (fun d =>
            if cond w.now id d then claim claimedAt claimId d else d) := Rows.get?_update _ _ _ _
      rw [hexec, hafter]
      unfold claimsCall
      dsimp only
      rw [Bool.eq_false_iff.mpr hfault, Bool.not_false, Bool.true_and]
      cases hrow : w.posDeliveries.get? id with
      | none => exact .inr ⟨rfl, rfl⟩
      | some d =>
        rw [Option.map_some]
        by_cases hcond : cond w.now id d = true
        · rw [if_pos hcond]
          exact .inl ⟨hcond, d, claimedAt, rfl, hleft _ _ _ hcond, rfl⟩
        · rw [if_neg hcond]
          exact .inr ⟨Bool.eq_false_iff.mpr hcond, rfl⟩
  | _ => exact hop.elim

/-- Only a poll draws an id. -/
theorem poll_of_claimId {r : BridgeRequest} {claimId : ℕ} (h : r.claimId? = some claimId) :
    ∃ key, r = .poll key claimId := by
  cases r with
  | poll key drawn =>
    cases h
    exact ⟨key, rfl⟩
  | _ => cases h

variable {w₀ : World} {acts : List (bridgeServer false rough).Action}

theorem bridge_ok (rough : Bool) (w₀ : World) (acts : List (bridgeServer false rough).Action) :
    (deliveryProtocol false rough).PoolOk bridgePost w₀ (bridgeRun false rough w₀ acts) :=
  (deliverySound false rough).run trivial
    ((deliveryProtocol false rough).meets_cond (fun _ _ _ _ _ => rfl) _ _)

/-- **A call of any other request** leaves the attempts of a delivery for the bridge. -/
theorem RowStep.attempts {r : BridgeRequest} {op : Call} {w : World} {d d' : PosDelivery}
    (h : RowStep rough r op w id d d') (hpoll : r.claimId? = none)
    (hretry : ∀ staff k, r ≠ .retry staff k) (hbridge : d.adapter = .escpos_bridge) :
    d'.attempts = d.attempts := by
  cases h with
  | claimed hr =>
    subst hr
    cases hpoll
  | settled hr hid hop =>
    unfold settle
    split
    · rfl
    · rfl
  | retried hr => exact absurd hr (hretry _ _)
  | pushed hadapter =>
    rw [hbridge] at hadapter
    cases hadapter
  | refused hadapter =>
    rw [hbridge] at hadapter
    cases hadapter
  | _ => rfl

/-- A new row has not been tried. -/
theorem outboxWork_fresh {c : Choice} {op : Call} (hop : op.OutboxWork) {w : World}
    {d' : PosDelivery} (hnone : w.posDeliveries.get? id = none)
    (hsome : ((bridgeServer false rough).exec c op w).1.posDeliveries.get? id = some d') :
    d'.attempts = 0 := by
  dsimp only [server] at hsome
  split at hsome
  · rw [hnone] at hsome
    cases hsome
  · cases op with
    | query q =>
      rw [show (World.exec c (.query q) w).1.posDeliveries.get? id
        = w.posDeliveries.get? id from rfl, hnone] at hsome
      cases hsome
    | posDeliveryCreate data =>
      replace hsome : (w.posDeliveries.create _).get? id = some d' := hsome
      rw [Rows.get?_create] at hsome
      split at hsome
      · cases hsome
        rfl
      · rw [hnone] at hsome
        cases hsome
    | posDeliveryUpdate k data =>
      replace hsome : (w.posDeliveryUpdate k data).1.posDeliveries.get? id = some d' := hsome
      unfold World.posDeliveryUpdate at hsome
      split at hsome
      · rw [hnone] at hsome
        cases hsome
      · rw [Rows.get?_updateAt, hnone] at hsome
        cases hsome
    | posDeliveryUpdateMany cond data =>
      replace hsome : (w.posDeliveries.update (cond w.now) data).get? id = some d' := hsome
      rw [Rows.get?_update, hnone] at hsome
      cases hsome
    | _ => exact hop.elim

/-- The action that answers a call claims the delivery when the call does. -/
theorem claimsRow_call {p : (bridgeServer false rough).Pool} {i : ℕ} {c : Choice}
    {t : (bridgeServer false rough).Thread} (ht : p.threads[i]? = some t) {op : Call}
    {k : Except DbError (Call.Res op) → Api BridgeAnswer} (hk : t.prog = .call op k) :
    claimsRow rough id p (.step i c) = claimsCall rough id t.req c op p.world := by
  unfold claimsRow
  dsimp only
  rw [ht, Option.any_some, hk]
  rfl

theorem claimsRow_spec {p : (bridgeServer false rough).Pool}
    {a : (bridgeServer false rough).Action} (h : claimsRow rough id p a = true) :
    ∃ i c t op k, a = .step i c ∧ p.threads[i]? = some t ∧ t.prog = .call op k
      ∧ (∃ key claimId, t.req = .poll key claimId) := by
  cases a with
  | arrive r => cases h
  | env e => cases h
  | step i c =>
    unfold claimsRow at h
    dsimp only at h
    cases ht : p.threads[i]? with
    | none =>
      rw [ht] at h
      cases h
    | some t =>
      rw [ht, Option.any_some] at h
      cases hk : t.prog with
      | ret a =>
        rw [hk] at h
        cases h
      | raise e =>
        rw [hk] at h
        cases h
      | call op k =>
        refine ⟨i, c, t, op, k, rfl, ht, hk, ?_⟩
        rw [hk] at h
        replace h : claimsCall rough id t.req c op p.world = true := h
        cases hr : t.req with
        | poll key claimId => exact ⟨key, claimId, rfl⟩
        | _ =>
          rw [hr] at h
          cases h

/-- What is left of a poll is a poll's. -/
theorem poll_next {t : (bridgeServer false rough).Thread}
    (ht : t ∈ (bridgeRun false rough w₀ acts).threads) {key : Option Text} {claimId : ℕ}
    (hr : t.req = .poll key claimId) {op : Call}
    {k : Except DbError (Call.Res op) → Api BridgeAnswer} (hk : t.prog = .call op k) :
    op.PollWork claimId := by
  have hcalls := Sys.Pool.calls_run (Y := bridgeServer false rough) bridge_calls w₀ acts t ht
  rw [hk] at hcalls
  exact hcalls.1.2 key claimId hr

/-- The action that answers a call, and the world it leaves. -/
theorem run_step_world {i : ℕ} {c : Choice} {t : (bridgeServer false rough).Thread}
    (ht : (bridgeRun false rough w₀ acts).threads[i]? = some t) {op : Call}
    {k : Except DbError (Call.Res op) → Api BridgeAnswer} (hk : t.prog = .call op k) :
    (bridgeRun false rough w₀ (acts ++ [.step i c])).world
      = ((bridgeServer false rough).exec c op (bridgeRun false rough w₀ acts).world).1 := by
  rw [bridgeRun, Sys.Pool.run_concat]
  show (Sys.Pool.step (bridgeRun false rough w₀ acts) i c).world = _
  rw [Sys.Pool.step_of_call ht hk]

variable (id) in
/-- **What an action does to the row**: it claims it, or is no claim, and leaves it or does what
another request's call may. -/
theorem row_act (w₀ : World) (acts : List (bridgeServer false rough).Action)
    (a : (bridgeServer false rough).Action) :
    (claimsRow rough id (bridgeRun false rough w₀ acts) a = true
        ∧ ∃ d claimId claimedAt, (bridgeRun false rough w₀ acts).world.posDeliveries.get? id = some d
          ∧ d.attempts < MAX_ATTEMPTS
          ∧ (bridgeRun false rough w₀ (acts ++ [a])).world.posDeliveries.get? id
            = some (claim claimedAt claimId d))
      ∨ (claimsRow rough id (bridgeRun false rough w₀ acts) a = false
        ∧ ((bridgeRun false rough w₀ (acts ++ [a])).world.posDeliveries.get? id
            = (bridgeRun false rough w₀ acts).world.posDeliveries.get? id
          ∨ ∃ i c t op, a = .step i c ∧ (bridgeRun false rough w₀ acts).threads[i]? = some t
            ∧ t.req.claimId? = none ∧ (∀ staff k, t.req ≠ .retry staff k) ∧ op.OutboxWork
            ∧ (bridgeRun false rough w₀ (acts ++ [a])).world
              = ((bridgeServer false rough).exec c op (bridgeRun false rough w₀ acts).world).1
            ∧ RowSteps rough t.req ⟨op, (bridgeRun false rough w₀ acts).world,
              (bridgeRun false rough w₀ (acts ++ [a])).world⟩)) := by
  cases hclaims : claimsRow rough id (bridgeRun false rough w₀ acts) a with
  | true =>
    left
    obtain ⟨i, c, t, op, k, rfl, ht, hk, key, claimId, hr⟩ := claimsRow_spec hclaims
    rw [claimsRow_call ht hk, hr] at hclaims
    rw [run_step_world ht hk]
    rcases poll_call id key (poll_next (List.mem_of_getElem? ht) hr hk)
        (bridgeRun false rough w₀ acts).world with ⟨_, d, claimedAt, hd, hleft, hafter⟩ | ⟨hnot, _⟩
    · exact ⟨rfl, d, claimId, claimedAt, hd, hleft, hafter⟩
    · rw [hnot] at hclaims
      cases hclaims
  | false =>
    refine .inr ⟨rfl, ?_⟩
    have hcases := (bridge_ok rough w₀ acts).act_cases (a := a)
      ((deliveryProtocol false rough).cond_true (fun _ _ _ _ _ => rfl) _ _)
    rw [← Sys.Pool.run_concat] at hcases
    rcases hcases with hsame | ⟨e, _, henv⟩ | ⟨i, c, t, op, k, rfl, ht, hk, hworld, _, htakes⟩
    · exact .inl (congrArg (fun w : World => w.posDeliveries.get? id) hsame)
    · left
      rw [henv]
      cases e with
      | tick ms => rfl
      | crash => rfl
    · have htm := List.mem_of_getElem? ht
      cases hpoll : t.req.claimId? with
      | none =>
        have hcalls := Sys.Pool.calls_run (Y := bridgeServer false rough) bridge_calls w₀ acts t htm
        rw [hk] at hcalls
        exact .inr ⟨i, c, t, op, rfl, ht, hpoll, no_retry htm, hcalls.1.1, hworld, htakes.here⟩
      | some claimId =>
        left
        obtain ⟨key, hr⟩ := poll_of_claimId hpoll
        rw [claimsRow_call ht hk, hr] at hclaims
        rcases poll_call id key (poll_next htm hr hk)
            (bridgeRun false rough w₀ acts).world with ⟨h, _⟩ | ⟨_, hafter⟩
        · rw [h] at hclaims
          cases hclaims
        · rw [run_step_world ht hk]
          exact hafter

/-- **The attempts of a delivery for the bridge are its claims**, and they are bounded. -/
theorem attempts_run (h₀ : ∀ d, w₀.posDeliveries.get? id = some d → d.attempts = 0)
    (acts : List (bridgeServer false rough).Action) :
    ((bridgeRun false rough w₀ acts).world.posDeliveries.get? id = none →
        (Sys.Pool.init w₀).times (claimsRow rough id) acts = 0)
      ∧ ∀ d, (bridgeRun false rough w₀ acts).world.posDeliveries.get? id = some d →
        d.adapter = .escpos_bridge →
        d.attempts = (Sys.Pool.init w₀).times (claimsRow rough id) acts
          ∧ d.attempts ≤ MAX_ATTEMPTS := by
  induction acts using List.reverseRecOn with
  | nil =>
    refine ⟨fun _ => rfl, fun d hd _ => ?_⟩
    rw [h₀ d hd]
    exact ⟨rfl, Nat.zero_le _⟩
  | append_singleton acts a ih =>
    obtain ⟨ihnone, ihsome⟩ := ih
    rw [Sys.Pool.times_concat]
    show (_ → _ + (if claimsRow rough id (bridgeRun false rough w₀ acts) a then 1 else 0) = 0)
      ∧ ∀ d : PosDelivery, _ → _ → d.attempts = _ + (if claimsRow rough id (bridgeRun false rough w₀ acts) a
        then 1 else 0) ∧ _
    rcases row_act id w₀ acts a with ⟨hclaims, d, claimId, claimedAt, hd, hleft, hafter⟩
      | ⟨hclaims, hrow⟩
    · rw [hclaims, hafter]
      refine ⟨fun h => (by cases h), fun d' hd' hbridge => ?_⟩
      cases hd'
      rw [if_pos rfl, ← (ihsome d hd hbridge).1]
      exact ⟨rfl, hleft⟩
    · rw [hclaims, if_neg Bool.false_ne_true, Nat.add_zero]
      rcases hrow with hsame | ⟨i, c, t, op, _, _, hpoll, hretry, hop, hworld, hsteps⟩
      · rw [hsame]
        exact ⟨ihnone, ihsome⟩
      · cases hbefore : (bridgeRun false rough w₀ acts).world.posDeliveries.get? id with
        | none =>
          refine ⟨fun _ => ihnone hbefore, fun d' hd' _ => ?_⟩
          rw [hworld] at hd'
          rw [outboxWork_fresh hop hbefore hd', ihnone hbefore]
          exact ⟨rfl, Nat.zero_le _⟩
        | some d =>
          obtain ⟨d', hd', hstep⟩ := hsteps.step id d hbefore
          dsimp only at hd'
          rw [hd']
          refine ⟨fun h => (by cases h), fun d'' hd'' hbridge => ?_⟩
          cases hd''
          rw [hstep.sameTicket.adapter] at hbridge
          rw [hstep.attempts hpoll hretry hbridge]
          exact ihsome d hbefore hbridge

end

/-! ## Who hands the row out -/

section

variable (id : Id)

/-- The call has given the row the claim id. -/
def claimedBy (claimId : ℕ) (e : Event api World) : Bool :=
  (e.after.posDeliveries.get? id).any (fun d => d.claimId == some claimId)
    && !(e.before.posDeliveries.get? id).any (fun d => d.claimId == some claimId)

/-- **What a poll has in hand**: it has claimed the row, and is not through. -/
def claimInHand (rough : Bool) : Token (bridgeServer false rough) where
  stock _ := 0
  holds
    | .poll _ claimId, v, p =>
      if p.outcome.isNone && v.past.any (claimedBy id claimId) then 1 else 0
    | _, _, _ => 0

/-- **A poll hands out what it has claimed**: the row carries the id of a poll that has arrived,
that poll knows that it has claimed it, and the deliveries handed out and those in hand are no
more than those claimed. -/
structure HandsOk (rough : Bool) (w₀ : World) (acts : List (bridgeServer false rough).Action) :
    Prop where
  threads : ((bridgeRun false rough w₀ acts).threads.filterMap (fun t => t.req.claimId?)).Sublist
    (drawnIds acts)
  carried : ∀ d claimId, (bridgeRun false rough w₀ acts).world.posDeliveries.get? id = some d →
    d.claimId = some claimId → claimId ∈ drawnIds acts
  own : ∀ t ∈ (bridgeRun false rough w₀ acts).threads, ∀ key claimId, t.req = .poll key claimId →
    ∀ d, (bridgeRun false rough w₀ acts).world.posDeliveries.get? id = some d →
    d.claimId = some claimId → t.view.past.any (claimedBy id claimId) = true
  seen : ∀ t ∈ (bridgeRun false rough w₀ acts).threads, ∀ key claimId, t.req = .poll key claimId →
    ∀ e ∈ t.view.past, ∀ d, e.before.posDeliveries.get? id = some d → d.claimId = some claimId →
    t.view.past.any (claimedBy id claimId) = true
  count : (Sys.Pool.init w₀).times (handsOut rough id) acts
      + (claimInHand id rough).held (bridgeRun false rough w₀ acts).threads
    ≤ (Sys.Pool.init w₀).times (claimsRow rough id) acts

end

section

variable {rough : Bool} {id : Id} {w₀ : World} {acts : List (bridgeServer false rough).Action}

theorem claimedBy_iff {claimId : ℕ} {e : Event api World} :
    claimedBy id claimId e = true
      ↔ (∃ d, e.after.posDeliveries.get? id = some d ∧ d.claimId = some claimId)
        ∧ ∀ d, e.before.posDeliveries.get? id = some d → d.claimId ≠ some claimId := by
  unfold claimedBy
  rw [Bool.and_eq_true, Option.any_eq_true, Bool.not_eq_true', Option.any_eq_false]
  simp only [beq_iff_eq, beq_eq_false_iff_ne]

/-- A job a call leaves is no poll. -/
theorem spawned_claimId {op : Call} {r : BridgeRequest}
    (h : r ∈ (bridgeServer false rough).spawns op) : r.claimId? = none := by
  obtain ⟨job, _, hjob⟩ := spawns_cases h
  cases List.mem_singleton.mp hjob
  rfl

theorem holds_other {r : BridgeRequest} (hr : r.claimId? = none) (v : View api World)
    (p : Api BridgeAnswer) : (claimInHand id rough).holds r v p = 0 := by
  cases r with
  | poll key claimId => cases hr
  | _ => rfl

/-- A program at its start has nothing in hand. -/
theorem holds_start (r : BridgeRequest) (w : World) (p : Api BridgeAnswer) :
    (claimInHand id rough).holds r ⟨w, []⟩ p = 0 := by
  cases r with
  | poll key claimId =>
    show (if p.outcome.isNone && false then 1 else 0) = 0
    rw [Bool.and_false]
    rfl
  | _ => rfl

theorem drawnIds_arrive (r : BridgeRequest) :
    drawnIds (acts ++ [.arrive r]) = drawnIds acts ++ r.claimId?.toList := by
  unfold drawnIds
  rw [List.filterMap_append]
  congr 1

theorem drawnIds_other {a : (bridgeServer false rough).Action} (ha : ∀ r, a ≠ .arrive r) :
    drawnIds (acts ++ [a]) = drawnIds acts := by
  unfold drawnIds
  rw [List.filterMap_append]
  cases a with
  | arrive r => exact absurd rfl (ha r)
  | _ => exact List.append_nil _

/-- A poll that has returned the delivery has returned. -/
theorem hasHanded_spec {t : (bridgeServer false rough).Thread} (h : hasHanded rough id t = true) :
    ∃ key claimId handed, t.req = .poll key claimId
      ∧ t.outcome = some (.ok (.polled (.deliveries handed))) ∧ ∃ d ∈ handed, d.id = id := by
  unfold hasHanded at h
  split at h
  · next key claimId handed hreq hout =>
    obtain ⟨d, hd, hid⟩ := List.any_eq_true.mp h
    exact ⟨key, claimId, handed, hreq, hout, d, hd, beq_iff_eq.mp hid⟩
  · cases h

theorem HandsOk.arrive (h : HandsOk id rough w₀ acts) (r : BridgeRequest)
    (hnodup : (drawnIds (acts ++ [.arrive r])).Nodup) :
    HandsOk id rough w₀ (acts ++ [.arrive r]) := by
  have hdrawn : drawnIds (acts ++ [.arrive r]) = drawnIds acts ++ r.claimId?.toList :=
    drawnIds_arrive r
  have hcount : ∀ q : (bridgeServer false rough).Pool → (bridgeServer false rough).Action → Bool,
      q (bridgeRun false rough w₀ acts) (.arrive r) = false →
      (Sys.Pool.init w₀).times q (acts ++ [.arrive r]) = (Sys.Pool.init w₀).times q acts := by
    intro q hq
    rw [Sys.Pool.times_concat]
    rw [show q ((Sys.Pool.init w₀).run acts) (.arrive r) = false from hq,
      if_neg Bool.false_ne_true]
    rfl
  have hout := hcount (handsOut rough id) rfl
  have hclaims := hcount (claimsRow rough id) rfl
  by_cases hr : BridgeRequest.external false r = true
  · have hact : bridgeRun false rough w₀ (acts ++ [.arrive r])
        = ⟨(bridgeRun false rough w₀ acts).world, (bridgeRun false rough w₀ acts).threads
          ++ [Sys.start r (bridgeRun false rough w₀ acts).world]⟩ :=
      (Sys.Pool.run_concat _ _ _).trans (if_pos hr)
    refine ⟨?_, ?_, ?_, ?_, ?_⟩
    · rw [hact, hdrawn, List.filterMap_append]
      exact h.threads.append (List.Sublist.refl _)
    · rw [hact, hdrawn]
      exact fun d claimId hd hc => List.mem_append_left _ (h.carried d claimId hd hc)
    · rw [hact]
      intro t ht key claimId hreq d hd hc
      rcases List.mem_append.mp ht with ht | ht
      · exact h.own t ht key claimId hreq d hd hc
      · -- the id it comes with has not been drawn before
        exfalso
        rw [List.mem_singleton.mp ht] at hreq
        replace hreq : r = .poll key claimId := hreq
        rw [hdrawn, hreq] at hnodup
        exact (List.nodup_append.mp hnodup).2.2 claimId (h.carried d claimId hd hc) claimId
          List.mem_cons_self rfl
    · rw [hact]
      intro t ht key claimId hreq e he
      rcases List.mem_append.mp ht with ht | ht
      · exact h.seen t ht key claimId hreq e he
      · rw [List.mem_singleton.mp ht] at he
        cases he
    · rw [hout, hclaims, hact, Token.held_append]
      have hstart : (claimInHand id rough).held
          [Sys.start r (bridgeRun false rough w₀ acts).world] = 0 := holds_start r _ _
      rw [hstart]
      exact h.count
  · have hact : bridgeRun false rough w₀ (acts ++ [.arrive r]) = bridgeRun false rough w₀ acts :=
      (Sys.Pool.run_concat _ _ _).trans (if_neg hr)
    refine ⟨?_, ?_, ?_, ?_, ?_⟩
    · rw [hact, hdrawn]
      exact h.threads.trans (List.sublist_append_left _ _)
    · rw [hact, hdrawn]
      exact fun d claimId hd hc => List.mem_append_left _ (h.carried d claimId hd hc)
    · rw [hact]
      exact h.own
    · rw [hact]
      exact h.seen
    · rw [hact, hout, hclaims]
      exact h.count

theorem HandsOk.env (h : HandsOk id rough w₀ acts) (e : Disturbance) :
    HandsOk id rough w₀ (acts ++ [.env e]) := by
  have hdrawn : drawnIds (acts ++ [Sys.Action.env e]) = drawnIds acts :=
    drawnIds_other (fun _ h => by cases h)
  have hact : bridgeRun false rough w₀ (acts ++ [.env e])
      = (bridgeRun false rough w₀ acts).act (.env e) := Sys.Pool.run_concat _ _ _
  have hrow : (bridgeRun false rough w₀ (acts ++ [.env e])).world.posDeliveries
      = (bridgeRun false rough w₀ acts).world.posDeliveries := by
    rw [hact]
    cases e with
    | tick ms => rfl
    | crash => rfl
  have hsub : (bridgeRun false rough w₀ (acts ++ [.env e])).threads.Sublist
      (bridgeRun false rough w₀ acts).threads := by
    rw [hact]
    show (if (bridgeServer false rough).kills e then [] else _).Sublist _
    split
    · exact List.nil_sublist _
    · exact List.Sublist.refl _
  refine ⟨?_, ?_, ?_, ?_, ?_⟩
  · rw [hdrawn]
    exact (hsub.filterMap _).trans h.threads
  · rw [hdrawn, hrow]
    exact h.carried
  · rw [hrow]
    exact fun t ht => h.own t (hsub.mem ht)
  · exact fun t ht => h.seen t (hsub.mem ht)
  · rw [Sys.Pool.times_concat, Sys.Pool.times_concat]
    refine le_trans (Nat.add_le_add_left (Token.held_le_of_sublist hsub) _) ?_
    exact h.count

/-- A call of a poll that gives the row its id claims the row. -/
theorem claimsCall_of_claimedBy {key : Option Text} {claimId : ℕ} {c : Choice} {op : Call}
    (hop : op.PollWork claimId) {w : World}
    (h : claimedBy id claimId ⟨op, w, ((bridgeServer false rough).exec c op w).1⟩ = true) :
    claimsCall rough id (.poll key claimId) c op w = true := by
  rcases poll_call id key hop w with ⟨hclaims, _⟩ | ⟨_, hsame⟩
  · exact hclaims
  · obtain ⟨⟨d, hd, hc⟩, hnot⟩ := claimedBy_iff.mp h
    dsimp only at hd hnot
    rw [hsame] at hd
    exact absurd hc (hnot d hd)

/-- **A step of a poll**: what it hands out and keeps in hand, it had in hand or has claimed with
the step. -/
theorem HandsOk.balance (h : HandsOk id rough w₀ acts) {i : ℕ} {c : Choice}
    {t : (bridgeServer false rough).Thread} (ht : (bridgeRun false rough w₀ acts).threads[i]? = some t)
    {op : Call} {k : Except DbError (Call.Res op) → Api BridgeAnswer} (hk : t.prog = .call op k)
    {t' : (bridgeServer false rough).Thread}
    (ht' : (bridgeRun false rough w₀ (acts ++ [.step i c])).threads[i]? = some t')
    (hreq : t'.req = t.req) (hpast : t'.view.past = ⟨op, (bridgeRun false rough w₀ acts).world,
      ((bridgeServer false rough).exec c op (bridgeRun false rough w₀ acts).world).1⟩ :: t.view.past) :
    (if hasHanded rough id t' then 1 else 0) + (claimInHand id rough).holds t'.req t'.view t'.prog
      ≤ (claimInHand id rough).holds t.req t.view t.prog
        + if claimsRow rough id (bridgeRun false rough w₀ acts) (.step i c) then 1 else 0 := by
  have htm := List.mem_of_getElem? ht
  cases hpoll : t.req.claimId? with
  | none =>
    have hnot : hasHanded rough id t' = false := by
      by_contra hh
      obtain ⟨key, claimId, _, hr, _⟩ := hasHanded_spec (Bool.not_eq_false _ ▸ hh)
      rw [← hreq, hr] at hpoll
      cases hpoll
    rw [hnot, holds_other (hreq ▸ hpoll)]
    exact Nat.zero_le _
  | some claimId =>
    obtain ⟨key, hr⟩ := poll_of_claimId hpoll
    have hop := poll_next htm hr hk
    rw [claimsRow_call ht hk, hreq, hr]
    show _ + (if t'.outcome.isNone && t'.view.past.any (claimedBy id claimId) then 1 else 0)
      ≤ (if t.outcome.isNone && t.view.past.any (claimedBy id claimId) then 1 else 0) + _
    have hwaits : t.outcome.isNone = true := by
      unfold Sys.Thread.outcome
      rw [hk]
      rfl
    rw [hwaits, Bool.true_and]
    -- what the poll has claimed, it had claimed before or claims now
    have hnow : t'.view.past.any (claimedBy id claimId) = true →
        1 ≤ (if t.view.past.any (claimedBy id claimId) then 1 else 0)
          + if claimsCall rough id (.poll key claimId) c op (bridgeRun false rough w₀ acts).world
            then 1 else 0 := by
      intro hany
      rw [hpast, List.any_cons, Bool.or_eq_true] at hany
      rcases hany with hany | hany
      · rw [claimsCall_of_claimedBy hop hany, if_pos rfl]
        exact Nat.le_add_left _ _
      · rw [hany, if_pos rfl]
        exact Nat.le_add_right _ _
    by_cases hh : hasHanded rough id t' = true
    · obtain ⟨key', claimId', handed, hr', hout, row, hrow, rfl⟩ := hasHanded_spec hh
      rw [hreq, hr] at hr'
      cases hr'
      rw [if_pos hh, hout]
      -- what is handed out was read back under the claim id
      have hpost := (bridge_ok rough w₀ (acts ++ [.step i c])).post (List.mem_of_getElem? ht') hout
      rw [hreq, hr] at hpost
      refine hnow ?_
      rcases hpost with rfl | ⟨e, he, rfl⟩
      · cases hrow
      · obtain ⟨d, hd, hc, _⟩ := mem_claimedUnder hrow
        rw [hpast] at he ⊢
        rw [List.any_cons, Bool.or_eq_true]
        right
        rcases List.mem_cons.mp he with rfl | he
        · exact h.own t htm key claimId hr d hd hc
        · exact h.seen t htm key claimId hr e he d hd hc
    · rw [if_neg hh, Nat.zero_add]
      by_cases hany : (t'.outcome.isNone && t'.view.past.any (claimedBy id claimId)) = true
      · rw [if_pos hany]
        exact hnow (Bool.and_eq_true_iff.mp hany).2
      · rw [if_neg hany]
        exact Nat.zero_le _

/-- What is handed out with a step is handed out by the program that moved, which had not
returned. -/
theorem handsOut_spec {p : (bridgeServer false rough).Pool} {i : ℕ} {c : Choice}
    (h : handsOut rough id p (.step i c) = true) :
    (∃ t, p.threads[i]? = some t ∧ t.outcome = none)
      ∧ ∃ t, (p.step i c).threads[i]? = some t ∧ hasHanded rough id t = true := by
  obtain ⟨hwaits, hhas⟩ := Bool.and_eq_true_iff.mp h
  obtain ⟨t, ht, hnone⟩ := (Option.any_eq_true _ _).mp hwaits
  exact ⟨⟨t, ht, Option.isNone_iff_eq_none.mp hnone⟩, (Option.any_eq_true _ _).mp hhas⟩

/-- A step that does nothing. -/
theorem HandsOk.idle (h : HandsOk id rough w₀ acts) {i : ℕ} {c : Choice}
    (hs : (bridgeRun false rough w₀ acts).step i c = bridgeRun false rough w₀ acts) :
    HandsOk id rough w₀ (acts ++ [.step i c]) := by
  have hdrawn : drawnIds (acts ++ [Sys.Action.step i c]) = drawnIds acts :=
    drawnIds_other (fun _ h => by cases h)
  have hrun : bridgeRun false rough w₀ (acts ++ [.step i c]) = bridgeRun false rough w₀ acts :=
    (Sys.Pool.run_concat _ _ _).trans hs
  have hnot : handsOut rough id (bridgeRun false rough w₀ acts) (.step i c) = false := by
    by_contra hout
    obtain ⟨⟨t, ht, hwaits⟩, t', ht', hhas⟩ := handsOut_spec (Bool.not_eq_false _ ▸ hout)
    rw [hs, ht] at ht'
    cases ht'
    obtain ⟨_, _, _, _, hreturned, _⟩ := hasHanded_spec hhas
    rw [hwaits] at hreturned
    cases hreturned
  refine ⟨?_, ?_, ?_, ?_, ?_⟩
  · rw [hrun, hdrawn]
    exact h.threads
  · rw [hrun, hdrawn]
    exact h.carried
  · rw [hrun]
    exact h.own
  · rw [hrun]
    exact h.seen
  · rw [hrun, Sys.Pool.times_concat, Sys.Pool.times_concat]
    rw [show handsOut rough id ((Sys.Pool.init w₀).run acts) (.step i c) = false from hnot,
      if_neg Bool.false_ne_true]
    exact h.count.trans (Nat.le_add_right _ _)

/-- A step starts no poll. -/
theorem polls_step {i : ℕ} {t t' : (bridgeServer false rough).Thread}
    (ht : (bridgeRun false rough w₀ acts).threads[i]? = some t) (hreq : t'.req = t.req) (op : Call)
    (w : World) : ((bridgeRun false rough w₀ acts).threads.set i t'
        ++ ((bridgeServer false rough).spawns op).map (fun j => Sys.start j w)).filterMap
          (fun u => u.req.claimId?)
      = (bridgeRun false rough w₀ acts).threads.filterMap (fun u => u.req.claimId?) := by
  have hset := congrArg (List.filterMap BridgeRequest.claimId?) (Sys.Pool.reqs_set ht hreq)
  rw [List.filterMap_map, List.filterMap_map] at hset
  have hspawned : List.filterMap (fun u : (bridgeServer false rough).Thread => u.req.claimId?)
      (((bridgeServer false rough).spawns op).map (fun j => Sys.start j w)) = [] := by
    rw [List.filterMap_eq_nil_iff]
    intro u hu
    obtain ⟨r, hr, rfl⟩ := List.mem_map.mp hu
    exact spawned_claimId hr
  rw [List.filterMap_append, hspawned, List.append_nil]
  exact hset

/-- **Who gives the row a claim id** is the poll that has drawn it. -/
theorem claimId_given {i : ℕ} {t : (bridgeServer false rough).Thread}
    (ht : (bridgeRun false rough w₀ acts).threads[i]? = some t) {op : Call}
    {k : Except DbError (Call.Res op) → Api BridgeAnswer} (hk : t.prog = .call op k) {c : Choice}
    {w w' : World} (hw : (bridgeRun false rough w₀ acts).world = w)
    (hw' : ((bridgeServer false rough).exec c op w).1 = w') {d' : PosDelivery} {claimId : ℕ}
    (hd' : w'.posDeliveries.get? id = some d') (hc : d'.claimId = some claimId) :
    (∃ d, w.posDeliveries.get? id = some d ∧ d.claimId = some claimId)
      ∨ ((∃ key, t.req = .poll key claimId) ∧ claimedBy id claimId ⟨op, w, w'⟩ = true) := by
  subst hw hw'
  have hsteps : RowSteps rough t.req ⟨op, (bridgeRun false rough w₀ acts).world,
      ((bridgeServer false rough).exec c op (bridgeRun false rough w₀ acts).world).1⟩ :=
    ((bridge_ok rough w₀ acts).answer ht hk (c := c) rfl).1.here
  by_cases hbefore : ∃ d, (bridgeRun false rough w₀ acts).world.posDeliveries.get? id = some d
      ∧ d.claimId = some claimId
  · exact .inl hbefore
  · have hnot : ∀ d, (bridgeRun false rough w₀ acts).world.posDeliveries.get? id = some d →
        d.claimId ≠ some claimId := fun d hd hdc => hbefore ⟨d, hd, hdc⟩
    refine .inr ⟨?_, claimedBy_iff.mpr ⟨⟨d', hd', hc⟩, hnot⟩⟩
    cases hrow : (bridgeRun false rough w₀ acts).world.posDeliveries.get? id with
    | none =>
      rw [(hsteps.fresh id d' hrow hd').2] at hc
      cases hc
    | some d =>
      obtain ⟨d'', hd'', hstep⟩ := hsteps.step id d hrow
      obtain rfl : d' = d'' := Option.some.inj (hd'.symm.trans hd'')
      exact (hstep.claimId (hnot d hrow) hc).1

/-- What a step starts has nothing in hand. -/
theorem held_spawned (op : Call) (w : World) : (claimInHand id rough).held
    (((bridgeServer false rough).spawns op).map (fun j => Sys.start j w)) = 0 := by
  refine List.sum_eq_zero (fun x hx => ?_)
  obtain ⟨u, hu, rfl⟩ := List.mem_map.mp hx
  obtain ⟨r, _, rfl⟩ := List.mem_map.mp hu
  exact holds_start r w _

theorem HandsOk.step (h : HandsOk id rough w₀ acts) (i : ℕ) (c : Choice)
    (hnodup : (drawnIds acts).Nodup) : HandsOk id rough w₀ (acts ++ [.step i c]) := by
  have hdrawn : drawnIds (acts ++ [Sys.Action.step i c]) = drawnIds acts :=
    drawnIds_other (fun _ h => by cases h)
  have hrun : bridgeRun false rough w₀ (acts ++ [.step i c])
      = (bridgeRun false rough w₀ acts).step i c := Sys.Pool.run_concat _ _ _
  rcases (bridgeRun false rough w₀ acts).step_cases i c with hs | ⟨t, op, k, ht, hk, hs⟩
  · exact h.idle hs
  · rw [hs] at hrun
    have htm := List.mem_of_getElem? ht
    have hi : i < (bridgeRun false rough w₀ acts).threads.length :=
      (List.getElem?_eq_some_iff.mp ht).1
    set w := (bridgeRun false rough w₀ acts).world with hw
    set w' := ((bridgeServer false rough).exec c op w).1 with hw'
    set t' : (bridgeServer false rough).Thread := ⟨t.req, t.view.push ⟨op, w, w'⟩,
      k ((bridgeServer false rough).exec c op w).2⟩ with ht'
    have hplace : (bridgeRun false rough w₀ (acts ++ [.step i c])).threads[i]? = some t' := by
      rw [hrun]
      dsimp only
      rw [List.getElem?_append_left (by rw [List.length_set]; exact hi), List.getElem?_set_self hi]
    -- a program is an old one, the one that moved, or a job just started
    have hmem : ∀ u ∈ (bridgeRun false rough w₀ (acts ++ [.step i c])).threads,
        u ∈ (bridgeRun false rough w₀ acts).threads ∨ u = t' ∨ u.req.claimId? = none := by
      intro u hu
      rw [hrun] at hu
      rcases List.mem_append.mp hu with hu | hu
      · exact (List.mem_or_eq_of_mem_set hu).imp_right .inl
      · obtain ⟨r, hr, rfl⟩ := List.mem_map.mp hu
        exact .inr (.inr (spawned_claimId hr))
    have hthreads : ((bridgeRun false rough w₀ (acts ++ [.step i c])).threads.filterMap
        (fun u => u.req.claimId?)).Sublist (drawnIds acts) := by
      have hpolls := polls_step ht (show t'.req = t.req from rfl) op w'
      rw [hrun]
      exact Eq.subst (motive := fun polls => polls.Sublist (drawnIds acts)) hpolls.symm h.threads
    have hpush : ∀ claimId, t.view.past.any (claimedBy id claimId) = true →
        t'.view.past.any (claimedBy id claimId) = true := by
      intro claimId hany
      show (_ :: t.view.past).any (claimedBy id claimId) = true
      rw [List.any_cons, hany, Bool.or_true]
    refine ⟨by rw [hdrawn]; exact hthreads, ?_, ?_, ?_, ?_⟩
    · rw [hdrawn, hrun]
      intro d' claimId hd' hc
      rcases claimId_given ht hk hw.symm hw'.symm hd' hc with ⟨d, hd, hdc⟩ | ⟨⟨key, hr⟩, _⟩
      · exact h.carried d claimId hd hdc
      · exact h.threads.mem (List.mem_filterMap.mpr ⟨t, htm, by rw [hr]; rfl⟩)
    · intro u hu key claimId hreq d' hd' hc
      rw [hrun] at hd'
      rcases claimId_given ht hk hw.symm hw'.symm hd' hc with ⟨d, hd, hdc⟩ | ⟨⟨key', hr⟩, hclaimed⟩
      · rcases hmem u hu with hold | rfl | hnone
        · exact h.own u hold key claimId hreq d hd hdc
        · exact hpush claimId (h.own t htm key claimId hreq d hd hdc)
        · rw [hreq] at hnone
          cases hnone
      · -- no other poll has drawn the id
        obtain ⟨j, hj⟩ := List.getElem?_of_mem hu
        have hsame : i = j := place_unique (hthreads.nodup hnodup) hplace hj (b := claimId)
          (show t.req.claimId? = some claimId by rw [hr]; rfl) (by rw [hreq]; rfl)
        subst hsame
        rw [hplace] at hj
        cases hj
        show (_ :: t.view.past).any (claimedBy id claimId) = true
        rw [List.any_cons, hclaimed, Bool.true_or]
    · intro u hu key claimId hreq e he d hd hc
      rcases hmem u hu with hold | rfl | hnone
      · exact h.seen u hold key claimId hreq e he d hd hc
      · refine hpush claimId ?_
        rcases List.mem_cons.mp he with rfl | he
        · exact h.own t htm key claimId hreq d hd hc
        · exact h.seen t htm key claimId hreq e he d hd hc
      · rw [hreq] at hnone
        cases hnone
    · have hbalance := h.balance ht hk hplace rfl rfl
      have hset := Token.held_set (K := claimInHand id rough) ht t'
      have hhands : (if handsOut rough id (bridgeRun false rough w₀ acts) (.step i c) then 1 else 0)
          ≤ if hasHanded rough id t' then 1 else 0 := by
        by_cases hout : handsOut rough id (bridgeRun false rough w₀ acts) (.step i c) = true
        · obtain ⟨_, u, hu, hhas⟩ := handsOut_spec hout
          rw [hs, ← hrun, hplace] at hu
          cases hu
          rw [if_pos hhas]
          split <;> omega
        · rw [if_neg hout]
          exact Nat.zero_le _
      have hcount := h.count
      have hheld :
          (claimInHand id rough).held (bridgeRun false rough w₀ (acts ++ [.step i c])).threads
            = (claimInHand id rough).held ((bridgeRun false rough w₀ acts).threads.set i t') := by
        rw [hrun, Token.held_append, held_spawned, Nat.add_zero]
      have htimes : ∀ q, (Sys.Pool.init w₀).times q (acts ++ [.step i c])
          = (Sys.Pool.init w₀).times q acts
            + if q (bridgeRun false rough w₀ acts) (.step i c) then 1 else 0 :=
        fun q => Sys.Pool.times_concat q _ acts _
      rw [htimes, htimes, hheld]
      omega

/-- **No delivery is handed out more often than it is claimed**, when no two polls draw the same
id. -/
theorem handsOk_run (h₀ : ∀ d, w₀.posDeliveries.get? id = some d → d.claimId = none)
    (acts : List (bridgeServer false rough).Action) (hnodup : (drawnIds acts).Nodup) :
    HandsOk id rough w₀ acts := by
  induction acts using List.reverseRecOn with
  | nil =>
    refine ⟨List.nil_sublist _, fun d claimId hd hc => ?_, fun t ht => ?_, fun t ht => ?_, le_refl _⟩
    · rw [h₀ d hd] at hc
      cases hc
    · cases ht
    · cases ht
  | append_singleton acts a ih =>
    have hbefore : (drawnIds acts).Nodup := by
      unfold drawnIds at hnodup ⊢
      rw [List.filterMap_append] at hnodup
      exact (List.nodup_append.mp hnodup).1
    cases a with
    | arrive r => exact (ih hbefore).arrive r hnodup
    | step i c => exact (ih hbefore).step i c hbefore
    | env e => exact (ih hbefore).env e

/-- **A delivery is handed out no more often than it is claimed.** -/
theorem handed_run (h₀ : ∀ d, w₀.posDeliveries.get? id = some d → d.claimId = none)
    (acts : List (bridgeServer false rough).Action) (hnodup : (drawnIds acts).Nodup) :
    (Sys.Pool.init w₀).times (handsOut rough id) acts
      ≤ (Sys.Pool.init w₀).times (claimsRow rough id) acts :=
  (Nat.le_add_right _ _).trans (handsOk_run h₀ acts hnodup).count

/-- No call of a sweep writes a delivery for the bridge that is through. -/
theorem RowStep.spared {op : Call} {w : World} {d d' : PosDelivery}
    (h : RowStep rough .sweep op w id d d') (hbridge : d.adapter = .escpos_bridge)
    (hthrough : d.status = .sent ∨ d.status = .failed) : d' = d := by
  cases h with
  | same => rfl
  | claimed hr => cases hr
  | settled hr => cases hr
  | retried hr => cases hr
  | expired _ hclaimed =>
    rw [hclaimed] at hthrough
    rcases hthrough with h | h <;> cases h
  | exhausted _ hpending =>
    rw [hpending] at hthrough
    rcases hthrough with h | h <;> cases h
  | pushed hadapter =>
    rw [hbridge] at hadapter
    cases hadapter
  | refused hadapter =>
    rw [hbridge] at hadapter
    cases hadapter

/-- **Bounded retries and no limbo**: in every run of polls, acks, sweeps and pushes in which
nobody retries, a delivery for the bridge has been tried as often as it was claimed, which is at
most `MAX_ATTEMPTS` times; and a sweep leaves it through, held with time left, or pending with
attempts left. -/
theorem retries_bounded (rough : Bool) (w₀ : World) (id : Id)
    (acts : List (bridgeServer false rough).Action)
    (hfresh : ∀ d, w₀.posDeliveries.get? id = some d → d.Fresh) :
    BoundedRetries rough w₀ id acts := by
  have hattempts := attempts_run (fun d hd => (hfresh d hd).attempts) acts
  refine ⟨hattempts.2, fun hnodup d hd hbridge => ?_, fun d hd hbridge => ?_,
    fun d hd hthrough => ?_, ?_⟩
  · have hhanded := handed_run (fun d hd => (hfresh d hd).claimId) acts hnodup
    obtain ⟨hclaims, hbound⟩ := hattempts.2 d hd hbridge
    rw [← hclaims] at hhanded
    exact hhanded.trans hbound
  · have hsettled : (d.reconciled (bridgeRun false rough w₀ acts).world.now).Settled :=
      .inl ((reconciled_adapter _ d).trans hbridge)
    exact ⟨_, get?_after_sweep hd hsettled, reconciled_swept _ d⟩
  · have hsame := reconciled_through hthrough (bridgeRun false rough w₀ acts).world.now
    have hsettled : (d.reconciled (bridgeRun false rough w₀ acts).world.now).Settled := by
      rw [hsame]
      refine .inr (fun h => ?_)
      rw [h] at hthrough
      rcases hthrough with h | h <;> cases h
    rw [get?_after_sweep hd hsettled, hsame]
  · intro pre i c post _ t ht hsweep d hd hbridge hthrough
    rcases row_act id w₀ pre (.step i c) with ⟨hclaims, _⟩ | ⟨_, hrow⟩
    · obtain ⟨_, _, u, _, _, ha, hu, _, key, claimId, hpoll⟩ := claimsRow_spec hclaims
      cases ha
      rw [ht] at hu
      cases hu
      rw [hsweep] at hpoll
      cases hpoll
    · rcases hrow with hsame | ⟨_, _, u, op, ha, hu, _, _, _, _, hsteps⟩
      · rw [hsame]
        exact hd
      · cases ha
        rw [ht] at hu
        cases hu
        obtain ⟨d', hd', hstep⟩ := hsteps.step id d hd
        rw [hsweep] at hstep
        rw [← hstep.spared hbridge hthrough]
        exact hd'

/-- Two agents are given up one after the other: the delivery has been handed out twice, and the
sweep would leave it with the second. -/
theorem retries_bounded_twice :
    (Sys.Pool.init kitchenBehindBridge).times (handsOut false 0) claimedTwice = 2
      ∧ BoundedRetries false kitchenBehindBridge 0 claimedTwice := by
  refine ⟨by decide +kernel, retries_bounded false kitchenBehindBridge 0 claimedTwice ?_⟩
  intro d hd
  cases hd
  exact ⟨rfl, rfl, rfl, rfl⟩

end

end Masadan
