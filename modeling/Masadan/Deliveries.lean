import Masadan.Bridge
import Masadan.History

/-!
# What happens to a delivery

A delivery is written once and then moved along: claimed by a poll, settled by an
ack, released by the sweep, pushed, retried. This module says once what a call of
each request may do to a row (`RowStep`), and that the requests do nothing else,
whatever they are interleaved with and whichever of their calls fail
(`deliverySound`). What is true of a delivery over whole runs is read off from
that: see `Masadan.ClaimedOnce`, `Masadan.SentFinal` and `Masadan.Printed`.
-/

namespace Masadan

/-- What a delivery keeps for good. -/
structure SameTicket (d d' : PosDelivery) : Prop where
  venueId : d'.venueId = d.venueId
  orderId : d'.orderId = d.orderId
  adapter : d'.adapter = d.adapter
  payload : d'.payload = d.payload
  createdAt : d'.createdAt = d.createdAt

theorem SameTicket.refl (d : PosDelivery) : SameTicket d d := ⟨rfl, rfl, rfl, rfl, rfl⟩

theorem SameTicket.trans {d d' d'' : PosDelivery} (h : SameTicket d d') (h' : SameTicket d' d'') :
    SameTicket d d'' :=
  ⟨h'.venueId.trans h.venueId, h'.orderId.trans h.orderId, h'.adapter.trans h.adapter,
    h'.payload.trans h.payload, h'.createdAt.trans h.createdAt⟩

/-- What the sweep writes into a claim it releases. -/
def expire (d : PosDelivery) : PosDelivery :=
  { d with status := .pending, claimId := none, claimedAt := none, lastError := some claimExpired }

/-- A claim that has no time, or was made before a time. -/
def PosDelivery.StaleBefore (d : PosDelivery) (t : Time) : Prop :=
  d.claimedAt = none ∨ ∃ claimedAt, d.claimedAt = some claimedAt ∧ claimedAt < t

theorem PosDelivery.StaleBefore.mono {d : PosDelivery} {t t' : Time} (h : d.StaleBefore t)
    (ht : t ≤ t') : d.StaleBefore t' :=
  h.imp_right (fun ⟨claimedAt, hc, hlt⟩ => ⟨claimedAt, hc, hlt.trans_le ht⟩)

/-- **What one call of a request may do to a delivery.** -/
inductive RowStep (rough : Bool) (r : BridgeRequest) (op : Call) (w : World) (id : Id)
    (d : PosDelivery) : PosDelivery → Prop where
  | same : RowStep rough r op w id d d
  /-- A poll claims a claimable row under its own claim id. -/
  | claimed {key : Option Text} {claimId : ℕ} {venueId : Id} {staleBefore claimedAt : Time}
      (hr : r = .poll key claimId) (hclaimable : claimable venueId staleBefore d = true)
      (hstale : staleBefore ≤ w.now - CLAIM_TIMEOUT_MS) :
      RowStep rough r op w id d (claim claimedAt claimId d)
  /-- An ack settles the row it names, whatever it holds. -/
  | settled {key : Option Text} {body : AckBody} {attempts : ℕ} (hr : r = .ack key body)
      (hid : body.deliveryId = some id)
      (hop : op = .posDeliveryUpdate id (settle body attempts)) :
      RowStep rough r op w id d (settle body attempts d)
  /-- A retry resets the row it names. -/
  | retried {staff : Option StaffClaims} (hr : r = .retry staff id)
      (hop : op = .posDeliveryUpdate id again) :
      RowStep rough r op w id d (again d)
  /-- The sweep releases a claim that is too old, or has no time. -/
  | expired (hr : r = .sweep) (hclaimed : d.status = .claimed)
      (hstale : d.StaleBefore (w.now - CLAIM_TIMEOUT_MS)) (claimedAt : Option Time) :
      RowStep rough r op w id d { expire d with claimedAt := claimedAt }
  /-- The sweep gives up a row that was tried too often. -/
  | exhausted (hr : r = .sweep) (hpending : d.status = .pending) :
      RowStep rough r op w id d { d with status := .failed }
  /-- A push of a delivery to the console is done; or it could not be recorded, which a
  call that fails brings about. -/
  | pushed (hadapter : d.adapter = .console) :
      RowStep rough r op w id d { d with status := .sent, attempts := d.attempts + 1 }
  | refused (hadapter : d.adapter = .console) (hrough : rough = true) (attempts : ℕ)
      (error : Text) :
      RowStep rough r op w id d (deliveryFailed attempts error d)

variable {retries rough : Bool} {r : BridgeRequest} {op : Call} {w w' : World} {id : Id}
  {d d' : PosDelivery}

theorem RowStep.sameTicket (h : RowStep rough r op w id d d') : SameTicket d d' := by
  cases h with
  | settled hr hid hop =>
    unfold settle
    split
    · exact ⟨rfl, rfl, rfl, rfl, rfl⟩
    · exact ⟨rfl, rfl, rfl, rfl, rfl⟩
  | _ => exact ⟨rfl, rfl, rfl, rfl, rfl⟩

theorem claimable_cases {venueId : Id} {staleBefore : Time}
    (h : claimable venueId staleBefore d = true) :
    d.status = .pending ∨ (d.status = .claimed ∧ d.StaleBefore staleBefore) := by
  simp only [claimable, Bool.and_eq_true, Bool.or_eq_true, beq_iff_eq] at h
  rcases h.2 with (hpending | ⟨hclaimed, hstale⟩) | ⟨hclaimed, hnone⟩
  · exact .inl hpending
  · refine .inr ⟨hclaimed, ?_⟩
    cases hat : d.claimedAt with
    | none => exact .inl hat
    | some claimedAt =>
      rw [hat] at hstale
      exact .inr ⟨claimedAt, hat, of_decide_eq_true hstale⟩
  · exact .inr ⟨hclaimed, .inl (Option.isNone_iff_eq_none.mp hnone)⟩

/-- The status of a delivery. -/
def World.deliveryStatus (w : World) (id : Id) : Option DeliveryStatus :=
  (w.posDeliveries.get? id).map (fun d => d.status)

theorem deliveryStatus_eq_some {w : World} {id : Id} {s : DeliveryStatus} :
    w.deliveryStatus id = some s ↔ ∃ d, w.posDeliveries.get? id = some d ∧ d.status = s :=
  Option.map_eq_some_iff

/-- The delivery is claimed under the id. -/
def World.ClaimedUnder (w : World) (claimId : ℕ) (id : Id) : Prop :=
  ∃ d, w.posDeliveries.get? id = some d ∧ d.status = .claimed ∧ d.claimId = some claimId

/-- A row a poll hands out carries its claim id. -/
theorem mem_claimedUnder {w : World} {claimId : ℕ} {h : Handed} (hmem : h ∈ w.claimedUnder claimId) :
    ∃ d, w.posDeliveries.get? h.id = some d ∧ d.claimId = some claimId ∧ h.payload = d.payload := by
  obtain ⟨⟨id, d⟩, hd, hhand⟩ := List.mem_filterMap.mp hmem
  obtain ⟨hget, hclaim⟩ := Rows.mem_filter.mp ((orderBy_perm _ _).mem_iff.mp hd)
  unfold World.hand at hhand
  dsimp only at hhand
  split at hhand
  · cases hhand
  · obtain ⟨t, _, rfl⟩ := Option.map_eq_some_iff.mp hhand
    exact ⟨d, hget, beq_iff_eq.mp hclaim, rfl⟩

/-- What a call did to the deliveries: each was moved along, and a new one is pending. -/
structure RowSteps (rough : Bool) (r : BridgeRequest) (e : Event api World) : Prop where
  step : ∀ id d, e.before.posDeliveries.get? id = some d →
    ∃ d', e.after.posDeliveries.get? id = some d' ∧ RowStep rough r e.op e.before id d d'
  fresh : ∀ id d', e.before.posDeliveries.get? id = none →
    e.after.posDeliveries.get? id = some d' → d'.status = .pending ∧ d'.claimId = none

/-- No delivery goes away or changes what it is, and time does not go back. -/
structure DeliveriesKept (w w' : World) : Prop where
  now : w.now ≤ w'.now
  kept : ∀ id d, w.posDeliveries.get? id = some d →
    ∃ d', w'.posDeliveries.get? id = some d' ∧ SameTicket d d'

theorem DeliveriesKept.of_eq (hnow : w.now ≤ w'.now) (h : w'.posDeliveries = w.posDeliveries) :
    DeliveriesKept w w' :=
  ⟨hnow, fun _ d hd => ⟨d, by rw [h]; exact hd, SameTicket.refl d⟩⟩

theorem DeliveriesKept.trans {w'' : World} (h : DeliveriesKept w w') (h' : DeliveriesKept w' w'') :
    DeliveriesKept w w'' := by
  refine ⟨h.now.trans h'.now, fun id d hd => ?_⟩
  obtain ⟨d₁, hd₁, hs₁⟩ := h.kept id d hd
  obtain ⟨d₂, hd₂, hs₂⟩ := h'.kept id d₁ hd₁
  exact ⟨d₂, hd₂, hs₁.trans hs₂⟩

/-- What the requests promise: each call does to a delivery what its request may. -/
abbrev deliveryProtocol (retries rough : Bool) : Protocol (bridgeServer retries rough) where
  Inv _ := True
  Evolves := DeliveriesKept
  refl _ := DeliveriesKept.of_eq (le_refl _) rfl
  Local r _ e := RowSteps rough r e

theorem rely_kept (h : (deliveryProtocol retries rough).Rely w w') : DeliveriesKept w w' :=
  h.evolves DeliveriesKept.trans

/-! ## Calls -/

section

variable {v : View api World}

/-- A call that moves each delivery along. -/
theorem takes_map {g : Id → PosDelivery → PosDelivery} (hnow : w'.now = w.now)
    (hget : ∀ k, w'.posDeliveries.get? k = (w.posDeliveries.get? k).map (g k))
    (hstep : ∀ k d, w.posDeliveries.get? k = some d → RowStep rough r op w k d (g k d)) :
    (deliveryProtocol retries rough).Takes r v ⟨op, w, w'⟩ := by
  have hsome : ∀ k d, w.posDeliveries.get? k = some d →
      w'.posDeliveries.get? k = some (g k d) := by
    intro k d hd
    rw [hget, hd, Option.map_some]
  refine ⟨trivial, ⟨hnow.ge, fun k d hd => ⟨g k d, hsome k d hd, (hstep k d hd).sameTicket⟩⟩,
    fun k d hd => ⟨g k d, hsome k d hd, hstep k d hd⟩, fun k d' hnone hd' => ?_⟩
  dsimp only at hnone hd'
  rw [hget, hnone] at hd'
  cases hd'

/-- A call that leaves the deliveries alone. -/
theorem takes_same (hnow : w'.now = w.now) (h : w'.posDeliveries = w.posDeliveries) :
    (deliveryProtocol retries rough).Takes r v ⟨op, w, w'⟩ :=
  takes_map (g := fun _ d => d) hnow (fun k => by rw [h]; cases w.posDeliveries.get? k <;> rfl)
    (fun _ _ _ => .same)

theorem takes_query {α : Type} (r : BridgeRequest) (v : View api World) (w : World)
    (q : World → α) (_ : (deliveryProtocol retries rough).Inv w) :
    (deliveryProtocol retries rough).Takes r v ⟨.query q, w, w⟩ :=
  takes_same rfl rfl

/-- An update by id, answered or failed. -/
theorem takes_updateAt {c : Choice} {data : PosDelivery → PosDelivery} {x : Except DbError Unit}
    (hx : Yields rough c (.posDeliveryUpdate id data) w w' x)
    (hstep : ∀ d, w.posDeliveries.get? id = some d →
      RowStep rough r (.posDeliveryUpdate id data) w id d (data d)) :
    (deliveryProtocol retries rough).Takes r v ⟨.posDeliveryUpdate id data, w, w'⟩ := by
  rcases hx with hx | ⟨_, rfl, _⟩
  · replace hx : w.posDeliveryUpdate id data = (w', x) := hx
    unfold World.posDeliveryUpdate at hx
    split at hx
    · cases hx
      exact takes_same rfl rfl
    · cases hx
      refine takes_map rfl (fun k => Rows.get?_updateAt _ _ _ k) (fun k d hd => ?_)
      by_cases hk : k = id
      · subst hk
        rw [if_pos rfl]
        exact hstep d hd
      · rw [if_neg hk]
        exact .same
  · exact takes_same rfl rfl

/-- An update of several rows, answered or failed. -/
theorem takes_updateMany {c : Choice} {cond : Time → Id → PosDelivery → Bool}
    {data : PosDelivery → PosDelivery} {x : Except DbError ℕ}
    (hx : Yields rough c (.posDeliveryUpdateMany cond data) w w' x)
    (hstep : ∀ k d, w.posDeliveries.get? k = some d → cond w.now k d = true →
      RowStep rough r (.posDeliveryUpdateMany cond data) w k d (data d)) :
    (deliveryProtocol retries rough).Takes r v ⟨.posDeliveryUpdateMany cond data, w, w'⟩ := by
  rcases hx with hx | ⟨_, rfl, _⟩
  · cases hx
    refine takes_map rfl (fun k => Rows.get?_update _ _ _ k) (fun k d hd => ?_)
    by_cases hk : cond w.now k d = true
    · rw [if_pos hk]
      exact hstep k d hd hk
    · rw [if_neg hk]
      exact .same
  · exact takes_same rfl rfl

/-- A new delivery. -/
theorem takes_create {c : Choice} {data : NewPosDelivery} {x : Except DbError Id}
    (hx : Yields rough c (.posDeliveryCreate data) w w' x) :
    (deliveryProtocol retries rough).Takes r v ⟨.posDeliveryCreate data, w, w'⟩ := by
  rcases hx with hx | ⟨_, rfl, _⟩
  · cases hx
    have hsome : ∀ k d, w.posDeliveries.get? k = some d →
        (w.posDeliveryCreate data).posDeliveries.get? k = some d :=
      fun k d hd => Rows.get?_create_of_some hd
    refine ⟨trivial, ⟨le_refl _, fun k d hd => ⟨d, hsome k d hd, SameTicket.refl d⟩⟩,
      fun k d hd => ⟨d, hsome k d hd, .same⟩, fun k d' hnone hd' => ?_⟩
    replace hd' : (w.posDeliveries.create _).get? k = some d' := hd'
    rw [Rows.get?_create] at hd'
    split at hd'
    · cases hd'
      exact ⟨rfl, rfl⟩
    · dsimp only at hnone
      rw [hnone] at hd'
      cases hd'
  · exact takes_same rfl rfl

end

/-! ## Handlers -/

section

variable {v : View api World}

/-- What a poll hands out is what it has read back under its claim. -/
def HandsOut (claimId : ℕ) (v : View api World) : Except DbError PendingAnswer → Prop
  | .ok (.deliveries handed) =>
    handed = [] ∨ ∃ e ∈ v.past, handed = e.before.claimedUnder claimId
  | _ => True

theorem venueForBridgeKey_ok (key : Option Text) {α : Type}
    {Q : View api World → Except DbError α → Prop} {f : Option Id → Api α}
    (hnone : ∀ v, (deliveryProtocol retries rough).Ok r Q v (f none))
    (hsome : ∀ v id, (deliveryProtocol retries rough).Ok r Q v (f (some id)))
    (he : ∀ v e, Q v (.error e)) :
    (deliveryProtocol retries rough).Ok r Q v ((venueForBridgeKey key).bind f) := by
  unfold venueForBridgeKey
  cases key with
  | none => exact hnone v
  | some keyHash =>
    refine ok_any_query takes_query _ (fun w _ _ => ?_) (fun w => he _ _)
    cases (w.bridgeKeys.find? (fun _ k => k.keyHash == keyHash)) with
    | none => exact hnone _
    | some k => exact hsome _ _

theorem getPending_ok (key : Option Text) (claimId : ℕ) (hr : r = .poll key claimId) :
    (deliveryProtocol retries rough).Ok r (HandsOut claimId) v (getPending key claimId) := by
  unfold getPending
  refine venueForBridgeKey_ok key (fun v => trivial) (fun v venueId => ?_) (fun _ _ => trivial)
  refine ok_any_query takes_query _ (fun w₁ _ _ => ?_) (fun _ => trivial)
  refine ok_any_query takes_query _ (fun w₂ _ h₂ => ?_) (fun _ => trivial)
  split
  · exact .inl rfl
  · refine ok_any_query takes_query _ (fun w₃ _ h₃ => ?_) (fun _ => trivial)
    refine ok_any (fun w c w' x _ h _ hx => ⟨takes_updateMany hx (fun k d hd hc => ?_), ?_⟩)
    · -- the claim is as old as it was when the poll began, at least
      have hnow : w₁.now ≤ w.now :=
        ((rely_kept h₂).now.trans (rely_kept h₃).now).trans (rely_kept h).now
      exact .claimed hr (Bool.and_eq_true_iff.mp hc).2 (Int.sub_le_sub_right hnow _)
    · cases x with
      | error e => exact trivial
      | ok n =>
        refine ok_any_query takes_query _ (fun w₄ _ _ => ?_) (fun _ => trivial)
        exact .inr ⟨_, List.mem_cons_self, rfl⟩

theorem postAck_ok (key : Option Text) (body : AckBody) (hr : r = .ack key body) :
    (deliveryProtocol retries rough).Ok r (fun _ _ => True) v (postAck key body) := by
  unfold postAck
  refine venueForBridgeKey_ok key (fun v => trivial) (fun v venueId => ?_) (fun _ _ => trivial)
  refine ok_any_query takes_query _ (fun w₁ _ _ => ?_) (fun _ => trivial)
  split
  · exact trivial
  · next id delivery hfound =>
    obtain ⟨id', hid, hrow⟩ := Option.bind_eq_some_iff.mp hfound
    obtain ⟨d, _, heq⟩ := Option.map_eq_some_iff.mp hrow
    obtain ⟨rfl, rfl⟩ := Prod.mk.inj heq
    split
    · exact trivial
    · refine ok_any (fun w c w' x _ _ _ hx => ⟨takes_updateAt hx (fun d' _ => ?_), ?_⟩)
      · exact .settled hr hid rfl
      · cases x with
        | ok _ => exact trivial
        | error _ => exact trivial

theorem retryDelivery_ok (staff : Option StaffClaims) (id : Id) (hr : r = .retry staff id) :
    (deliveryProtocol retries rough).Ok r (fun _ _ => True) v (retryDelivery staff id) := by
  unfold retryDelivery
  cases staff with
  | none => exact trivial
  | some staff =>
    refine ok_any_query takes_query _ (fun w₁ _ _ => ?_) (fun _ => trivial)
    split
    · exact trivial
    · refine ok_any (fun w c w' x _ _ _ hx => ⟨takes_updateAt hx (fun d' _ => .retried hr rfl), ?_⟩)
      cases x with
      | ok _ => exact trivial
      | error _ => exact trivial

/-- A push: only the console is pushed to. -/
theorem attemptDelivery_ok (deliveryId : Id) (ticket : Ticket) :
    (deliveryProtocol retries rough).Ok r (fun _ _ => True) v
      (attemptDelivery deliveryId ticket) := by
  unfold attemptDelivery
  refine ok_any_query takes_query _ (fun w₁ _ _ => ?_) (fun _ => trivial)
  split
  · exact trivial
  · next delivery hfound =>
    split
    · exact trivial
    · unfold push
      dsimp only
      -- the adapter decides, and a delivery keeps its adapter
      have hkeeps : ∀ w d, (deliveryProtocol retries rough).Rely w₁ w →
          w.posDeliveries.get? deliveryId = some d → d.adapter = delivery.adapter := by
        intro w d h hd
        obtain ⟨d₁, hd₁, hs⟩ := (rely_kept h).kept deliveryId delivery hfound
        rw [hd] at hd₁
        cases hd₁
        exact hs.adapter
      cases hadapter : delivery.adapter with
      | escpos_bridge => exact trivial
      | console =>
        rw [hadapter] at hkeeps
        refine ok_any_call (fun w c w' x _ h _ hx => ?_)
        have hstep : (deliveryProtocol retries rough).Takes r
            (v.push ⟨.query (fun u : World => u.posDeliveries.get? deliveryId), w₁, w₁⟩)
            ⟨_, w, w'⟩ := takes_updateAt hx (fun d' hd' => .pushed (hkeeps w d' h hd'))
        refine ⟨hstep, ?_⟩
        cases x with
        | ok _ => exact trivial
        | error e =>
          -- the row is there, so the update has failed
          have hrough : rough = true := by
            rcases hx with hx | ⟨hrough, _⟩
            · obtain ⟨d₁, hd₁, _⟩ := (rely_kept h).kept deliveryId delivery hfound
              replace hx : w.posDeliveryUpdate deliveryId _ = (w', .error e) := hx
              unfold World.posDeliveryUpdate at hx
              rw [hd₁] at hx
              cases hx
            · exact hrough
          refine ok_any_call (fun w₂ c₂ w₂' x₂ _ h₂ _ hx₂ => ⟨takes_updateAt hx₂ (fun d' hd' =>
            .refused (hkeeps w₂ d' ((h.trans' (.single hstep.evolves)).trans' h₂) hd') hrough _ _), ?_⟩)
          cases x₂ with
          | ok _ => exact trivial
          | error _ => exact trivial

theorem enqueuePosDelivery_ok (orderId : Id) (amendment : Option Amendment) :
    (deliveryProtocol retries rough).Ok r (fun _ _ => True) v
      (enqueuePosDelivery orderId amendment) := by
  unfold enqueuePosDelivery
  refine Protocol.ok_bind (Protocol.ok_attempt (Protocol.ok_mono
    (Q := fun _ _ => True) ?_ (fun _ _ _ => trivial)))
  unfold enqueueBody
  refine ok_any_query takes_query _ (fun w₁ _ _ => ?_) (fun _ => trivial)
  split
  · exact trivial
  · refine ok_any (fun w c w' x _ _ _ hx => ⟨takes_create hx, ?_⟩)
    cases x with
    | ok delivery => exact attemptDelivery_ok delivery _
    | error e => exact trivial

theorem retryEach_ok (rows : List (Id × Ticket)) :
    (deliveryProtocol retries rough).Ok r (fun _ _ => True) v (retryEach rows) := by
  induction rows generalizing v with
  | nil => exact trivial
  | cons row rest ih =>
    refine Protocol.ok_bind (Protocol.ok_mono (attemptDelivery_ok row.1 row.2) (fun v' x _ => ?_))
    cases x with
    | ok _ => exact ih
    | error _ => exact trivial

theorem sweepPosDeliveries_ok (hr : r = .sweep) :
    (deliveryProtocol retries rough).Ok r (fun _ _ => True) v sweepPosDeliveries := by
  unfold sweepPosDeliveries
  refine ok_any_query takes_query _ (fun w₁ _ _ => ?_) (fun _ => trivial)
  refine ok_any (fun w c w' x _ h _ hx => ⟨takes_updateMany hx (fun k d _ hc => ?_), ?_⟩)
  · -- the claim was old enough when the sweep began, so it is now
    obtain ⟨hclaimed, hstale⟩ := Bool.and_eq_true_iff.mp hc
    refine .expired hr (beq_iff_eq.mp hclaimed) ?_ none
    cases hat : d.claimedAt with
    | none => exact .inl hat
    | some claimedAt =>
      rw [hat] at hstale
      exact .inr ⟨claimedAt, hat,
        (of_decide_eq_true hstale).trans_le (Int.sub_le_sub_right (rely_kept h).now _)⟩
  · cases x with
    | error e => exact trivial
    | ok n =>
      refine ok_any (fun w c w' x _ h _ hx => ⟨takes_updateMany hx (fun k d _ hc => ?_), ?_⟩)
      · obtain ⟨hclaimed, hnone⟩ := Bool.and_eq_true_iff.mp hc
        exact .expired hr (beq_iff_eq.mp hclaimed) (.inl (Option.isNone_iff_eq_none.mp hnone))
          d.claimedAt
      · cases x with
        | error e => exact trivial
        | ok n =>
          refine ok_any (fun w c w' x _ h _ hx => ⟨takes_updateMany hx (fun k d _ hc => ?_), ?_⟩)
          · exact .exhausted hr (beq_iff_eq.mp (Bool.and_eq_true_iff.mp hc).1)
          · cases x with
            | error e => exact trivial
            | ok n =>
              refine ok_any_query takes_query _ (fun w₂ _ _ => ?_) (fun _ => trivial)
              refine Protocol.ok_bind (Protocol.ok_mono (retryEach_ok _) (fun v' x _ => ?_))
              cases x with
              | ok _ => exact trivial
              | error _ => exact trivial

end

/-! ## The law -/

/-- What each answer promises. -/
def bridgePost : BridgeRequest → View api World → Except DbError BridgeAnswer → Prop
  | .poll _ claimId, v, .ok (.polled a) => HandsOut claimId v (.ok a)
  | _, _, _ => True

/-- **The requests do to a delivery what they may, and nothing else.** -/
theorem deliverySound (retries rough : Bool) :
    (deliveryProtocol retries rough).Sound bridgePost where
  env e w _ := by
    cases e with
    | tick ms =>
      exact ⟨trivial, DeliveriesKept.of_eq
        (Int.le_add_of_nonneg_right (Int.natCast_nonneg ms)) rfl⟩
    | crash => exact ⟨trivial, DeliveriesKept.of_eq (le_refl _) rfl⟩
  entry r w _ := by
    cases r with
    | poll key claimId =>
      refine Protocol.ok_map (Protocol.ok_mono (getPending_ok key claimId rfl) (fun v x hx => ?_))
      cases x with
      | ok a => exact hx
      | error e => exact trivial
    | ack key body =>
      exact Protocol.ok_map (Protocol.ok_mono (postAck_ok key body rfl) (fun _ _ _ => trivial))
    | retry staff id =>
      exact Protocol.ok_map (Protocol.ok_mono (retryDelivery_ok staff id rfl)
        (fun _ _ _ => trivial))
    | enqueue j =>
      exact Protocol.ok_map (Protocol.ok_mono (enqueuePosDelivery_ok j.orderId j.amendment)
        (fun _ _ _ => trivial))
    | sweep =>
      exact Protocol.ok_map (Protocol.ok_mono (sweepPosDeliveries_ok rfl) (fun _ _ _ => trivial))

/-- Where there are no retries, no program is one. -/
theorem no_retry {rough : Bool} {w₀ : World} {acts : List (bridgeServer false rough).Action}
    {t : (bridgeServer false rough).Thread} (ht : t ∈ (bridgeRun false rough w₀ acts).threads)
    (staff : Option StaffClaims) (k : Id) : t.req ≠ .retry staff k := by
  intro hreq
  rcases Sys.Pool.req_allowed ht with h | ⟨op, h⟩
  · rw [hreq] at h
    cases h
  · obtain ⟨job, _, hjob⟩ := spawns_cases h
    rw [hreq] at hjob
    cases List.mem_singleton.mp hjob

end Masadan
