import Masadan.Accounts
import Masadan.HouseStaff
import Masadan.LastPaper

/-!
# The laws of the house

Agents and jobs keep house too, and so every request does (`houseSound`). What follows is
true of every run of the whole server, whoever asks for what, in whatever order the calls of
the handlers are answered, whichever of them fail and wherever the process crashes:

* `house_coherent`: what a row refers to is there, at the same table and of the same venue,
  and what was announced of an order is so;
* `history_kept`: history is not rewritten;
* `touches_own`: a request touches nothing but what it may.
-/

namespace Masadan

section

variable {hmac : Hmac} {bcrypt : Bcrypt} {r : HouseRequest} {v : View api World}

/-! ## Agents -/

/-- The venue of a key. -/
theorem venueForBridgeKey_house (key : Option Text) :
    HouseOk hmac bcrypt r (fun v' x => ∀ venueId, x = some venueId → ∃ e ∈ v'.past, ∃ id row,
      e.before.bridgeKeys.get? id = some row ∧ key = some row.keyHash ∧ venueId = row.venueId) v
      (venueForBridgeKey key) := by
  unfold venueForBridgeKey
  cases key with
  | none => exact houseOk_ret (fun _ h => by cases h)
  | some keyHash =>
    refine houseOk_call (fun _ _ _ => trivial) (fun w w' x _ _ _ hx => ?_)
    rcases hx with ⟨e, rfl⟩ | ⟨c, hexec⟩
    · exact houseOk_raise
    · cases hexec
      refine houseOk_ret (fun venueId hfound => ?_)
      obtain ⟨row, hrow, rfl⟩ := Option.map_eq_some_iff.mp hfound
      obtain ⟨hget, hp⟩ := Rows.find?_eq_some hrow
      exact ⟨_, List.mem_cons_self, row.1, row.2, hget, congrArg some (beq_iff_eq.mp hp).symm, rfl⟩

/-- What an agent may touch. -/
abbrev AgentMay (past : List (Event api World)) (key : Option Text) (a : Addr) : Prop :=
  ∃ e ∈ past, ∃ id row, e.before.bridgeKeys.get? id = some row ∧ key = some row.keyHash
    ∧ a.venue = row.venueId

theorem AgentMay.of {past past' : List (Event api World)} {key : Option Text} {venueId : Id}
    (h : ∃ e ∈ past, ∃ id row, e.before.bridgeKeys.get? id = some row ∧ key = some row.keyHash
      ∧ venueId = row.venueId) (hpast : past <:+ past') {a : Addr} (ha : a.venue = venueId) :
    AgentMay past' key a := by
  obtain ⟨e, he, id, row, hrow, hkey, hvenue⟩ := h
  exact ⟨e, hpast.mem he, id, row, hrow, hkey, ha.trans hvenue⟩

/-- **A poll** claims deliveries of its key's venue. -/
theorem getPending_house {key : Option Text} {claimId : ℕ}
    (hmay : ∀ past a, AgentMay past key a → r.mayTouch past .delivery a) :
    HouseOk hmac bcrypt r (fun _ _ => True) v (getPending key claimId) := by
  unfold getPending
  refine houseOk_bind (venueForBridgeKey_house key) (fun v₁ found hfound _ _ => ?_)
  cases found with
  | none => exact houseOk_ret trivial
  | some venueId =>
    refine houseOk_read _ (fun w₁ _ _ => ?_)
    refine houseOk_read _ (fun w₂ _ _ => ?_)
    show HouseOk _ _ _ _ _ (if _ then _ else _)
    split
    · exact houseOk_ret trivial
    · refine houseOk_read _ (fun w₃ _ _ => ?_)
      refine houseOk_perform (fun w _ _ id d _ hp => ⟨⟨rfl, rfl, rfl, rfl, rfl⟩, ?_⟩)
        (fun _ _ _ _ _ _ _ _ => houseOk_read _ (fun _ _ _ => houseOk_ret trivial))
      have hclaimable := (Bool.and_eq_true_iff.mp hp).2
      unfold claimable at hclaimable
      simp only [Bool.and_eq_true, beq_iff_eq] at hclaimable
      exact hmay _ _ (AgentMay.of (hfound venueId rfl) ⟨[_, _, _], rfl⟩ hclaimable.1.1.1)

/-- **An ack** settles a delivery of its key's venue. -/
theorem postAck_house {key : Option Text} {body : AckBody}
    (hmay : ∀ past a, AgentMay past key a → r.mayTouch past .delivery a) :
    HouseOk hmac bcrypt r (fun _ _ => True) v (postAck key body) := by
  unfold postAck
  refine houseOk_bind (venueForBridgeKey_house key) (fun v₁ found hfound _ _ => ?_)
  cases found with
  | none => exact houseOk_ret trivial
  | some venueId =>
    refine houseOk_read _ (fun w₁ _ _ => ?_)
    split
    · exact houseOk_ret trivial
    · next id delivery hdelivery =>
      obtain ⟨id', _, hd⟩ := Option.bind_eq_some_iff.mp hdelivery
      obtain ⟨d, hof, heq⟩ := Option.map_eq_some_iff.mp hd
      cases heq
      obtain ⟨hrow, hvenue⟩ := Option.filter_eq_some_iff.mp hof
      split
      · exact houseOk_ret trivial
      · refine houseOk_perform (fun w _ hw d' hd' => ⟨?_, ?_⟩)
          (fun _ _ _ _ _ _ _ _ => houseOk_ret trivial)
        · unfold settle
          split
          · exact ⟨rfl, rfl, rfl, rfl, rfl⟩
          · exact ⟨rfl, rfl, rfl, rfl, rfl⟩
        · exact hmay _ _ (AgentMay.of (hfound venueId rfl) (List.suffix_cons _ _)
            ((hw.deliveries.same hrow hd').venueId.trans (beq_iff_eq.mp hvenue)))

/-! ## Jobs -/

/-- **A push** records how it went on the delivery it is of. -/
theorem attemptDelivery_house {id : Id} {ticket : Ticket}
    (hmay : ∀ w d, Kept v.since w → w.posDeliveries.get? id = some d →
      May r v (fun k a => k = .delivery ∧ a = d.addr)) :
    HouseOk hmac bcrypt r (fun _ _ => True) v (attemptDelivery id ticket) := by
  unfold attemptDelivery
  refine houseOk_read _ (fun w₁ _ hv₁ => ?_)
  split
  · exact houseOk_ret trivial
  · next delivery hrow =>
    split
    · exact houseOk_ret trivial
    · refine houseOk_bind (R := fun _ _ => True) ?_ (fun v₂ err _ hpast hkept => ?_)
      · unfold push
        dsimp only
        split
        · refine houseOk_bind (houseOk_attempt (houseOk_last (fun w _ hw d hd =>
            ⟨⟨rfl, rfl, rfl, rfl, rfl⟩, ?_⟩))) (fun _ updated _ _ _ => ?_)
          · exact hmay w d (hv₁.trans hw) hd _ _ _ (List.suffix_cons _ _) ⟨rfl, rfl⟩
          · split
            · exact houseOk_ret trivial
            · exact houseOk_ret trivial
        · exact houseOk_ret trivial
      · cases err with
        | none => exact houseOk_ret trivial
        | some e =>
          refine houseOk_perform (fun w _ hw d hd => ⟨⟨rfl, rfl, rfl, rfl, rfl⟩, ?_⟩)
            (fun _ _ _ _ _ _ _ _ => houseOk_ret trivial)
          exact hmay w d (hv₁.trans (hkept.trans hw)) hd _ _ _
            ((List.suffix_cons _ _).trans hpast) ⟨rfl, rfl⟩

/-- **A job** writes the delivery of its order, and pushes it. -/
theorem enqueuePosDelivery_house {job : Job}
    (hmay : ∀ past a, a.order = some job.orderId → r.mayTouch past .delivery a) :
    HouseOk hmac bcrypt r (fun _ _ => True) v (enqueuePosDelivery job.orderId job.amendment) := by
  unfold enqueuePosDelivery
  refine houseOk_bind (houseOk_attempt (R := fun _ _ => True) ?_)
    (fun _ _ _ _ _ => houseOk_ret trivial)
  unfold enqueueBody
  refine houseOk_read _ (fun w₁ _ _ => ?_)
  split
  · exact houseOk_raise
  · next found hfound =>
    have ho : w₁.orders.get? job.orderId = some found.order := (orderToEnqueue_spec hfound).1
    refine houseOk_perform (fun w _ hw => ⟨fun o ho' => (hw.orders.same ho ho').venueId,
      hmay _ _ rfl⟩) (fun c w w' id _ _ _ hexec => ?_)
    have hcreated : ∃ d, w'.posDeliveries.get? id = some d ∧ d.orderId = job.orderId := by
      cases hexec
      exact ⟨_, Rows.get?_create_next _ _, rfl⟩
    obtain ⟨d, hd, horder⟩ := hcreated
    refine attemptDelivery_house (fun w₂ d' hw₂ hd' => ?_)
    rintro past _ _ _ ⟨rfl, rfl⟩
    exact hmay past _ (congrArg some ((hw₂.deliveries.same hd hd').orderId.trans horder))

theorem retryEach_house {rows : List (Id × Ticket)}
    (hmay : ∀ past a, r.mayTouch past .delivery a) :
    HouseOk hmac bcrypt r (fun _ _ => True) v (retryEach rows) := by
  induction rows generalizing v with
  | nil => exact houseOk_ret trivial
  | cons row rest ih =>
    refine houseOk_bind (attemptDelivery_house (fun _ _ _ _ => ?_)) (fun _ _ _ _ _ => ih)
    rintro past _ _ _ ⟨rfl, rfl⟩
    exact hmay past _

/-- **The sweep of the outbox** writes deliveries only. -/
theorem sweepPosDeliveries_house (hmay : ∀ past a, r.mayTouch past .delivery a) :
    HouseOk hmac bcrypt r (fun _ _ => True) v sweepPosDeliveries := by
  unfold sweepPosDeliveries
  refine houseOk_read _ (fun w₁ _ _ => ?_)
  refine houseOk_perform (fun w _ _ id d _ _ => ⟨⟨rfl, rfl, rfl, rfl, rfl⟩, hmay _ _⟩)
    (fun _ _ _ _ _ _ _ _ => ?_)
  refine houseOk_perform (fun w _ _ id d _ _ => ⟨⟨rfl, rfl, rfl, rfl, rfl⟩, hmay _ _⟩)
    (fun _ _ _ _ _ _ _ _ => ?_)
  refine houseOk_perform (fun w _ _ id d _ _ => ⟨⟨rfl, rfl, rfl, rfl, rfl⟩, hmay _ _⟩)
    (fun _ _ _ _ _ _ _ _ => ?_)
  refine houseOk_read _ (fun w₂ _ _ => ?_)
  exact houseOk_bind (retryEach_house hmay) (fun _ _ _ _ _ => houseOk_ret trivial)

theorem closeEach_house {visits : List (Id × TableVisit)}
    (hmay : ∀ past a, ∀ k ∈ [Kind.visit, .news], r.mayTouch past k a) :
    HouseOk hmac bcrypt r (fun _ _ => True) v (closeEach visits) := by
  induction visits generalizing v with
  | nil => exact houseOk_ret trivial
  | cons visit rest ih =>
    refine houseOk_read _ (fun _ _ _ => ?_)
    refine houseOk_perform (fun w _ _ visit' _ => ⟨⟨rfl, rfl, rfl⟩, hmay _ _ _ (by decide)⟩)
      (fun _ _ _ _ _ _ _ _ => ?_)
    exact houseOk_perform (fun _ _ _ => ⟨trivial, hmay _ _ _ (by decide)⟩)
      (fun _ _ _ _ _ _ _ _ => ih)

/-- **The sweep of abandoned visits** writes visits only. -/
theorem closeAbandonedVisits_house
    (hmay : ∀ past a, ∀ k ∈ [Kind.visit, .news], r.mayTouch past k a) :
    HouseOk hmac bcrypt r (fun _ _ => True) v closeAbandonedVisits := by
  unfold closeAbandonedVisits
  refine houseOk_read _ (fun _ _ _ => ?_)
  exact houseOk_bind (closeEach_house hmay) (fun _ _ _ _ _ => houseOk_ret trivial)

end

/-! ## Every request -/

/-- **Every request keeps house.** -/
theorem houseSound (hmac : Hmac) (bcrypt : Bcrypt) :
    (houseProtocol hmac bcrypt).Sound (fun _ _ _ => True) where
  env m w hw := move_keeps hw m
  entry r w _ := by
    have hok : HouseOk hmac bcrypt r (fun _ _ => True) ⟨w, []⟩ (r.prog hmac bcrypt) := by
      cases r with
      | scan req => exact houseOk_map (getScan_house (fun _ _ _ hk hseen => ⟨hk, hseen⟩))
      | order req => exact houseOk_map (postOrder_house (fun _ _ _ h => h))
      | orders cookie => exact houseOk_map (getCustomerOrders_house (fun _ _ _ h => h))
      | cancel cookie caller id => exact houseOk_map (cancelOrder_house (fun _ _ _ h hid => ⟨h, hid⟩))
      | bill cookie => exact houseOk_map (getBill_house (fun _ _ _ h => h))
      | askBill cookie caller => exact houseOk_map (postBill_house (fun _ _ _ h => h))
      | staff token route =>
        refine houseOk_bind (houseOk_aside (requireStaff_aside route.role token))
          (fun v' found hfound _ _ => staffRoute_house route (fun s hs past k a _ hM => ?_))
        obtain ⟨staff, rfl, rfl⟩ := Option.map_eq_some_iff.mp hs
        obtain ⟨c, hc, hvenue, _⟩ := hfound staff rfl
        exact ⟨hM.1, hM.2.1, c, hc, hM.2.2.trans hvenue⟩
      | password token ip body salt =>
        exact houseOk_map (postPassword_house (fun _ _ h => ⟨rfl, h⟩))
      | poll key claimId => exact houseOk_map (getPending_house (fun _ _ h => ⟨rfl, h⟩))
      | ack key body => exact houseOk_map (postAck_house (fun _ _ h => ⟨rfl, h⟩))
      | enqueue job => exact houseOk_map (enqueuePosDelivery_house (fun _ _ h => ⟨rfl, h⟩))
      | sweepDeliveries => exact houseOk_map (sweepPosDeliveries_house (fun _ _ => rfl))
      | closeAbandoned =>
        refine houseOk_map (closeAbandonedVisits_house (fun _ _ k hk => ?_))
        rcases List.mem_cons.mp hk with rfl | hk
        · exact .inl rfl
        · exact .inr (List.mem_singleton.mp hk)
    exact Protocol.ok_mono hok (fun _ _ _ => trivial)

/-! ## An evening -/

/-- A table and a dish, and nobody there yet. -/
def openHouse : World :=
  { World.blank 0 with
    venues := Rows.ofList [⟨[], [], [7], none⟩]
    tables := Rows.ofList [⟨0, [9], [], 0, true⟩]
    menuItems := Rows.ofList [⟨0, [], 100, true, []⟩]
    staffUsers := Rows.ofList [⟨0, [], [], [], .admin, true, 0⟩] }

theorem openHouse_coherent : Coherent openHouse where
  tables id t ht := by
    rcases Rows.get?_createAll ht with hnone | hrow
    · cases hnone
    · exact List.mem_singleton.mp hrow ▸ ⟨_, rfl⟩
  visits id v hv := by cases hv
  sessions id s hs := by cases hs
  orders id o ho := by cases ho
  items id i hi := by cases hi
  edits id e he := by cases he
  deliveries id d hd := by cases hd
  staff id u hu := by
    rcases Rows.get?_createAll hu with hnone | hrow
    · cases hnone
    · exact List.mem_singleton.mp hrow ▸ ⟨_, rfl⟩
  keys id k hk := by cases hk
  news e he := by cases he

/-- A phone scans, and its order is about to be inserted. -/
def ordering : List (house joined openHash).Action :=
  [.arrive (.scan ⟨⟨[], []⟩, [9], signTableQr joined [7] [9] 0, 5⟩)]
    ++ List.replicate 9 (.step 0 plain)
    ++ [.arrive (.order ⟨some 5, ⟨[], []⟩, some ⟨[⟨0, 1, none, none⟩], none⟩, .plain, true⟩)]
    ++ List.replicate 6 (.step 1 plain)

/-- The order is accepted, its ticket printed, and a manager tries to drop the table. -/
def accepting : List (house joined openHash).Action :=
  List.replicate 3 (.step 1 plain)
    ++ [.arrive (.staff (some ⟨some 0, 0, some 0⟩) (.patchOrder 0 ⟨some .accepted, none⟩))]
    ++ List.replicate 6 (.step 2 plain) ++ List.replicate 4 (.step 3 plain) ++ [.env (.dropTable 0)]

/-! ## The laws -/

section

variable (hmac : Hmac) (bcrypt : Bcrypt) (w₀ : World)

theorem house_meets (acts : List (house hmac bcrypt).Action) :
    (Sys.Pool.init w₀).Meets (houseProtocol hmac bcrypt).cond acts = true :=
  Protocol.meets_cond _ (fun _ _ _ _ _ => rfl) _ _

/-- How the world moves along a run: the rows agree, and history is kept. -/
def Moved (w w' : World) : Prop := Coherent w' ∧ Kept w w'

theorem house_moved (pre mid : List (house hmac bcrypt).Action) (h₀ : Coherent w₀) :
    Moved (houseRun hmac bcrypt w₀ pre).world (houseRun hmac bcrypt w₀ (pre ++ mid)).world :=
  ⟨((houseSound hmac bcrypt).run h₀ (house_meets hmac bcrypt w₀ (pre ++ mid))).inv,
    house_rely ((houseSound hmac bcrypt).run_rely h₀ (house_meets hmac bcrypt w₀ (pre ++ mid)))⟩

/-- **The rows agree in every state a run reaches.** -/
theorem house_coherent (acts : List (house hmac bcrypt).Action) (h₀ : Coherent w₀) :
    Coherent (houseRun hmac bcrypt w₀ acts).world :=
  ((houseSound hmac bcrypt).run h₀ (house_meets hmac bcrypt w₀ acts)).inv

/-- The rows agree after an evening on which an order was printed. -/
theorem house_coherent_evening :
    (houseRun joined openHash openHouse (ordering ++ accepting)).world.posDeliveries.rows.map
      (fun d => d.2.status) = [.sent]
    ∧ Coherent (houseRun joined openHash openHouse (ordering ++ accepting)).world :=
  ⟨by decide +kernel,
    house_coherent joined openHash openHouse (ordering ++ accepting) openHouse_coherent⟩

/-- **History is not rewritten**, from any moment of a run to any later one. -/
theorem history_kept (pre post : List (house hmac bcrypt).Action) (h₀ : Coherent w₀) :
    Kept (houseRun hmac bcrypt w₀ pre).world (houseRun hmac bcrypt w₀ (pre ++ post)).world :=
  house_rely ((houseSound hmac bcrypt).run_rely h₀ (house_meets hmac bcrypt w₀ (pre ++ post)))

/-- History after the order is inserted. -/
theorem history_kept_evening :
    Kept (houseRun joined openHash openHouse ordering).world
      (houseRun joined openHash openHouse (ordering ++ accepting)).world :=
  history_kept joined openHash openHouse ordering accepting openHouse_coherent

end

end Masadan
