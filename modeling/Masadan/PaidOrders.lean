import Masadan.OrderTotals

/-!
# Paid orders stay what was paid for

A settled visit records a total, and marks orders paid. None of the operations
that change an order afterwards – an edit, the desk's `PATCH`, the customer's
withdrawal – looks at whether it is paid; they look at whether it is still in
flight. A settlement that is not forced leaves no paid order in flight, so
nothing can happen to one. A forced settlement can, and then the desk may
still correct or refuse what was paid for: refunds are somebody else's
business.

So the books of settled visits are right over every sequence of requests that
leaves alone the orders that are paid and in flight (`settled_right`), and
`settled_right_fails` is what an edit or a refusal of such an order does to
them. The customer cannot touch one: a settlement sends the phones out. And
without a forced settlement there is none (`turnsRespect_of_unforced`).
-/

namespace Masadan

/-! ## Requests one after another -/

/-- A request, served to its end; a background job; or time passing. -/
inductive Turn where
  | place (req : OrderRequest)
  | settle (visitId venueId : Id) (input : SettleInput)
  | edit (orderId venueId staffId : Id) (staffName : Text) (input : OrderEditInput)
  | patch (staff : Option StaffClaims) (id : Id) (body : PatchBody)
  | cancel (cookie : Option ℕ) (caller : Caller) (id : Id)
  | job (job : Job)
  | wait (ms : ℕ)

def Turn.take : Turn → World → World
  | .place req, w => w.after (postOrder req)
  | .settle visitId venueId input, w => w.after (settleVisit visitId venueId input)
  | .edit orderId venueId staffId staffName input, w =>
    w.after (editOrder orderId venueId staffId staffName input)
  | .patch staff id body, w => w.after (patchOrder staff id body)
  | .cancel cookie caller id, w => w.after (cancelOrder cookie caller id)
  | .job j, w => w.after (enqueuePosDelivery j.orderId j.amendment)
  | .wait ms, w => { w with now := w.now + ms }

/-- The world after a sequence of turns. -/
def World.turns (w : World) (ts : List Turn) : World := ts.foldl (fun w t => t.take w) w

/-! ## The books -/

/-- What a visit's paid orders come to. -/
def World.paidTotal (w : World) (visitId : Id) : ℤ :=
  ((w.orders.filter (fun _ o => o.visitId == some visitId && o.paymentStatus == .paid)).map
    (fun o => o.2.totalKurus)).sum

/-- The visit is closed as settled. -/
def TableVisit.Settled (v : TableVisit) : Prop :=
  v.status = .closed ∧ v.closedReason = some .settled

/-- **The books of settled visits are right**: the total is what the paid orders
come to, and none of them is refused or withdrawn. -/
structure SettledRight (w : World) : Prop where
  total : ∀ visitId v, w.tableVisits.get? visitId = some v → v.Settled →
    v.totalKurus = some (w.paidTotal visitId)
  standing : ∀ visitId v, w.tableVisits.get? visitId = some v → v.Settled → ∀ id o,
    w.orders.get? id = some o → o.visitId = some visitId → o.paymentStatus = .paid →
    notVoid o.status = true

/-- The phones of a party that paid are out: an order's session, while there is one,
is seated where the order is billed, and revoked once the order is paid. -/
structure PhonesOut (w : World) : Prop where
  seated : ∀ id o s, w.orders.get? id = some o → w.tableSessions.get? o.sessionId = some s →
    s.visitId = o.visitId
  revoked : ∀ id o s, w.orders.get? id = some o → o.paymentStatus = .paid →
    w.tableSessions.get? o.sessionId = some s → s.revokedAt ≠ none

/-- **Books in order**: orders add up, the books of settled visits are right, only
orders of settled visits are paid, and their phones are out. -/
structure PaidBooks (w : World) : Prop extends OrdersAddUp w, SettledRight w, PhonesOut w where
  paid : ∀ id o, w.orders.get? id = some o → o.paymentStatus = .paid →
    ∃ visitId v, o.visitId = some visitId ∧ w.tableVisits.get? visitId = some v ∧ v.Settled

/-- The order is paid, and still in flight. -/
def World.paidInFlight (w : World) (id : Id) : Bool :=
  (w.orders.get? id).any (fun o => o.paymentStatus == .paid && IN_FLIGHT_STATUSES.contains o.status)

/-- Books in order; and, of a world in which no settlement was forced, no paid order
is in flight. -/
structure BooksKept (unforced : Prop) (w : World) : Prop extends PaidBooks w where
  served : unforced → ∀ id, w.paidInFlight id = false

/-- **The turn leaves paid orders in flight alone.** The desk does not edit or refuse
one; and an edit names no line first at the quantity it has and again at
another. -/
def Turn.Respects (w : World) : Turn → Prop
  | .edit orderId _ _ _ input => w.paidInFlight orderId = false
    ∧ ∀ i ∈ w.liveItems orderId, input.FirstDecides i
  | .patch _ id body => body.status = some .rejected → w.paidInFlight id = false
  | _ => True

/-- Every turn of the sequence does. -/
def TurnsRespect : World → List Turn → Prop
  | _, [] => True
  | w, t :: ts => t.Respects w ∧ TurnsRespect (t.take w) ts

instance (w : World) : ∀ t : Turn, Decidable (t.Respects w)
  | .place _ => inferInstanceAs (Decidable True)
  | .settle _ _ _ => inferInstanceAs (Decidable True)
  | .edit _ _ _ _ _ => inferInstanceAs (Decidable (_ ∧ ∀ i ∈ _, _))
  | .patch _ _ _ => inferInstanceAs (Decidable (_ → _))
  | .cancel _ _ _ => inferInstanceAs (Decidable True)
  | .job _ => inferInstanceAs (Decidable True)
  | .wait _ => inferInstanceAs (Decidable True)

instance decidableTurnsRespect : ∀ (w : World) (ts : List Turn), Decidable (TurnsRespect w ts)
  | _, [] => inferInstanceAs (Decidable True)
  | w, t :: ts =>
    have := decidableTurnsRespect (t.take w) ts
    inferInstanceAs (Decidable (_ ∧ _))

/-! ## What an order counts for -/

/-- What an order adds to the paid total of a visit. -/
def paidShare (visitId : Id) (o : Order) : ℤ :=
  if o.visitId == some visitId && o.paymentStatus == .paid then o.totalKurus else 0

theorem paidTotal_eq (w : World) (visitId : Id) :
    w.paidTotal visitId = w.orders.total (fun _ => paidShare visitId) :=
  Rows.sum_filter w.orders (fun _ o => o.visitId == some visitId && o.paymentStatus == .paid)
    (fun _ o => o.totalKurus)

theorem paidShare_unpaid {visitId : Id} {o : Order} (h : o.paymentStatus ≠ .paid) :
    paidShare visitId o = 0 := by
  unfold paidShare
  rw [if_neg]
  rw [Bool.and_eq_true, beq_iff_eq, beq_iff_eq]
  exact fun hp => h hp.2

theorem paidShare_other {visitId : Id} {o : Order} (h : o.visitId ≠ some visitId) :
    paidShare visitId o = 0 := by
  unfold paidShare
  rw [if_neg]
  rw [Bool.and_eq_true, beq_iff_eq, beq_iff_eq]
  exact fun hp => h hp.1

/-- An order that is in flight and may not be touched is not paid. -/
theorem not_paid_of_inFlight {w : World} {id : Id} {o : Order}
    (h : w.paidInFlight id = false) (ho : w.orders.get? id = some o)
    (hs : o.status ∈ IN_FLIGHT_STATUSES) : o.paymentStatus ≠ .paid := by
  intro hpaid
  unfold World.paidInFlight at h
  rw [ho, Option.any_some, hpaid, List.contains_iff_mem.mpr hs] at h
  cases h

theorem paidInFlight_eq_false {w : World} : (∀ id, w.paidInFlight id = false) ↔
    ∀ id o, w.orders.get? id = some o → o.paymentStatus = .paid → o.status ∉ IN_FLIGHT_STATUSES := by
  constructor
  · intro h id o ho hpaid hs
    exact not_paid_of_inFlight (h id) ho hs hpaid
  · intro h id
    unfold World.paidInFlight
    rw [Bool.eq_false_iff]
    intro hany
    obtain ⟨o, ho, hsel⟩ := (Option.any_eq_true _ _).mp hany
    rw [Bool.and_eq_true, beq_iff_eq] at hsel
    exact h id o ho hsel.1 (List.contains_iff_mem.mp hsel.2)

/-! ## Changes of the books -/

/-- Visits, orders and lines are as they were, and so are the seats of the phones. -/
structure SameBooks (w w' : World) : Prop where
  tableVisits : w'.tableVisits = w.tableVisits
  orders : w'.orders = w.orders
  orderItems : w'.orderItems = w.orderItems
  phones : ∀ id s', w'.tableSessions.get? id = some s' →
    ∃ s, w.tableSessions.get? id = some s ∧ s'.visitId = s.visitId ∧ s'.revokedAt = s.revokedAt

theorem SameBooks.of_eq {w w' : World} (hv : w'.tableVisits = w.tableVisits)
    (ho : w'.orders = w.orders) (hi : w'.orderItems = w.orderItems)
    (hs : w'.tableSessions = w.tableSessions) : SameBooks w w' :=
  ⟨hv, ho, hi, fun _ s' h => ⟨s', hs ▸ h, rfl, rfl⟩⟩

theorem SameBooks.refl (w : World) : SameBooks w w := SameBooks.of_eq rfl rfl rfl rfl

theorem SameBooks.trans {w w' w'' : World} (h : SameBooks w w') (h' : SameBooks w' w'') :
    SameBooks w w'' where
  tableVisits := h'.tableVisits.trans h.tableVisits
  orders := h'.orders.trans h.orders
  orderItems := h'.orderItems.trans h.orderItems
  phones id s'' hs'' := by
    obtain ⟨s', hs', hv', hr'⟩ := h'.phones id s'' hs''
    obtain ⟨s, hs, hv, hr⟩ := h.phones id s' hs'
    exact ⟨s, hs, hv'.trans hv, hr'.trans hr⟩

theorem SameRows.sameBooks {w w' : World} (h : SameRows w w') : SameBooks w w' where
  tableVisits := h.tableVisits
  orders := h.orders
  orderItems := h.orderItems
  phones id s' hs' := by
    obtain ⟨s, hs, heq⟩ := h.tableSessions id s' hs'
    refine ⟨s, hs, ?_, ?_⟩
    · rw [heq]
    · rw [heq]

namespace PhonesOut

variable {w w' : World}

theorem congr (h : PhonesOut w) (hs : SameBooks w w') : PhonesOut w' where
  seated id o s' ho hs' := by
    obtain ⟨s, hrow, hv, _⟩ := hs.phones _ s' hs'
    rw [hv]
    exact h.seated id o s (hs.orders ▸ ho) hrow
  revoked id o s' ho hpaid hs' := by
    obtain ⟨s, hrow, _, hr⟩ := hs.phones _ s' hs'
    rw [hr]
    exact h.revoked id o s (hs.orders ▸ ho) hpaid hrow

theorem change (h : PhonesOut w) (hs : w'.tableSessions = w.tableSessions)
    {g : Id → Order → Order} (hg : ∀ id, w'.orders.get? id = (w.orders.get? id).map (g id))
    (hkeep : ∀ id o, w.orders.get? id = some o → (g id o).visitId = o.visitId
      ∧ (g id o).sessionId = o.sessionId ∧ (g id o).paymentStatus = o.paymentStatus) :
    PhonesOut w' where
  seated id o' s ho' hsess := by
    rw [hg] at ho'
    obtain ⟨o, ho, rfl⟩ := Option.map_eq_some_iff.mp ho'
    obtain ⟨hvisit, hsession, _⟩ := hkeep id o ho
    rw [hs, hsession] at hsess
    rw [hvisit]
    exact h.seated id o s ho hsess
  revoked id o' s ho' hpaid hsess := by
    rw [hg] at ho'
    obtain ⟨o, ho, rfl⟩ := Option.map_eq_some_iff.mp ho'
    obtain ⟨_, hsession, hpay⟩ := hkeep id o ho
    rw [hs, hsession] at hsess
    rw [hpay] at hpaid
    exact h.revoked id o s ho hpaid hsess

/-- An order of a session seated where the order is billed. -/
theorem insertOrder (h : PhonesOut w) {data : NewOrder} (items : List NewOrderItem)
    (hseat : ∀ s, w.tableSessions.get? data.sessionId = some s → s.visitId = data.visitId) :
    PhonesOut (w.insertOrder data items) where
  seated id o s ho hs := by
    have hget : (w.orders.create _).get? id = some o := ho
    rw [Rows.get?_create] at hget
    split at hget
    · cases hget
      exact hseat s hs
    · exact h.seated id o s hget hs
  revoked id o s ho hpaid hs := by
    have hget : (w.orders.create _).get? id = some o := ho
    rw [Rows.get?_create] at hget
    split at hget
    · cases hget
      cases hpaid
    · exact h.revoked id o s hget hpaid hs

/-- **A settlement sends the phones of the orders it marks out.** -/
theorem settle (h : PhonesOut w) {visitId : Id} {sel : Id → Order → Bool} {method : PaymentMethod}
    (hsel : ∀ id o, w.orders.get? id = some o → sel id o = true → o.visitId = some visitId)
    (horders : w'.orders = w.orders.update sel (markPaid method))
    (hsessions : w'.tableSessions = w.tableSessions.update
      (fun id _ => (w.unrevokedSessions visitId).contains id) (revoke w.now)) :
    PhonesOut w' where
  seated id o' s' ho' hs' := by
    rw [horders, Rows.get?_update] at ho'
    obtain ⟨o, ho, rfl⟩ := Option.map_eq_some_iff.mp ho'
    rw [hsessions, Rows.get?_update] at hs'
    obtain ⟨s, hs, rfl⟩ := Option.map_eq_some_iff.mp hs'
    have hkeep : ∀ b : Bool, (if b = true then markPaid method o else o).sessionId = o.sessionId
        ∧ (if b = true then markPaid method o else o).visitId = o.visitId := by
      intro b
      cases b <;> exact ⟨rfl, rfl⟩
    have hstay : ∀ b : Bool, (if b = true then revoke w.now s else s).visitId = s.visitId := by
      intro b
      cases b <;> rfl
    rw [(hkeep _).1] at hs
    rw [hstay, (hkeep _).2]
    exact h.seated id o s ho hs
  revoked id o' s' ho' hpaid hs' := by
    rw [hsessions, Rows.get?_update] at hs'
    obtain ⟨s, hs, rfl⟩ := Option.map_eq_some_iff.mp hs'
    split
    · exact Option.some_ne_none _
    · next hnot =>
      rw [horders, Rows.get?_update] at ho'
      obtain ⟨o, ho, rfl⟩ := Option.map_eq_some_iff.mp ho'
      intro hnone
      split at hs
      · next hb =>
        -- the session of an order of the visit, not revoked, was among those found
        have hfound : (o.sessionId, s) ∈ w.tableSessions.filter
            (fun _ s => s.visitId == some visitId && s.revokedAt.isNone) :=
          Rows.mem_filter.mpr ⟨hs, by simp [h.seated id o s ho hs, hsel id o ho hb, hnone]⟩
        rw [if_pos hb] at hnot
        exact hnot (List.contains_iff_mem.mpr (List.mem_map_of_mem (f := Prod.fst) hfound))
      · next hb =>
        rw [if_neg hb] at hpaid
        exact h.revoked id o s ho hpaid hs hnone

end PhonesOut

namespace BooksKept

variable {w w' : World} {u : Prop}

theorem congr (h : BooksKept u w) (hs : SameBooks w w') : BooksKept u w' where
  toOrdersAddUp := h.toOrdersAddUp.congr hs.orders hs.orderItems
  total visitId v hv hset := by
    unfold World.paidTotal
    rw [hs.orders]
    exact h.total visitId v (hs.tableVisits ▸ hv) hset
  standing visitId v hv hset id o ho := h.standing visitId v (hs.tableVisits ▸ hv) hset id o
    (hs.orders ▸ ho)
  paid id o ho hpaid := by
    rw [hs.tableVisits]
    exact h.paid id o (hs.orders ▸ ho) hpaid
  toPhonesOut := h.toPhonesOut.congr hs
  served hu id := by
    unfold World.paidInFlight
    rw [hs.orders]
    exact h.served hu id

/-- **Orders may change as long as the paid ones count for what they did.** -/
theorem change (h : BooksKept u w) (hadd : OrdersAddUp w') (hv : w'.tableVisits = w.tableVisits)
    (hs : w'.tableSessions = w.tableSessions)
    {g : Id → Order → Order} (hg : ∀ id, w'.orders.get? id = (w.orders.get? id).map (g id))
    (hkeep : ∀ id o, w.orders.get? id = some o → (g id o).visitId = o.visitId
      ∧ (g id o).sessionId = o.sessionId ∧ (g id o).paymentStatus = o.paymentStatus
      ∧ (o.paymentStatus = .paid → (g id o).totalKurus = o.totalKurus
        ∧ (notVoid o.status = true → notVoid (g id o).status = true)
        ∧ (o.status ∉ IN_FLIGHT_STATUSES → (g id o).status ∉ IN_FLIGHT_STATUSES))) :
    BooksKept u w' where
  toOrdersAddUp := hadd
  toPhonesOut := h.toPhonesOut.change hs hg (fun id o ho =>
    ⟨(hkeep id o ho).1, (hkeep id o ho).2.1, (hkeep id o ho).2.2.1⟩)
  total visitId v hget hset := by
    rw [hv] at hget
    rw [h.total visitId v hget hset, paidTotal_eq, paidTotal_eq, Rows.total_of_get? hg]
    refine congrArg some (Rows.total_congr (fun id o ho => ?_))
    obtain ⟨hvisit, _, hpay, hpaid⟩ := hkeep id o ho
    by_cases hp : o.paymentStatus = .paid
    · unfold paidShare
      rw [hvisit, hpay, (hpaid hp).1]
    · rw [paidShare_unpaid hp, paidShare_unpaid (hpay ▸ hp)]
  standing visitId v hget hset id o' ho' hvisit' hp' := by
    rw [hv] at hget
    rw [hg] at ho'
    obtain ⟨o, ho, rfl⟩ := Option.map_eq_some_iff.mp ho'
    obtain ⟨hvisit, _, hpay, hpaid⟩ := hkeep id o ho
    rw [hvisit] at hvisit'
    rw [hpay] at hp'
    exact (hpaid hp').2.1 (h.standing visitId v hget hset id o ho hvisit' hp')
  paid id o' ho' hp' := by
    rw [hg] at ho'
    obtain ⟨o, ho, rfl⟩ := Option.map_eq_some_iff.mp ho'
    obtain ⟨hvisit, _, hpay, _⟩ := hkeep id o ho
    rw [hpay] at hp'
    rw [hvisit, hv]
    exact h.paid id o ho hp'
  served hu := by
    refine paidInFlight_eq_false.mpr (fun id o' ho' hp' => ?_)
    rw [hg] at ho'
    obtain ⟨o, ho, rfl⟩ := Option.map_eq_some_iff.mp ho'
    obtain ⟨_, _, hpay, hpaid⟩ := hkeep id o ho
    rw [hpay] at hp'
    exact (hpaid hp').2.2 (paidInFlight_eq_false.mp (h.served hu) id o ho hp')

/-- A well-priced insertion: the new order is not paid. -/
theorem insertOrder (h : BooksKept u w) {data : NewOrder} {items : List NewOrderItem}
    (hp : Priced data items)
    (hseat : ∀ s, w.tableSessions.get? data.sessionId = some s → s.visitId = data.visitId) :
    BooksKept u (w.insertOrder data items) := by
  -- a paid order is an old one
  have hold : ∀ id o, (w.insertOrder data items).orders.get? id = some o →
      o.paymentStatus = .paid → w.orders.get? id = some o := by
    intro id o ho hpaid
    have hget : (w.orders.create _).get? id = some o := ho
    rw [Rows.get?_create] at hget
    split at hget
    · cases hget
      cases hpaid
    · exact hget
  refine ⟨⟨h.toOrdersAddUp.insertOrder hp, ⟨fun visitId v hv hset => ?_,
    fun visitId v hv hset id o ho hvisit hpaid => ?_⟩, h.toPhonesOut.insertOrder items hseat,
    fun id o ho hpaid => ?_⟩, fun hu => ?_⟩
  · rw [h.total visitId v hv hset, paidTotal_eq, paidTotal_eq]
    show some _ = some ((w.orders.create _).total _)
    rw [Rows.total_create, paidShare_unpaid (by simp), add_zero]
  · exact h.standing visitId v hv hset id o (hold id o ho hpaid) hvisit hpaid
  · exact h.paid id o (hold id o ho hpaid) hpaid
  · exact paidInFlight_eq_false.mpr (fun id o ho hpaid =>
      paidInFlight_eq_false.mp (h.served hu) id o (hold id o ho hpaid) hpaid)

end BooksKept

/-- Orders change, but not what they come to. -/
theorem OrdersAddUp.relabel {w w' : World} (h : OrdersAddUp w)
    (hi : w'.orderItems = w.orderItems) (hn : w'.orders.next = w.orders.next)
    {g : Id → Order → Order} (hg : ∀ id, w'.orders.get? id = (w.orders.get? id).map (g id))
    (hkeep : ∀ id o, (g id o).totalKurus = o.totalKurus) : OrdersAddUp w' where
  totals id o' ho' := by
    rw [hg] at ho'
    obtain ⟨o, ho, rfl⟩ := Option.map_eq_some_iff.mp ho'
    rw [hkeep, liveTotal_congr hi]
    exact h.totals id o ho
  refs k i hk := by
    rw [hi] at hk
    rw [hn]
    exact h.refs k i hk

/-! ## Settling -/

/-- A bill covers the visit's orders that are neither refused nor withdrawn. -/
theorem billed_iff {w : World} {visitId : Id} {bill : Bill}
    (hbill : w.buildBill visitId = some bill) {id : Id} {o : Order}
    (ho : w.orders.get? id = some o) :
    bill.orderIds.contains id = true ↔ o.visitId = some visitId ∧ notVoid o.status = true := by
  rw [List.contains_iff_mem, (buildBill_orderIds hbill).mem_iff]
  unfold World.billedOrders
  constructor
  · intro hid
    obtain ⟨⟨k, o'⟩, hmem, rfl⟩ := List.mem_map.mp hid
    obtain ⟨ho', hsel⟩ := Rows.mem_filter.mp hmem
    rw [ho] at ho'
    cases ho'
    simpa using hsel
  · intro hsel
    exact List.mem_map.mpr ⟨(id, o), Rows.mem_filter.mpr ⟨ho, by simpa using hsel⟩, rfl⟩

section

variable {u : Prop} {w w' : World} {visitId : Id} {visit : TableVisit} {bill : Bill} {input : SettleInput}

/-- A closed visit is not touched by a settlement. -/
theorem get?_closable_of_closed {f : TableVisit → TableVisit} {id : Id} {v : TableVisit}
    (hv : w.tableVisits.get? id = some v) (hclosed : v.status = .closed) :
    (w.tableVisits.update (World.closable visitId) f).get? id = some v := by
  have hnot : ¬ World.closable visitId id v = true := by
    simp [World.closable, hclosed]
  rw [Rows.get?_update, hv, Option.map_some, if_neg hnot]

/-- No order of a visit that is not closed is paid. -/
theorem BooksKept.unpaid (h : BooksKept u w) (hv : w.tableVisits.get? visitId = some visit)
    (hopen : visit.status ≠ .closed) {id : Id} {o : Order} (ho : w.orders.get? id = some o)
    (hvisit : o.visitId = some visitId) : o.paymentStatus ≠ .paid := by
  intro hpaid
  obtain ⟨visitId', v, hvisit', hv', hset⟩ := h.paid id o ho hpaid
  rw [hvisit] at hvisit'
  cases hvisit'
  rw [hv] at hv'
  cases hv'
  exact hopen hset.1

/-- The billed orders, marked, come to what the bill says. -/
theorem BooksKept.paidTotal_settled (h : BooksKept u w)
    (hv : w.tableVisits.get? visitId = some visit) (hopen : visit.status ≠ .closed)
    (hbill : w.buildBill visitId = some bill) (method : PaymentMethod) :
    (w.orders.update (fun id _ => bill.orderIds.contains id) (markPaid method)).total
      (fun _ => paidShare visitId) = bill.totalKurus := by
  rw [Rows.total_of_get? (fun id => Rows.get?_update _ _ _ id),
    ← h.toOrdersAddUp.storedTotal hbill]
  unfold World.storedTotal World.billedOrders
  rw [Rows.sum_filter w.orders _ (fun _ o => o.totalKurus)]
  refine Rows.total_congr (fun id o ho => ?_)
  by_cases hsel : o.visitId = some visitId ∧ notVoid o.status = true
  · rw [if_pos ((billed_iff hbill ho).mpr hsel), if_pos (by simp [hsel])]
    simp [paidShare, markPaid, hsel.1]
  · rw [if_neg (fun hb => hsel ((billed_iff hbill ho).mp hb)), if_neg (by simpa using hsel)]
    by_cases hvisit : o.visitId = some visitId
    · exact paidShare_unpaid (h.unpaid hv hopen ho hvisit)
    · exact paidShare_other hvisit

/-- **A settlement leaves the books in order**: what it records is what the orders
it marks come to, and it touches no other visit's. -/
theorem BooksKept.settle (h : BooksKept u w) (hv : w.tableVisits.get? visitId = some visit)
    (hopen : visit.status ≠ .closed) (hbill : w.buildBill visitId = some bill)
    (hvisits : w'.tableVisits = w.tableVisits.update (World.closable visitId)
      (input.close bill.totalKurus w.now))
    (horders : w'.orders = w.orders.update (fun id _ => bill.orderIds.contains id)
      (markPaid input.paymentMethod))
    (hitems : w'.orderItems = w.orderItems)
    (hsessions : w'.tableSessions = w.tableSessions.update
      (fun id _ => (w.unrevokedSessions visitId).contains id) (revoke w.now))
    (hdone : u → ∀ id o, w.orders.get? id = some o → o.visitId = some visitId →
      o.status ∉ IN_FLIGHT_STATUSES) : BooksKept u w' := by
  have hclosed : w'.tableVisits.get? visitId = some (input.close bill.totalKurus w.now visit) := by
    rw [hvisits]
    exact get?_closable hv hopen
  have hother : ∀ id, id ≠ visitId → w'.tableVisits.get? id = w.tableVisits.get? id := by
    intro id hid
    rw [hvisits]
    exact get?_closable_other hid
  -- an order is billed, and now paid, or is as it was
  have hcases : ∀ id o', w'.orders.get? id = some o' → ∃ o, w.orders.get? id = some o
      ∧ ((o.visitId = some visitId ∧ notVoid o.status = true ∧ o' = markPaid input.paymentMethod o)
        ∨ o' = o) := by
    intro id o' ho'
    rw [horders, Rows.get?_update] at ho'
    obtain ⟨o, ho, rfl⟩ := Option.map_eq_some_iff.mp ho'
    refine ⟨o, ho, ?_⟩
    split
    · next hb =>
      obtain ⟨hvisit, hs⟩ := (billed_iff hbill ho).mp hb
      exact .inl ⟨hvisit, hs, rfl⟩
    · exact .inr rfl
  refine ⟨⟨?_, ⟨fun id v hget hset => ?_, fun id v hget hset k o' ho' hvisit' hpaid => ?_⟩,
    h.toPhonesOut.settle (fun id o ho hb => ((billed_iff hbill ho).mp hb).1) horders hsessions,
    fun k o' ho' hpaid => ?_⟩, fun hu => paidInFlight_eq_false.mpr (fun k o' ho' hpaid => ?_)⟩
  · refine h.toOrdersAddUp.relabel hitems (by rw [horders]; rfl)
      (fun k => by rw [horders]; exact Rows.get?_update _ _ _ k) (fun k o => ?_)
    split
    · rfl
    · rfl
  · rw [paidTotal_eq, horders]
    by_cases hid : id = visitId
    · subst hid
      rw [hclosed] at hget
      cases hget
      rw [h.paidTotal_settled hv hopen hbill]
      rfl
    · rw [hother id hid] at hget
      rw [h.total id v hget hset, paidTotal_eq,
        Rows.total_of_get? (fun id => Rows.get?_update _ _ _ id)]
      refine congrArg some (Rows.total_congr (fun k o ho => ?_))
      split
      · next hb =>
        -- a billed order is not of this visit
        have hne : o.visitId ≠ some id := by
          rw [((billed_iff hbill ho).mp hb).1]
          exact fun heq => hid (Option.some.inj heq).symm
        rw [paidShare_other hne, paidShare_other (o := markPaid input.paymentMethod o) hne]
      · rfl
  · obtain ⟨o, ho, ⟨hvisit, hs, rfl⟩ | rfl⟩ := hcases k o' ho'
    · exact hs
    · have hid : id ≠ visitId := by
        rintro rfl
        exact h.unpaid hv hopen ho hvisit' hpaid
      rw [hother id hid] at hget
      exact h.standing id v hget hset k o' ho hvisit' hpaid
  · obtain ⟨o, ho, ⟨hvisit, _, rfl⟩ | rfl⟩ := hcases k o' ho'
    · exact ⟨visitId, _, hvisit, hclosed, rfl, rfl⟩
    · obtain ⟨id, v, hvisit, hget, hset⟩ := h.paid k o' ho hpaid
      refine ⟨id, v, hvisit, ?_, hset⟩
      rw [hvisits]
      exact get?_closable_of_closed hget hset.1
  · obtain ⟨o, ho, ⟨hvisit, _, rfl⟩ | rfl⟩ := hcases k o' ho'
    · exact hdone hu k o ho hvisit
    · exact paidInFlight_eq_false.mp (h.served hu) k o' ho hpaid

end

/-! ## The handlers, alone -/

/-- A harmless program leaves the books as they are. -/
theorem alone_harmless {α : Type} {B : α → Prop} {p : Api α} (hp : p.Calls Call.Harmless B)
    (w : World) : Alone (fun w' _ => SameBooks w w') p w :=
  Prog.alone_of_calls hp SameBooks.refl (fun _ _ _ => SameBooks.trans)
    (fun _ w hop => (exec_harmless hop w).sameBooks) w

section

variable {u : Prop} {w : World}

/-- The books are in order when a program is through. -/
abbrev KeepsBooks (u : Prop) {α : Type} (p : Api α) (w : World) : Prop := Alone (fun w' _ => BooksKept u w') p w

theorem keepsBooks_harmless {α : Type} {B : α → Prop} {p : Api α}
    (hp : p.Calls Call.Harmless B) (h : BooksKept u w) : KeepsBooks u p w :=
  Prog.alone_mono (alone_harmless hp w) (fun _ _ hs => h.congr hs)

/-- A harmless part, then the rest. -/
theorem keepsBooks_harmless_bind {α β : Type} {B : α → Prop} {p : Api α} {f : α → Api β}
    (hp : p.Calls Call.Harmless B) (h : BooksKept u w)
    (hf : ∀ w' a, SameBooks w w' → BooksKept u w' → KeepsBooks u (f a) w') :
    KeepsBooks u (p.bind f) w := by
  refine Prog.alone_bind (Prog.alone_mono (alone_harmless hp w) (fun w' x hs => ?_))
  cases x with
  | ok a => exact hf w' a hs (h.congr hs)
  | error e => exact h.congr hs

theorem publish_calls {α : Type} (event : BusEvent) (a : α) :
    ((perform (.publish event)).bind (fun _ => (.ret a : Api α))).Calls Call.Harmless
      (fun _ => True) :=
  Prog.calls_bind (Prog.calls_perform (S := api) trivial) (fun _ _ => trivial)

theorem ordersInFlight_alone (visitId : Id) (force : Bool) (w : World) :
    Alone (fun w' x => w' = w ∧ ∃ n, x = .ok n ∧ (force = false → n = w.orders.count (fun _ o =>
      o.visitId == some visitId && IN_FLIGHT_STATUSES.contains o.status)))
      (ordersInFlight visitId force) w := by
  unfold ordersInFlight
  split
  · next hforce =>
    refine ⟨rfl, 0, rfl, fun h => ?_⟩
    rw [h] at hforce
    cases hforce
  · exact ⟨rfl, _, rfl, fun _ => rfl⟩

/-- **A settlement.** -/
theorem settleVisit_keepsBooks (h : BooksKept u w) (visitId venueId : Id) {input : SettleInput}
    (hu : u → input.force = false) : KeepsBooks u (settleVisit visitId venueId input) w := by
  unfold settleVisit
  refine alone_query ?_
  split
  · exact h
  · next visit hvisit =>
    obtain ⟨hv, _⟩ := Option.filter_eq_some_iff.mp hvisit
    split
    · exact h
    · next hopen =>
      refine Prog.alone_bind (Prog.alone_mono (ordersInFlight_alone visitId input.force w)
        (fun w₁ x hx => ?_))
      obtain ⟨rfl, inFlight, rfl, hcount⟩ := hx
      dsimp only
      split
      · exact h
      · next hzero =>
        unfold takePayment
        refine alone_query (alone_query (alone_write (fun w' x hx => ?_)))
        obtain ⟨bill, hbill⟩ := buildBill_isSome hv
        rw [hbill] at hx ⊢
        have hset : ∃ n, x = .ok n ∧ w₁.settleTransaction visitId (input.close bill.totalKurus)
            bill.orderIds input.paymentMethod (w₁.unrevokedSessions visitId) = (w', n) :=
          ⟨_, (Prod.mk.inj hx).2.symm, Prod.ext (Prod.mk.inj hx).1 rfl⟩
        obtain ⟨n, rfl, hset⟩ := hset
        show KeepsBooks u (if n = 0 then _ else _) w'
        rcases settleTransaction_cases hset with ⟨rfl, rfl⟩ | ⟨v, hn, _, _, rfl⟩
        · rw [if_pos rfl]
          exact h
        · rw [if_neg hn]
          refine keepsBooks_harmless (publish_calls _ _)
            (h.settle hv hopen hbill rfl rfl rfl rfl (fun hu' id o ho hvisit hs => ?_))
          -- the count found none
          refine hzero (hcount (hu hu') ▸ List.length_pos_of_mem (a := (id, o)) ?_)
          exact Rows.mem_filter.mpr ⟨ho, by simpa [hvisit] using hs⟩

/-! ### The edit -/

/-- An order the edit's transaction writes is in flight, so it is not paid. -/
theorem BooksKept.edit {w' : World} (h : BooksKept u w) (hadd : OrdersAddUp w')
    {orderId : Id} {total : ℤ} (hfree : w.paidInFlight orderId = false)
    (hvisits : w'.tableVisits = w.tableVisits) (hsessions : w'.tableSessions = w.tableSessions)
    (horders : w'.orders = w.orders.update (World.editable orderId EDITABLE_STATUSES)
      (fun o => { o with totalKurus := total })) : BooksKept u w' := by
  refine h.change hadd hvisits hsessions (fun id => by rw [horders]; exact Rows.get?_update _ _ _ id)
    (fun id o ho => ?_)
  split
  · next hsel =>
    obtain ⟨hid, hs⟩ := Bool.and_eq_true_iff.mp hsel
    obtain rfl : id = orderId := beq_iff_eq.mp hid
    exact ⟨rfl, rfl, rfl, fun hpaid =>
      absurd hpaid (not_paid_of_inFlight hfree ho (List.contains_iff_mem.mp hs))⟩
  · exact ⟨rfl, rfl, rfl, fun _ => ⟨rfl, fun hs => hs, fun hs => hs⟩⟩

theorem editOrder_keepsBooks (h : BooksKept u w) {orderId venueId staffId : Id} {staffName : Text}
    {input : OrderEditInput} (hfree : w.paidInFlight orderId = false)
    (hfirst : ∀ i ∈ w.liveItems orderId, input.FirstDecides i) :
    KeepsBooks u (editOrder orderId venueId staffId staffName input) w := by
  unfold editOrder
  refine alone_query ?_
  split
  · exact h
  · next o ho =>
    split
    · exact h
    · next plan hplan =>
      refine alone_write (fun w' x hx => ?_)
      obtain ⟨b, rfl, hedit⟩ := exec_orderEditTransaction hx
      show KeepsBooks u (if (!b) = true then _ else _) w'
      rcases orderEditTransaction_cases hedit with ⟨rfl, rfl⟩ | ⟨items, order, rfl, happ, horder,
          hstatus, hitems, horders, _, hvisits, hsessions, _⟩
      · exact h
      · exact keepsBooks_harmless (publish_calls _ _) (h.edit
          (h.toOrdersAddUp.edit ho hplan rfl hfirst happ horder hstatus hitems horders) hfree
          hvisits hsessions horders)

/-! ### The desk's `PATCH` -/

/-- The desk moves orders that are in flight. -/
theorem inFlight_of_transitions {s s' : OrderStatus} (h : s' ∈ transitions s) :
    s ∈ IN_FLIGHT_STATUSES := by
  cases s <;> first
    | decide
    | cases h

/-- It moves none out of the bill but by refusing it. -/
theorem notVoid_of_transitions {s s' : OrderStatus} (h : s' ∈ transitions s)
    (hs : s' ≠ .rejected) : notVoid s' = true := by
  cases s' with
  | rejected => exact absurd rfl hs
  | cancelled => cases s <;> simp [transitions] at h
  | _ => rfl

theorem BooksKept.move (h : BooksKept u w) {id : Id} {order : Order}
    (horder : w.orders.get? id = some order) {status : OrderStatus}
    (hstep : status ∈ transitions order.status)
    (hfree : status = .rejected → w.paidInFlight id = false) (reason : Option Text) :
    BooksKept u { w with orders := w.orders.updateAt id (moveTo status reason) } := by
  refine h.change ?_ rfl rfl (fun k => Rows.get?_updateAt _ _ _ k) (fun k o ho => ?_)
  · refine h.toOrdersAddUp.relabel rfl rfl (fun k => Rows.get?_updateAt _ _ _ k) (fun k o => ?_)
    split
    · rfl
    · rfl
  · split
    · next hk =>
      subst hk
      rw [horder] at ho
      cases ho
      have hin := inFlight_of_transitions hstep
      refine ⟨rfl, rfl, rfl, fun hpaid => ⟨rfl, fun _ => notVoid_of_transitions hstep (fun hrej => ?_),
        fun hs => absurd hin hs⟩⟩
      exact not_paid_of_inFlight (hfree hrej) horder hin hpaid
    · exact ⟨rfl, rfl, rfl, fun _ => ⟨rfl, fun hs => hs, fun hs => hs⟩⟩

theorem patchOrder_keepsBooks (h : BooksKept u w) {staff : Option StaffClaims} {id : Id}
    {body : PatchBody} (hfree : body.status = some .rejected → w.paidInFlight id = false) :
    KeepsBooks u (patchOrder staff id body) w := by
  unfold patchOrder
  split
  · exact h
  · next staff =>
    refine alone_query ?_
    split
    · exact h
    · next order hfound =>
      obtain ⟨horder, _⟩ := Option.filter_eq_some_iff.mp hfound
      split
      · exact h
      · next status hstatus =>
        obtain ⟨hbody, hstep⟩ := Option.filter_eq_some_iff.mp hstatus
        split
        · exact h
        · refine alone_write (fun w' x hx => ?_)
          have hmoved : x = .ok (moveTo status body.rejectReason order) ∧ w' = { w with
              orders := w.orders.updateAt id (moveTo status body.rejectReason) } := by
            have hx' : w.orderUpdate id (moveTo status body.rejectReason) = (w', x) := hx
            unfold World.orderUpdate at hx'
            rw [horder] at hx'
            cases hx'
            exact ⟨rfl, rfl⟩
          obtain ⟨rfl, rfl⟩ := hmoved
          have h' := h.move horder (List.contains_iff_mem.mp hstep)
            (fun hrej => hfree (hrej ▸ hbody)) body.rejectReason
          show KeepsBooks u (if _ then _ else _) _
          split
          · exact keepsBooks_harmless (Prog.calls_bind (Prog.calls_perform (S := api) trivial)
              (fun _ _ => publish_calls _ _)) h'
          · exact keepsBooks_harmless (publish_calls _ _) h'

/-! ### The withdrawal -/

theorem BooksKept.withdraw (h : BooksKept u w) {id : Id}
    (hfree : ∀ o, w.orders.get? id = some o → o.paymentStatus ≠ .paid) :
    BooksKept u { w with orders := w.orders.update (withdrawable id) withdrawn } := by
  refine h.change ?_ rfl rfl (fun k => Rows.get?_update _ _ _ k) (fun k o ho => ?_)
  · refine h.toOrdersAddUp.relabel rfl rfl (fun k => Rows.get?_update _ _ _ k) (fun k o => ?_)
    split
    · rfl
    · rfl
  · split
    · next hsel =>
      obtain ⟨hk, hs⟩ := Bool.and_eq_true_iff.mp hsel
      obtain rfl : k = id := beq_iff_eq.mp hk
      exact ⟨rfl, rfl, rfl, fun hpaid => absurd hpaid (hfree o ho)⟩
    · exact ⟨rfl, rfl, rfl, fun _ => ⟨rfl, fun hs => hs, fun hs => hs⟩⟩

/-- The session a validated cookie stands for. -/
theorem getActiveSession_seat (cookie : Option ℕ) (expected : Option Text) (w : World) :
    Alone (fun _ x => ∀ session, x = .ok (some session) →
      ∃ s, w.tableSessions.get? session.id = some s ∧ s.visitId = session.visitId
        ∧ s.revokedAt = none) (getActiveSession cookie expected) w := by
  have hnone : ∀ w', Alone (fun _ x => ∀ session : ActiveSession, x = .ok (some session) →
      ∃ s, w.tableSessions.get? session.id = some s ∧ s.visitId = session.visitId
        ∧ s.revokedAt = none) (.ret none) w' := by
    intro w' session h
    cases h
  unfold getActiveSession
  cases cookie with
  | none => exact hnone w
  | some token =>
    refine alone_query ?_
    split
    · exact hnone w
    · next id s t hfound =>
      split
      · exact hnone w
      · next hrevoked =>
        refine alone_query ?_
        split
        · exact hnone w
        · split
          · exact hnone w
          · split
            · exact hnone w
            · split
              · exact hnone w
              · have hseen : ∃ s', w.tableSessions.get? id = some s' ∧ s'.visitId = s.visitId
                    ∧ s'.revokedAt = none :=
                  ⟨s, (sessionByToken_spec hfound).1, rfl, by simpa using hrevoked⟩
                split
                · refine alone_write (fun w' x hx => ?_)
                  cases x with
                  | ok _ =>
                    intro session h
                    cases h
                    exact hseen
                  | error e =>
                    intro session h
                    cases h
                · intro session h
                  cases h
                  exact hseen

theorem getActiveSession_alone (cookie : Option ℕ) (expected : Option Text) (w : World) :
    Alone (fun w' x => SameBooks w w' ∧ ∀ session, x = .ok (some session) →
      ∃ s, w.tableSessions.get? session.id = some s ∧ s.visitId = session.visitId
        ∧ s.revokedAt = none) (getActiveSession cookie expected) w :=
  ⟨alone_harmless (getActiveSession_calls cookie expected) w,
    getActiveSession_seat cookie expected w⟩

/-- **A paid order is not withdrawn**: its phone is out. -/
theorem cancelOrder_keepsBooks (h : BooksKept u w) (cookie : Option ℕ) (caller : Caller)
    (id : Id) : KeepsBooks u (cancelOrder cookie caller id) w := by
  unfold cancelOrder
  refine Prog.alone_bind (Prog.alone_mono (getActiveSession_alone cookie none w)
    (fun w₁ x hx => ?_))
  obtain ⟨hs, hsession⟩ := hx
  have h₁ := h.congr hs
  cases x with
  | error e => exact h₁
  | ok found =>
    cases found with
    | none => exact h₁
    | some session =>
      obtain ⟨s, hrow, _, hlive⟩ := hsession session rfl
      dsimp only
      refine alone_query ?_
      split
      · exact h₁
      · next order hfound =>
        obtain ⟨horder, hown⟩ := Option.filter_eq_some_iff.mp hfound
        split
        · exact h₁
        · refine alone_write (fun w' x hx => ?_)
          obtain ⟨rfl, rfl⟩ := Prod.mk.inj hx
          have h' : BooksKept u
              { w₁ with orders := w₁.orders.update (withdrawable id) withdrawn } := by
            refine h₁.withdraw (fun o ho hpaid => ?_)
            rw [horder] at ho
            cases ho
            refine h.revoked id order s (hs.orders ▸ horder) hpaid ?_ hlive
            rw [beq_iff_eq.mp hown]
            exact hrow
          show KeepsBooks u (if _ then _ else _) _
          split
          · exact h'
          · exact keepsBooks_harmless_bind (logAttempt_calls _ _ _) h'
              (fun w₂ _ _ h₂ => keepsBooks_harmless (publish_calls _ _) h₂)

/-! ### Placing, and the kitchen's jobs -/

/-- The session is seated where the orders placed with it are billed. -/
def World.Seats (w : World) (session : ActiveSession) : Prop :=
  ∀ s, w.tableSessions.get? session.id = some s → s.visitId = session.visitId

theorem World.Seats.congr {w w' : World} {session : ActiveSession} (h : w.Seats session)
    (hs : SameBooks w w') : w'.Seats session := by
  intro s' hs'
  obtain ⟨s, hrow, hv, _⟩ := hs.phones _ s' hs'
  rw [hv]
  exact h s hrow

theorem answerOrder_keepsBooks (h : BooksKept u w) (req : OrderRequest) {session : ActiveSession}
    (hseat : w.Seats session) : KeepsBooks u (answerOrder req session) w := by
  refine Prog.alone_mono (Prog.alone_of_calls
    (R := fun w w' : World => w.Seats session ∧ BooksKept u w → w'.Seats session ∧ BooksKept u w')
    (answerOrder_calls req session) (fun _ h => h)
    (fun _ _ _ h h' => h' ∘ h) (fun op w hop hw => ?_) w) (fun w' _ h' => (h' ⟨hseat, h⟩).2)
  rcases placeWork_cases hop with ⟨data, items, rfl, key, hplaced⟩ | hop
  · show (w.orderCreate plain data items).1.Seats session
      ∧ BooksKept u (w.orderCreate plain data items).1
    rcases orderCreate_world plain w data items with h | h
    · rw [h]
      exact hw
    · rw [h]
      refine ⟨hw.1, hw.2.insertOrder hplaced.toPriced (fun s hs => ?_)⟩
      rw [hplaced.ofSession] at hs
      rw [hplaced.ofVisit]
      exact hw.1 s hs
  · exact ⟨hw.1.congr (exec_harmless hop w).sameBooks,
      hw.2.congr (exec_harmless hop w).sameBooks⟩

theorem postOrder_keepsBooks (h : BooksKept u w) (req : OrderRequest) :
    KeepsBooks u (postOrder req) w := by
  unfold postOrder
  refine Prog.alone_bind (Prog.alone_mono (getActiveSession_alone req.cookie none w)
    (fun w₁ x hx => ?_))
  obtain ⟨hs, hsession⟩ := hx
  have h₁ := h.congr hs
  cases x with
  | error e => exact h₁
  | ok found =>
    cases found with
    | none =>
      show KeepsBooks u (if _ then _ else _) _
      split
      · exact keepsBooks_harmless
          (Prog.calls_bind (C := fun _ => True) (logAttempt_calls _ _ _)
            (fun _ _ => Prog.calls_ret.mpr trivial)) h₁
      · exact h₁
    | some session =>
      obtain ⟨s, hrow, hvisit, _⟩ := hsession session rfl
      refine answerOrder_keepsBooks h₁ req (World.Seats.congr (fun s' hs' => ?_) hs)
      rw [hrow] at hs'
      cases hs'
      exact hvisit

theorem enqueue_keepsBooks (h : BooksKept u w) (orderId : Id) (amendment : Option Amendment) :
    KeepsBooks u (enqueuePosDelivery orderId amendment) w := by
  refine Prog.alone_mono (Prog.alone_of_calls (R := SameBooks)
    (enqueuePosDelivery_calls orderId amendment) SameBooks.refl (fun _ _ _ => SameBooks.trans)
    (fun op w hop => ?_) w) (fun w' _ hs => h.congr hs)
  obtain ⟨deliveries, heq⟩ := exec_outboxWork (c := plain) hop w
  rw [heq]
  exact SameBooks.of_eq rfl rfl rfl rfl

end

/-! ## Every sequence -/

/-- The turn forces no settlement, and the first entries of an edit decide. -/
def Turn.Unforced (w : World) : Turn → Prop
  | .settle _ _ input => input.force = false
  | .edit orderId _ _ _ input => ∀ i ∈ w.liveItems orderId, input.FirstDecides i
  | _ => True

/-- Every turn of the sequence does. -/
def TurnsUnforced : World → List Turn → Prop
  | _, [] => True
  | w, t :: ts => t.Unforced w ∧ TurnsUnforced (t.take w) ts

/-- **What one turn preserves.** -/
theorem BooksKept.take {u : Prop} {w : World} (h : BooksKept u w) {t : Turn}
    (ht : t.Respects w) (hu : u → t.Unforced w) : BooksKept u (t.take w) := by
  cases t with
  | place req => exact postOrder_keepsBooks h req
  | settle visitId venueId input => exact settleVisit_keepsBooks h visitId venueId hu
  | edit orderId venueId staffId staffName input => exact editOrder_keepsBooks h ht.1 ht.2
  | patch staff id body => exact patchOrder_keepsBooks h ht
  | cancel cookie caller id => exact cancelOrder_keepsBooks h cookie caller id
  | job j => exact enqueue_keepsBooks h j.orderId j.amendment
  | wait ms => exact h.congr (SameBooks.of_eq rfl rfl rfl rfl)

/-- **What a sequence preserves.** -/
theorem PaidBooks.turns {w : World} (h : PaidBooks w) {ts : List Turn} (ht : TurnsRespect w ts) :
    PaidBooks (w.turns ts) := by
  induction ts generalizing w with
  | nil => exact h
  | cons t ts ih =>
    have hw : BooksKept False w := ⟨h, False.elim⟩
    exact ih (hw.take ht.1 False.elim).toPaidBooks ht.2

/-- **Without a forced settlement there is no paid order in flight** to be touched. -/
theorem turnsRespect_of_unforced {w : World} (h : BooksKept True w) {ts : List Turn}
    (ht : TurnsUnforced w ts) : TurnsRespect w ts := by
  induction ts generalizing w with
  | nil => exact trivial
  | cons t ts ih =>
    have hfree := h.served trivial
    have hrespects : t.Respects w := by
      cases t with
      | edit orderId venueId staffId staffName input => exact ⟨hfree orderId, ht.1⟩
      | patch staff id body => exact fun _ => hfree id
      | _ => exact trivial
    exact ⟨hrespects, ih (h.take hrespects (fun _ => ht.1)) ht.2⟩

/-- **The books of settled visits are right** after every sequence of requests in
which the desk leaves paid orders in flight alone. -/
theorem settled_right (w₀ : World) (ts : List Turn) (h₀ : PaidBooks w₀)
    (h : TurnsRespect w₀ ts) : SettledRight (w₀.turns ts) :=
  (h₀.turns h).toSettledRight

/-- A database without orders, in which no visit is settled. -/
theorem paidBooks_empty {w : World} (ho : w.orders = Rows.empty) (hi : w.orderItems = Rows.empty)
    (hv : ∀ id v, w.tableVisits.get? id = some v → ¬ v.Settled) : PaidBooks w where
  toOrdersAddUp := ordersAddUp_empty ho hi
  total id v hget hset := absurd hset (hv id v hget)
  standing id v hget hset := absurd hset (hv id v hget)
  seated id o s hid := by
    rw [ho] at hid
    cases hid
  revoked id o s hid := by
    rw [ho] at hid
    cases hid
  paid id o hid := by
    rw [ho] at hid
    cases hid

theorem kitchenOpen_paidBooks : PaidBooks kitchenOpen := by
  have hopen : ∀ r ∈ kitchenOpen.tableVisits.rows, r.2.status ≠ .closed := by decide
  exact paidBooks_empty rfl rfl (fun id v hv hset =>
    hopen (id, v) (Rows.get?_eq_some_iff.mp hv) hset.1)

/-- Cash, whatever the kitchen is at. -/
def forced : SettleInput := ⟨.cash, none, 0, true⟩

/-- The till of the open kitchen. -/
def till : StaffClaims := ⟨0, 0, []⟩

/-- The books are right after two orders, one of them corrected, a forced settlement,
and a kitchen that goes on with what was paid. -/
theorem settled_right_corrected : SettledRight (kitchenOpen.turns
    [.place twoDishes, .place twoDishes, .edit 0 0 0 [] lowered, .settle 0 0 forced,
      .patch (some till) 0 ⟨some .accepted, none⟩, .job ⟨0, none⟩, .cancel (some 7) ⟨[], []⟩ 1]) :=
  settled_right kitchenOpen _ kitchenOpen_paidBooks (by decide)

/-- What a forced settlement of one order of two dishes writes into the visit. -/
def settledVisit : TableVisit :=
  forced.close 200 0 ⟨0, 0, .opened, 0, none, none, none, none, none, none, none⟩

/-- The desk corrects the paid order. -/
def correction : Turn := .edit 0 0 0 [] lowered

/-- The desk refuses the paid order. -/
def refusal : Turn := .patch (some till) 0 ⟨some .rejected, some (text "yok")⟩

/-- **A forced settlement leaves paid orders that can still be corrected or refused**,
and then its books are not right. -/
theorem settled_right_fails :
    PaidBooks (kitchenOpen.turns [.place twoDishes])
      ∧ ¬ SettledRight ((kitchenOpen.turns [.place twoDishes]).turns [.settle 0 0 forced, correction])
      ∧ ¬ SettledRight ((kitchenOpen.turns [.place twoDishes]).turns [.settle 0 0 forced, refusal]) := by
  refine ⟨kitchenOpen_paidBooks.turns (by decide), fun h => ?_, fun h => ?_⟩
  · -- the till took 200, and what was paid for comes to 100
    have hv : ((kitchenOpen.turns [.place twoDishes]).turns
        [.settle 0 0 forced, correction]).tableVisits.get? 0 = some settledVisit := by decide
    have hpaid : ((kitchenOpen.turns [.place twoDishes]).turns
        [.settle 0 0 forced, correction]).paidTotal 0 = 100 := by decide
    have htotal := h.total 0 settledVisit hv ⟨rfl, rfl⟩
    rw [hpaid] at htotal
    exact absurd htotal (by decide)
  · have hv : ((kitchenOpen.turns [.place twoDishes]).turns
        [.settle 0 0 forced, refusal]).tableVisits.get? 0 = some settledVisit := by decide
    have ho : ((kitchenOpen.turns [.place twoDishes]).turns
        [.settle 0 0 forced, refusal]).orders.get? 0
        = some ⟨0, 0, 0, some 0, 1, .rejected, some (text "yok"), 200, .paid, some .cash, none, 0⟩ := by
      decide
    have hstands := h.standing 0 settledVisit hv ⟨rfl, rfl⟩ 0 _ ho rfl rfl
    exact absurd hstands (by decide)

end Masadan
