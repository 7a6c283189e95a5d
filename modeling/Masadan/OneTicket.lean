import Masadan.LastPaper
import Masadan.Tokens

/-!
# One ticket for one order

The kitchen cooks what an order's ticket says, once. Acceptance is where the ticket
comes from: the desk's `PATCH` moves the order from received to accepted and starts the
job that writes it. An order is received once, so there is one right to a ticket, and it
passes from the order to the request that accepts it, from the request to its job, and
from the job to the outbox.

The `PATCH` reads the status in one call and writes in another, by id alone. Two
screens that accept together both write, and both start a job: a right is made that was
not there (`one_ticket_fails`). Where an acceptance writes on an order that is still
received, there is at most one ordinary ticket; any other is an amendment
(`one_ticket`).
-/

namespace Masadan

/-- A delivery of the order that is no amendment. -/
def ordinary (orderId : Id) (d : PosDelivery) : Bool :=
  d.orderId == orderId && d.payload.ticket.amendment.isNone

/-- How many ordinary tickets the order has. -/
def World.ordinaryTickets (w : World) (orderId : Id) : ℕ :=
  w.posDeliveries.count (fun _ d => ordinary orderId d)

/-- One while the order is received. -/
def World.unaccepted (w : World) (orderId : Id) : ℕ :=
  if (w.orders.get? orderId).any (fun o => o.status == .received) then 1 else 0

/-- **An acceptance writes on an order that is still received.** -/
def acceptsReceived (r : KitchenRequest) (op : Call) (w : World) : Bool :=
  match r, op with
  | .patch _ id body, .orderUpdate _ _ =>
    body.status != some .accepted || (w.orders.get? id).all (fun o => o.status == .received)
  | _, _ => true

/-- What the requests promise when acceptances write on received orders. -/
abbrev acceptanceProtocol (rough : Bool) : Protocol (kitchenServer rough) where
  Inv _ := True
  Evolves _ _ := True
  refl _ := trivial
  Guard r _ _ op w := acceptsReceived r op w

/-! ## The right to a ticket -/

/-- The order whose ordinary ticket a program is about to write, or to have written. -/
def ordinaryOwedBy {α : Type} : Api α → Option Id
  | .call (.background j) _ => if j.amendment.isNone then some j.orderId else none
  | .call (.posDeliveryCreate data) _ =>
    if data.payload.ticket.amendment.isNone then some data.orderId else none
  | _ => none

/-- **The order to whose ordinary ticket a program has the right.** A job has it from
its start. -/
def ordinaryOwed (r : KitchenRequest) (v : View api World) (p : Api KitchenAnswer) : Option Id :=
  match r, v.past, p with
  | .enqueue j, [], .call _ _ => if j.amendment.isNone then some j.orderId else none
  | _, _, p => ordinaryOwedBy p

/-- **The right to an ordinary ticket of the order**: the order's while it is received,
or a program's; a ticket written is a right used up, and counts. -/
abbrev ticketRight (rough : Bool) (id : Id) : Token (kitchenServer rough) where
  stock w := w.ordinaryTickets id + w.unaccepted id
  holds r v p := if ordinaryOwed r v p = some id then 1 else 0

theorem ordinaryOwed_later {r : KitchenRequest} {v : View api World} {p : Api KitchenAnswer}
    (h : Late r v) : ordinaryOwed r v p = ordinaryOwedBy p := by
  unfold ordinaryOwed
  split
  · next hpast => exact absurd hpast (h _ rfl)
  · rfl

theorem unaccepted_le {w w' : World} {id : Id}
    (h : ∀ o', w'.orders.get? id = some o' → o'.status = .received →
      ∃ o, w.orders.get? id = some o ∧ o.status = .received) : w'.unaccepted id ≤ w.unaccepted id := by
  unfold World.unaccepted
  by_cases hw' : (w'.orders.get? id).any (fun o => o.status == .received) = true
  · obtain ⟨o', ho', hs'⟩ := (Option.any_eq_true _ _).mp hw'
    obtain ⟨o, ho, hs⟩ := h o' ho' (beq_iff_eq.mp hs')
    have hw : (w.orders.get? id).any (fun o => o.status == .received) = true := by
      rw [ho, Option.any_some, hs]
      rfl
    rw [if_pos hw', if_pos hw]
  · rw [if_neg hw']
    exact Nat.zero_le _

/-- Deliveries change, but neither their orders nor their payloads. -/
theorem ordinaryTickets_update {w w' : World} {g : Id → PosDelivery → PosDelivery}
    (h : ∀ k, w'.posDeliveries.get? k = (w.posDeliveries.get? k).map (g k))
    (hg : ∀ k d, (g k d).orderId = d.orderId ∧ (g k d).payload = d.payload) (id : Id) :
    w'.ordinaryTickets id = w.ordinaryTickets id :=
  Rows.count_of_get? h (fun k d => by
    unfold ordinary
    rw [(hg k d).1, (hg k d).2])

theorem ordinaryTickets_create (w : World) (data : NewPosDelivery) (id : Id) :
    (w.posDeliveryCreate data).ordinaryTickets id = w.ordinaryTickets id
      + if data.orderId = id ∧ data.payload.ticket.amendment.isNone = true then 1 else 0 := by
  unfold World.ordinaryTickets World.posDeliveryCreate
  rw [Rows.count_create]
  congr 1
  unfold ordinary
  simp only [Bool.and_eq_true, beq_iff_eq]

/-- A call on deliveries already there makes no right and uses none. -/
theorem exec_pushWork_stock {c : Choice} {op : Call} (h : op.PushWork) (w : World) (id : Id) :
    (World.exec c op w).1.ordinaryTickets id = w.ordinaryTickets id
      ∧ (World.exec c op w).1.unaccepted id = w.unaccepted id := by
  cases op with
  | query q => exact ⟨rfl, rfl⟩
  | posDeliveryUpdate k data =>
    show (w.posDeliveryUpdate k data).1.ordinaryTickets id = _
      ∧ (w.posDeliveryUpdate k data).1.unaccepted id = _
    unfold World.posDeliveryUpdate
    split
    · exact ⟨rfl, rfl⟩
    · refine ⟨ordinaryTickets_update (fun j => Rows.get?_updateAt _ _ _ j) (fun j d => ?_) id, rfl⟩
      split
      · exact h d
      · exact ⟨rfl, rfl⟩
  | posDeliveryUpdateMany cond data =>
    refine ⟨ordinaryTickets_update (fun j => Rows.get?_update _ _ _ j) (fun j d => ?_) id, rfl⟩
    split
    · exact h d
    · exact ⟨rfl, rfl⟩
  | _ => exact h.elim

/-! ## Handlers, call by call -/

section

variable {rough : Bool} {id : Id} {r : KitchenRequest} {v : View api World}

variable (rough id) in
/-- The handler, from here on, makes no right to a ticket. -/
abbrev Spends (r : KitchenRequest) (v : View api World) (p : Api KitchenAnswer) : Prop :=
  (acceptanceProtocol rough).Frugal (ticketRight rough id) r v p

variable (rough id) in
/-- What a program has the right to. -/
abbrev rights (r : KitchenRequest) (v : View api World) (p : Api KitchenAnswer) : ℕ :=
  (ticketRight rough id).holds r v p

theorem rights_none {p : Api KitchenAnswer} (hlate : Late r v) (h : ordinaryOwedBy p = none) :
    rights rough id r v p = 0 := by
  show (if ordinaryOwed r v p = some id then 1 else 0) = 0
  rw [ordinaryOwed_later hlate, h, if_neg (by simp)]

/-- A program that owes no ordinary ticket brings no right along. -/
theorem rights_spent {w : World} {p : Api KitchenAnswer} (hlate : Late r v)
    (h : ordinaryOwedBy p = none) (n : ℕ) :
    w.ordinaryTickets id + w.unaccepted id + rights rough id r v p
      ≤ w.ordinaryTickets id + w.unaccepted id + n := by
  rw [rights_none hlate h]
  exact Nat.le_add_right _ _

/-- One that owes an ordinary ticket has the right to it. -/
theorem rights_owed {k : Id} {p : Api KitchenAnswer} (hlate : Late r v)
    (h : ordinaryOwedBy p = some k) : rights rough id r v p = if k = id then 1 else 0 := by
  show (if ordinaryOwed r v p = some id then 1 else 0) = _
  rw [ordinaryOwed_later hlate, h]
  simp only [Option.some.injEq]

/-- One call that starts no job: it fails and leaves the world as it was, or is
answered. -/
theorem spends_call {op : Call} {k : Except DbError (Call.Res op) → Api KitchenAnswer}
    (hjob : (kitchenServer rough).spawns op = [])
    (h : ∀ w c w' x, acceptsReceived r op w = true → Yields rough c op w w' x →
      w'.ordinaryTickets id + w'.unaccepted id + rights rough id r (v.push ⟨op, w, w'⟩) (k x)
          ≤ w.ordinaryTickets id + w.unaccepted id + rights rough id r v (.call op k)
        ∧ Spends rough id r (v.push ⟨op, w, w'⟩) (k x)) :
    Spends rough id r v (.call op k) := by
  intro w c _ _ hg
  obtain ⟨hle, hrest⟩ := h w c _ _ hg (yields_exec c op w)
  refine ⟨⟨trivial, trivial, trivial⟩, ?_, hrest⟩
  rw [hjob]
  exact hle

/-- A read. -/
theorem spends_query {β : Type} {q : World → β} {k : Except DbError β → Api KitchenAnswer}
    (hright : ∀ w x, rights rough id r (v.push ⟨.query q, w, w⟩) (k x)
      ≤ rights rough id r v (.call (.query q) k))
    (h : ∀ w x, (x = .ok (q w) ∨ ∃ e, x = .error e) →
      Spends rough id r (v.push ⟨.query q, w, w⟩) (k x)) :
    Spends rough id r v (.call (.query q) k) := by
  refine spends_call rfl (fun w c w' x _ hx => ?_)
  rcases hx with hx | ⟨_, rfl, rfl⟩
  · cases hx
    exact ⟨Nat.add_le_add_left (hright w _) _, h w _ (.inl rfl)⟩
  · exact ⟨Nat.add_le_add_left (hright w' _) _, h w' _ (.inr ⟨_, rfl⟩)⟩

/-- The last of a handler, when it only pushes deliveries. -/
theorem spends_pushWork {B : KitchenAnswer → Prop} {p : Api KitchenAnswer}
    (hp : p.Calls Call.PushWork B) (hlate : Late r v) : Spends rough id r v p := by
  have hnone : ∀ (v' : View api World) (p' : Api KitchenAnswer), Late r v' →
      p'.Calls Call.PushWork B → rights rough id r v' p' = 0 := by
    intro v' p' hlate' hp'
    refine rights_none hlate' ?_
    cases p' with
    | ret a => rfl
    | raise e => rfl
    | call op k =>
      cases op <;> first
        | exact hp'.1.elim
        | rfl
  induction p generalizing v with
  | ret a => exact trivial
  | raise e => exact trivial
  | call op k ih =>
    have hjob : (kitchenServer rough).spawns op = [] := by
      cases op <;> first
        | exact hp.1.elim
        | rfl
    refine spends_call hjob (fun w c w' x _ hx => ⟨?_, ih x (hp.2 x) (Late.push r v _)⟩)
    rw [hnone _ _ (Late.push r v _) (hp.2 x)]
    rcases hx with hx | ⟨_, rfl, _⟩
    · have hstock := exec_pushWork_stock (c := c) hp.1 w id
      rw [hx] at hstock
      rw [hstock.1, hstock.2]
      exact Nat.le_add_right _ _
    · exact Nat.le_add_right _ _

/-- News on the bus, and nothing more. -/
theorem spends_publish {event : BusEvent} {k : Except DbError Unit → Api KitchenAnswer}
    (hnone : ∀ x, ordinaryOwedBy (k x) = none)
    (h : ∀ w w' x, Spends rough id r (v.push ⟨.publish event, w, w'⟩) (k x)) :
    Spends rough id r v (.call (.publish event) k) := by
  refine spends_call rfl (fun w c w' x _ hx => ⟨?_, h _ _ _⟩)
  rcases hx with hx | ⟨_, rfl, _⟩
  · cases hx
    exact rights_spent (Late.push r v _) (hnone _) _
  · exact rights_spent (Late.push r v _) (hnone x) _

/-- A job started has the right its starter had. -/
theorem spends_background {j : Job} {k : Except DbError Unit → Api KitchenAnswer}
    (hlate : Late r v) (hnone : ∀ x, ordinaryOwedBy (k x) = none)
    (h : ∀ w x, Spends rough id r (v.push ⟨.background j, w, w⟩) (k x)) :
    Spends rough id r v (.call (.background j) k) := by
  intro w c _ _ _
  have hx : (kitchenServer rough).exec c (.background j) w = (w, .ok ()) := by
    show (if (rough && c.fault && false) = true then _ else _) = _
    rw [Bool.and_false, if_neg Bool.false_ne_true]
    rfl
  rw [hx]
  refine ⟨⟨trivial, trivial, trivial⟩, ?_, h w _⟩
  have hafter : rights rough id r (v.push ⟨.background j, w, w⟩) (k (.ok ())) = 0 :=
    rights_none (Late.push r v _) (hnone _)
  have hstart : (ticketRight rough id).held [Sys.start (KitchenRequest.enqueue j) w]
      = rights rough id r v (.call (.background j) k) := by
    show (if ordinaryOwed _ _ _ = some id then 1 else 0) + 0
      = if ordinaryOwed r v _ = some id then 1 else 0
    rw [ordinaryOwed_later hlate]
    rfl
  show w.ordinaryTickets id + w.unaccepted id + rights rough id r _ (k (.ok ()))
    + (ticketRight rough id).held [Sys.start (KitchenRequest.enqueue j) w] ≤ _
  rw [hafter, hstart, Nat.add_zero]

/-! ## The desk -/

theorem transitions_leave_received {s s' : OrderStatus} (h : s' ∈ transitions s) :
    s' ≠ .received := by
  rintro rfl
  cases s <;> simp [transitions] at h

/-- An acceptance finds the order received. -/
theorem received_of_accepts {staff : Option StaffClaims} {k : Id} {body : PatchBody}
    {data : Order → Order} {w : World} {o : Order}
    (h : acceptsReceived (.patch staff k body) (.orderUpdate k data) w = true)
    (haccepted : body.status = some .accepted) (ho : w.orders.get? k = some o) :
    o.status = .received := by
  unfold acceptsReceived at h
  dsimp only at h
  rw [haccepted, bne_self_eq_false, Bool.false_or, ho, Option.all_some] at h
  exact beq_iff_eq.mp h

/-- **Moving an order**: the right goes from a received order to the acceptance, and no
order becomes received. -/
theorem move_stock {w : World} {k : Id} {o : Order} {status : OrderStatus} {reason : Option Text}
    (ho : w.orders.get? k = some o) (hstatus : status ≠ .received)
    (hreceived : status = .accepted → o.status = .received) :
    ({ w with orders := w.orders.updateAt k (moveTo status reason) } : World).unaccepted id
      + (if k = id ∧ status = .accepted then 1 else 0) ≤ w.unaccepted id := by
  set w' : World := { w with orders := w.orders.updateAt k (moveTo status reason) } with hw'
  have hget : w'.orders.get? id
      = (w.orders.get? id).map (fun o => if id = k then moveTo status reason o else o) :=
    Rows.get?_updateAt _ _ _ id
  by_cases hk : k = id
  · subst hk
    -- the order moved is not received any more
    have hnone : w'.unaccepted k = 0 := by
      unfold World.unaccepted
      rw [hget, ho, Option.map_some, if_pos rfl, Option.any_some]
      refine if_neg ?_
      rw [beq_iff_eq]
      exact hstatus
    rw [hnone, Nat.zero_add]
    by_cases haccepted : status = .accepted
    · rw [if_pos ⟨rfl, haccepted⟩]
      unfold World.unaccepted
      rw [ho, Option.any_some, if_pos (by rw [hreceived haccepted]; rfl)]
    · rw [if_neg (fun h => haccepted h.2)]
      exact Nat.zero_le _
  · rw [if_neg (fun h => hk h.1), Nat.add_zero]
    refine unaccepted_le (fun o' ho' hs => ?_)
    rw [hget] at ho'
    obtain ⟨o₁, ho₁, rfl⟩ := Option.map_eq_some_iff.mp ho'
    rw [if_neg (Ne.symm hk)] at hs
    exact ⟨o₁, ho₁, hs⟩

theorem patchOrder_spends (staff : Option StaffClaims) (k : Id) (body : PatchBody)
    (hr : r = .patch staff k body) :
    Spends rough id r v (KitchenAnswer.patched <$> patchOrder staff k body) := by
  have hlate : ∀ v', Late r v' := by
    intro v' j hj
    rw [hr] at hj
    cases hj
  unfold patchOrder
  cases staff with
  | none => exact trivial
  | some staff =>
    refine spends_query (fun w x => ?_) (fun w x hx => ?_)
    · refine le_of_eq_of_le (rights_none (hlate _) ?_) (Nat.zero_le _)
      cases x with
      | error e => rfl
      | ok found =>
        cases found with
        | none => rfl
        | some order =>
          dsimp only [Prog.ofExcept, Prog.ret_bind]
          split
          · rfl
          · split
            · rfl
            · rfl
    rcases hx with rfl | ⟨e, rfl⟩
    swap
    · exact trivial
    dsimp only [Prog.ofExcept, Prog.ret_bind]
    split
    · exact trivial
    · next order hfound =>
      split
      · exact trivial
      · next status hstatus =>
        obtain ⟨hbody, hnext⟩ := Option.filter_eq_some_iff.mp hstatus
        split
        · exact trivial
        · refine spends_call rfl (fun w₁ c w' x hg hx => ?_)
          rcases hx with hx | ⟨_, rfl, rfl⟩
          swap
          · exact ⟨rights_spent (hlate _) rfl _, trivial⟩
          rcases orderUpdate_cases hx with ⟨rfl, e, rfl⟩ | ⟨o, ho, rfl, rfl⟩
          · exact ⟨rights_spent (hlate _) rfl _, trivial⟩
          have hreceived : status = .accepted → o.status = .received :=
            fun haccepted => received_of_accepts (hr ▸ hg) (hbody.trans (congrArg some haccepted)) ho
          have hmove : ({ w₁ with
              orders := w₁.orders.updateAt k (moveTo status body.rejectReason) } : World).unaccepted id
              + (if k = id ∧ status = .accepted then 1 else 0) ≤ w₁.unaccepted id :=
            move_stock ho (transitions_leave_received (List.contains_iff_mem.mp hnext)) hreceived
          -- what is left of the request, which starts the job if this was an acceptance
          show _ + rights rough id r _ (Prog.bind (if _ then _ else _) _) ≤ _
            ∧ Spends rough id r _ (Prog.bind (if _ then _ else _) _)
          by_cases haccepted : status = .accepted
          · rw [if_pos haccepted]
            refine ⟨?_, spends_background (hlate _) (fun x => by cases x <;> rfl) (fun w₂ x => ?_)⟩
            · rw [rights_owed (k := k) (hlate _) rfl]
              subst haccepted
              rw [if_congr (and_iff_left rfl) rfl rfl] at hmove
              show w₁.ordinaryTickets id + _ + _ ≤ _
              omega
            · cases x with
              | error e => exact trivial
              | ok _ => exact spends_publish (fun x => by cases x <;> rfl) (fun _ _ x => by
                  cases x <;> exact trivial)
          · rw [if_neg haccepted]
            refine ⟨?_, spends_publish (fun x => by cases x <;> rfl) (fun _ _ x => by
              cases x <;> exact trivial)⟩
            rw [rights_none (hlate _) rfl]
            show w₁.ordinaryTickets id + _ + _ ≤ _
            omega

theorem patchItems_spends (staff : Option StaffClaims) (k : Id) (lines : Option (List (Id × ℤ)))
    (hr : ∀ j, r ≠ .enqueue j) :
    Spends rough id r v (KitchenAnswer.corrected <$> patchItems staff k lines) := by
  have hlate : ∀ v', Late r v' := fun v' j hj => absurd hj (hr j)
  unfold patchItems
  cases staff with
  | none => exact trivial
  | some staff =>
    dsimp only
    split
    · exact trivial
    · next input _ =>
      unfold editOrder
      refine spends_query (fun w x => ?_) (fun w x hx => ?_)
      · refine le_of_eq_of_le (rights_none (hlate _) ?_) (Nat.zero_le _)
        cases x with
        | error e => rfl
        | ok found =>
          cases found with
          | none => rfl
          | some order =>
            dsimp only [Prog.ofExcept, Prog.ret_bind]
            split
            · rfl
            · rfl
      rcases hx with rfl | ⟨e, rfl⟩
      swap
      · exact trivial
      dsimp only [Prog.ofExcept, Prog.ret_bind]
      split
      · exact trivial
      · next o ho =>
        split
        · exact trivial
        · next plan hplan =>
          refine spends_call rfl (fun w₁ c w' x _ hx => ?_)
          rcases hx with hx | ⟨_, rfl, rfl⟩
          swap
          · exact ⟨rights_spent (hlate _) rfl _, trivial⟩
          obtain ⟨b, rfl, hedit⟩ := exec_orderEditTransaction hx
          rcases orderEditTransaction_cases hedit with
            ⟨rfl, rfl⟩ | ⟨items, order, rfl, _, _, _, _, horders, hdeliveries, _⟩
          · exact ⟨rights_spent (hlate _) rfl _, trivial⟩
          refine ⟨?_, spends_publish (fun x => ?_) (fun _ _ x => ?_)⟩
          · -- the statuses stay, and an amendment is no ordinary ticket
            have hunaccepted : w'.unaccepted id ≤ w₁.unaccepted id := by
              refine unaccepted_le (fun o' ho' hs => ?_)
              obtain ⟨o, ho, hsame⟩ := status_edit horders ho'
              exact ⟨o, ho, hsame ▸ hs⟩
            have hordinary : w'.ordinaryTickets id = w₁.ordinaryTickets id := by
              unfold World.ordinaryTickets
              rw [hdeliveries]
            rw [rights_none (hlate _) rfl, hordinary]
            omega
          · cases x with
            | error e => rfl
            | ok _ =>
              show ordinaryOwedBy (Prog.bind (if plan.afterPrint = true then _ else _) _) = none
              split
              · rfl
              · rfl
          · cases x with
            | error e => exact trivial
            | ok _ =>
              show Spends rough id r _ (Prog.bind (if plan.afterPrint = true then _ else _) _)
              split
              · exact spends_background (hlate _) (fun x => by cases x <;> rfl) (fun _ x => by
                  cases x <;> exact trivial)
              · exact trivial

/-! ## Jobs and the sweep -/

theorem enqueue_spends (j : Job) (w₀ : World) :
    Spends rough id (.enqueue j) ⟨w₀, []⟩ (KitchenRequest.prog (.enqueue j)) := by
  show Spends rough id _ _ (Prog.bind (enqueuePosDelivery j.orderId j.amendment) _)
  unfold enqueuePosDelivery enqueueBody
  have hlate : ∀ (v' : View api World) e, Late (.enqueue j) (v'.push e) := Late.push _
  refine spends_query (fun w x => ?_) (fun w x hx => ?_)
  · -- the ticket it goes on to write is an amendment if the job is for one
    show (if ordinaryOwed _ _ _ = some id then 1 else 0) ≤ if ordinaryOwed _ _ _ = some id then 1 else 0
    rw [ordinaryOwed_later (hlate _ _)]
    cases x with
    | error e =>
      rw [if_neg (by exact Option.some_ne_none id ∘ Eq.symm)]
      exact Nat.zero_le _
    | ok found =>
      cases found with
      | none =>
        rw [if_neg (by exact Option.some_ne_none id ∘ Eq.symm)]
        exact Nat.zero_le _
      | some o =>
        show (if (if Option.isNone (Payload.ticket (AdapterName.renderPayload _ _)).amendment = true
          then some j.orderId else none) = some id then 1 else 0) ≤ _
        rw [ticket_renderPayload]
        exact le_refl _
  rcases hx with rfl | ⟨e, rfl⟩
  swap
  · exact trivial
  beta_reduce
  cases hfound : w.orderToEnqueue j.orderId with
  | none => exact trivial
  | some o =>
    refine spends_call rfl (fun w₁ c w' x _ hx => ?_)
    rcases hx with hx | ⟨_, rfl, rfl⟩
    swap
    · exact ⟨rights_spent (hlate _ _) rfl _, trivial⟩
    cases hx
    have hrest : ∀ delivery, (Prog.bind (Prog.bind (Prog.attempt (attemptDelivery delivery
        { ticketFor o with amendment := j.amendment })) (fun _ => .ret ()))
        (fun _ => .ret KitchenAnswer.enqueued)).Calls Call.PushWork (fun _ => True) := fun _ =>
      Prog.calls_bind (B := fun _ => True) (Prog.calls_bind
        (Prog.calls_attempt (attemptDelivery_calls _ _)) (fun _ _ => trivial)) (fun _ _ => trivial)
    refine ⟨?_, spends_pushWork (hrest _) (hlate _ _)⟩
    -- the right is used up, and the ticket counts
    rw [rights_none (hlate _ _) rfl, ordinaryTickets_create]
    show w₁.ordinaryTickets id + _ + w₁.unaccepted id + 0 ≤ _
      + if ordinaryOwed _ _ _ = some id then 1 else 0
    rw [ordinaryOwed_later (hlate _ _)]
    show _ ≤ _ + if (if Option.isNone (Payload.ticket (AdapterName.renderPayload _ _)).amendment
      = true then some j.orderId else none) = some id then 1 else 0
    rw [ticket_renderPayload]
    by_cases hamendment : j.amendment.isNone = true
    · rw [if_pos hamendment]
      simp only [Option.some.injEq, hamendment, and_true]
      omega
    · rw [if_neg hamendment, if_neg (fun h => hamendment h.2)]
      omega

theorem sweep_spends : Spends rough id .sweep v (KitchenRequest.prog .sweep) :=
  spends_pushWork (B := fun _ => True) (Prog.calls_bind sweepPosDeliveries_calls
    (fun _ _ => Prog.calls_ret.mpr trivial)) (fun j hj => by cases hj)

end

/-- **No request of the kitchen makes a right to a ticket**, and what arrives has none. -/
theorem kitchen_thrifty (rough : Bool) (id : Id) :
    (acceptanceProtocol rough).Thrifty (ticketRight rough id) where
  env e w _ := by
    cases e with
    | tick ms => exact ⟨trivial, trivial, le_refl _⟩
    | crash => exact ⟨trivial, trivial, le_refl _⟩
  entry r w _ := by
    cases r with
    | patch staff k body => exact patchOrder_spends staff k body rfl
    | items staff k lines => exact patchItems_spends staff k lines (fun j hj => by cases hj)
    | enqueue j => exact enqueue_spends j w
    | sweep => exact sweep_spends
  empty r w hr := by
    cases r with
    | enqueue j => cases hr
    | sweep => exact rights_none (fun j hj => by cases hj) rfl
    | patch staff k body =>
      refine rights_none (fun j hj => by cases hj) ?_
      cases staff with
      | none => rfl
      | some staff => rfl
    | items staff k lines =>
      refine rights_none (fun j hj => by cases hj) ?_
      show ordinaryOwedBy (KitchenAnswer.corrected <$> patchItems staff k lines) = none
      unfold patchItems
      cases staff with
      | none => rfl
      | some staff =>
        dsimp only
        split
        · rfl
        · rfl

/-- **One ticket for one order.** In every run in which each acceptance writes on an
order that is still received, an order has no more ordinary tickets than it had, and
one if it was received. -/
theorem one_ticket (rough : Bool) (w₀ : World) (acts : List (kitchenServer rough).Action) (id : Id)
    (hm : Sys.Pool.Meets (acceptanceProtocol rough).cond (Sys.Pool.init w₀) acts = true) :
    (kitchenRun rough w₀ acts).world.ordinaryTickets id
      ≤ w₀.ordinaryTickets id + w₀.unaccepted id := by
  have htotal := (kitchen_thrifty rough id).run trivial hm
  have hworld : (kitchenRun rough w₀ acts).world.ordinaryTickets id
      ≤ (ticketRight rough id).total (kitchenRun rough w₀ acts) :=
    (Nat.le_add_right _ _).trans (Nat.le_add_right _ _)
  exact hworld.trans htotal

/-! ### Two screens accept together -/

/-- Both have read the order before either writes; both jobs write a ticket. -/
def acceptedTwice : List (kitchenServer false).Action :=
  [.arrive accept, .arrive accept, .step 0 plain, .step 1 plain]
    ++ List.replicate 2 (.step 0 plain) ++ List.replicate 2 (.step 1 plain)
    ++ List.replicate 2 (.step 2 plain) ++ List.replicate 2 (.step 3 plain)

/-- **An order can be handed two ordinary tickets**, neither of them marked. -/
theorem one_ticket_fails :
    ¬ ∀ (rough : Bool) (w₀ : World) (acts : List (kitchenServer rough).Action) (id : Id),
      (kitchenRun rough w₀ acts).world.ordinaryTickets id ≤ w₀.ordinaryTickets id + 1 := by
  intro h
  have htwo : (kitchenRun false oneOrder acceptedTwice).world.ordinaryTickets 0 = 2 := by decide
  have hle := h false oneOrder acceptedTwice 0
  rw [htwo] at hle
  exact absurd hle (by decide)

/-- Two screens accept one after the other: one ticket. -/
theorem one_ticket_in_turn : (kitchenRun false oneOrder
    ([.arrive accept] ++ List.replicate 4 (.step 0 plain) ++ [.arrive accept]
      ++ List.replicate 2 (.step 2 plain) ++ List.replicate 3 (.step 1 plain))).world.ordinaryTickets 0
      ≤ oneOrder.ordinaryTickets 0 + oneOrder.unaccepted 0 :=
  one_ticket false oneOrder _ 0 (by decide)

end Masadan
