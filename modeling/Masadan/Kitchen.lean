import Masadan.Debts
import Masadan.OrderTotals

/-!
# The kitchen

An accepted order is due in the kitchen on paper. The desk's `PATCH` commits the
acceptance and starts a job that writes the ticket to the outbox; a correction
of an order the kitchen has paper for starts another. So a ticket comes some
time after it is due, and until then it is owed: by the request that has yet to
start the job, or by the job that has yet to write the ticket.

This module says what each handler does to a ticket that is due, paid or owed,
and leaves open what exactly a paid ticket is. `Masadan.LastPaper` asks that the
last paper be right, `Masadan.LostTickets` only that there be one.
-/

namespace Masadan

/-! ## The requests -/

/-- Orders are moved and corrected at the desk; jobs write tickets; the sweep
reconciles the outbox. -/
inductive KitchenRequest where
  | patch (staff : Option StaffClaims) (id : Id) (body : PatchBody)
  | items (staff : Option StaffClaims) (id : Id) (lines : Option (List (Id × ℤ)))
  | enqueue (job : Job)
  | sweep

inductive KitchenAnswer where
  | patched (a : PatchAnswer)
  | corrected (a : ItemsAnswer)
  | enqueued
  | swept (result : SweepResult)

def KitchenRequest.prog : KitchenRequest → Api KitchenAnswer
  | .patch staff id body => KitchenAnswer.patched <$> patchOrder staff id body
  | .items staff id lines => KitchenAnswer.corrected <$> patchItems staff id lines
  | .enqueue j => (fun _ => KitchenAnswer.enqueued) <$> enqueuePosDelivery j.orderId j.amendment
  | .sweep => KitchenAnswer.swept <$> sweepPosDeliveries

/-- Jobs are started by requests only. -/
def KitchenRequest.external : KitchenRequest → Bool
  | .enqueue _ => false
  | _ => true

/-- The server serving these requests. -/
abbrev kitchenServer (rough : Bool) : Sys api :=
  server KitchenRequest.prog KitchenRequest.external (fun j => [.enqueue j]) rough

/-- A run of these requests, from a world. -/
abbrev kitchenRun (rough : Bool) (w₀ : World) (acts : List (kitchenServer rough).Action) :
    (kitchenServer rough).Pool :=
  Sys.Pool.run (Sys.Pool.init w₀ : (kitchenServer rough).Pool) acts

/-! ## Papers -/

/-- The payload of the order's most recently created delivery. -/
def World.lastPaper (w : World) (orderId : Id) : Option Payload :=
  (w.posDeliveries.filter (fun _ d => d.orderId == orderId)).getLast?.map (fun d => d.2.payload)

theorem lastPaper_create (w : World) (data : NewPosDelivery) (orderId : Id) :
    (w.posDeliveryCreate data).lastPaper orderId
      = if data.orderId = orderId then some data.payload else w.lastPaper orderId := by
  unfold World.lastPaper
  show (List.filter _ (w.posDeliveries.rows ++ [_])).getLast?.map _ = _
  rw [List.filter_append]
  by_cases h : data.orderId = orderId
  · rw [if_pos h, List.filter_cons, if_pos (by simp [h])]
    simp
  · rw [if_neg h, List.filter_cons, if_neg (by simp [h]), List.filter_nil, List.append_nil]
    rfl

/-- Deliveries change, but neither their orders nor their payloads. -/
theorem lastPaper_update {w w' : World} {g : Id → PosDelivery → PosDelivery}
    (h : ∀ k, w'.posDeliveries.get? k = (w.posDeliveries.get? k).map (g k))
    (hg : ∀ k d, (g k d).orderId = d.orderId ∧ (g k d).payload = d.payload) (orderId : Id) :
    w'.lastPaper orderId = w.lastPaper orderId := by
  unfold World.lastPaper Rows.filter
  rw [Rows.rows_eq_map h, List.filter_map, List.getLast?_map, Option.map_map]
  have hsel : ((fun r : Id × PosDelivery => r.2.orderId == orderId)
      ∘ fun r : Id × PosDelivery => (r.1, g r.1 r.2)) = fun r => r.2.orderId == orderId := by
    funext r
    show ((g r.1 r.2).orderId == orderId) = _
    rw [(hg r.1 r.2).1]
  rw [hsel]
  congr 1
  funext r
  exact (hg r.1 r.2).2

theorem hasDeliveries_eq (w : World) (orderId : Id) :
    (w.posDeliveries.find? (fun _ d => d.orderId == orderId)).isSome
      = (w.lastPaper orderId).isSome := by
  unfold World.lastPaper Rows.find? Rows.filter
  rw [Option.isSome_map, Bool.eq_iff_iff, List.find?_isSome, List.getLast?_isSome, ne_eq,
    List.filter_eq_nil_iff]
  simp

/-- What a ticket of the order says is as it was: its total, its live lines, and the
last paper. -/
structure SamePaper (id : Id) (w w' : World) : Prop where
  total : (w'.orders.get? id).map (fun o => o.totalKurus)
    = (w.orders.get? id).map (fun o => o.totalKurus)
  lines : w'.liveItems id = w.liveItems id
  paper : w'.lastPaper id = w.lastPaper id

theorem SamePaper.of_eq {id : Id} {w w' : World} (ho : w'.orders = w.orders)
    (hi : w'.orderItems = w.orderItems) (hp : w'.lastPaper id = w.lastPaper id) :
    SamePaper id w w' := by
  refine ⟨by rw [ho], ?_, hp⟩
  unfold World.liveItems
  rw [hi]

theorem SamePaper.refl (id : Id) (w : World) : SamePaper id w w := SamePaper.of_eq rfl rfl rfl

theorem exec_pushWork {c : Choice} {op : Call} (h : op.PushWork) (w : World) (id : Id) :
    SamePaper id w (World.exec c op w).1 := by
  cases op with
  | query q => exact SamePaper.refl id w
  | posDeliveryUpdate k data =>
    show SamePaper id w (w.posDeliveryUpdate k data).1
    unfold World.posDeliveryUpdate
    split
    · exact SamePaper.refl id w
    · refine SamePaper.of_eq rfl rfl (lastPaper_update (fun j => Rows.get?_updateAt _ _ _ j)
        (fun j d => ?_) id)
      split
      · exact h d
      · exact ⟨rfl, rfl⟩
  | posDeliveryUpdateMany cond data =>
    refine SamePaper.of_eq rfl rfl (lastPaper_update (fun j => Rows.get?_update _ _ _ j)
      (fun j d => ?_) id)
    split
    · exact h d
    · exact ⟨rfl, rfl⟩
  | _ => exact h.elim

/-! ## Tickets owed -/

/-- The order whose ticket a program is about to write, or to have written. -/
def ticketOwedBy {α : Type} : Api α → Option Id
  | .call (.background j) _ => some j.orderId
  | .call (.posDeliveryCreate data) _ => some data.orderId
  | .call (.publish _) k => ticketOwedBy (k (.ok ()))
  | _ => none

/-- **The order whose ticket a program owes.** A job owes it from its start. -/
def ticketOwed (r : KitchenRequest) (v : View api World) (p : Api KitchenAnswer) : Option Id :=
  match r, v.past, p with
  | .enqueue j, [], .call _ _ => some j.orderId
  | _, _, p => ticketOwedBy p

theorem ticketOwed_later {r : KitchenRequest} {v : View api World} {p : Api KitchenAnswer}
    (h : ∀ j, r = .enqueue j → v.past ≠ []) : ticketOwed r v p = ticketOwedBy p := by
  unfold ticketOwed
  split
  · next hpast => exact absurd hpast (h _ rfl)
  · rfl

theorem ticketOwed_waits {id : Id} (r : KitchenRequest) (v : View api World) (p : Api KitchenAnswer)
    (h : ticketOwed r v p = some id) : p.outcome = none := by
  cases p with
  | call op k => rfl
  | ret a =>
    unfold ticketOwed at h
    split at h
    · next heq => cases heq
    · cases h
  | raise e =>
    unfold ticketOwed at h
    split at h
    · next heq => cases heq
    · cases h

/-- The order is there to be read, with its table and its venue. -/
def World.Readable (w : World) (id : Id) : Prop := (w.orderToEnqueue id).isSome = true

/-- What the handlers keep: the order can be read, and lines stay their order's. -/
abbrev kitchenProtocol (rough : Bool) (id : Id)
    (guard : KitchenRequest → View api World → Choice → Call → World → Bool) :
    Protocol (kitchenServer rough) where
  Inv w := w.Readable id
  Evolves := LinesKept
  refl _ := LinesKept.of_eq rfl
  Guard := guard

/-- **A ticket is due from the acceptance on.** -/
abbrev ticketDebt (rough : Bool) (id : Id) (paid : World → Prop) : Debt (kitchenServer rough) where
  Due w := ∃ o, w.orders.get? id = some o ∧ o.status = .accepted
  Paid := paid
  Owes r v p := ticketOwed r v p = some id
  waits := ticketOwed_waits

/-- **What is asked of a paid ticket**: it stays paid while what it says stays; a job
that is let write it pays it; a correction keeps it or calls for an amendment;
and no call of a job fails before that but where it is paid. -/
structure Payable (rough : Bool) (id : Id)
    (guard : KitchenRequest → View api World → Choice → Call → World → Bool)
    (paid : World → Prop) : Prop where
  frame : ∀ w w', SamePaper id w w' → paid w → paid w'
  written : ∀ r v c w data o amendment, v.since.orderToEnqueue id = some o → data.orderId = id →
    data.payload.ticket = { ticketFor o with amendment := amendment } →
    guard r v c (.posDeliveryCreate data) w = true → paid (w.posDeliveryCreate data)
  corrected : ∀ r v c w w' venueId o input plan entry,
    v.since.orderForEdit id venueId = some o → planEdit o input = .ok plan →
    guard r v c (.orderEditTransaction id EDITABLE_STATUSES plan.edits plan.totalKurus entry) w
      = true →
    w.orderEditTransaction id EDITABLE_STATUSES plan.edits plan.totalKurus entry = (w', true) →
    paid w → paid w' ∨ plan.afterPrint = true
  read_fails : ∀ (j : Job) (b : World) c (q : World → Option OrderForTicket) w, j.orderId = id →
    guard (.enqueue j) ⟨b, []⟩ c (.query q) w = true → (rough && c.fault) = true → paid w
  write_fails : ∀ r v c data w, data.orderId = id →
    guard r v c (.posDeliveryCreate data) w = true → (rough && c.fault) = true → paid w

/-! ## Handlers, call by call -/

section

variable {rough : Bool} {id : Id}
  {guard : KitchenRequest → View api World → Choice → Call → World → Bool}
  {paid : World → Prop} {r : KitchenRequest} {v : View api World}

variable (rough id guard paid) in
/-- The handler, from here on, keeps to what is promised of a ticket. -/
abbrev Serves (r : KitchenRequest) (v : View api World) (p : Api KitchenAnswer) : Prop :=
  (kitchenProtocol rough id guard).Honest (ticketDebt rough id paid) r v p

variable (rough id paid) in
/-- What a step has to leave of a ticket. -/
abbrev HandedOn (r : KitchenRequest) (v : View api World) (op : Call) (w' : World)
    (rest : Api KitchenAnswer) : Prop :=
  (ticketDebt rough id paid).Passed r v op w' rest

theorem lines_rely {w w' : World} (h : (kitchenProtocol rough id guard).Rely w w') :
    LinesKept w w' :=
  h.evolves LinesKept.trans

/-- One call: it fails and leaves the world as it was, or is answered. -/
theorem serves_call {op : Call} {k : Except DbError (Call.Res op) → Api KitchenAnswer}
    (hfail : ∀ w c, guard r v c op w = true → (rough && c.fault) = true → op.onDatabase = true →
      (ticketOwed r v (.call op k) = some id → paid w)
      ∧ Serves rough id guard paid r (v.push ⟨op, w, w⟩) (k (.error .failed)))
    (hexec : ∀ w c w' x, w.Readable id → LinesKept v.since w → guard r v c op w = true →
      World.exec c op w = (w', x) → w'.Readable id ∧ LinesKept w w'
      ∧ (paid w ∨ ticketOwed r v (.call op k) = some id →
        HandedOn rough id paid r (v.push ⟨op, w, w'⟩) op w' (k x))
      ∧ ((∃ o, w'.orders.get? id = some o ∧ o.status = .accepted) →
        (∃ o, w.orders.get? id = some o ∧ o.status = .accepted)
        ∨ HandedOn rough id paid r (v.push ⟨op, w, w'⟩) op w' (k x))
      ∧ Serves rough id guard paid r (v.push ⟨op, w, w'⟩) (k x)) :
    Serves rough id guard paid r v (.call op k) := by
  intro w c hw hrely hg
  by_cases hf : (rough && c.fault && op.onDatabase) = true
  · have hx : (kitchenServer rough).exec c op w = (w, .error .failed) := if_pos hf
    rw [hx]
    obtain ⟨hfault, hdb⟩ := Bool.and_eq_true_iff.mp hf
    obtain ⟨howed, hrest⟩ := hfail w c hg hfault hdb
    exact ⟨⟨hw, LinesKept.of_eq rfl, trivial⟩, fun h => .inl (h.elim (fun h => h) howed),
      fun h => .inl h, hrest⟩
  · have hx : (kitchenServer rough).exec c op w = World.exec c op w := if_neg hf
    rw [hx]
    obtain ⟨hw', hlines, hpass, hdue, hrest⟩ :=
      hexec w c _ _ hw (lines_rely hrely) hg rfl
    exact ⟨⟨hw', hlines, trivial⟩, hpass, hdue, hrest⟩

/-- A handler that is no job, or a job that has begun. -/
def Late (r : KitchenRequest) (v : View api World) : Prop := ∀ j, r = .enqueue j → v.past ≠ []

theorem Late.push (r : KitchenRequest) (v : View api World) (e : Event api World) :
    Late r (v.push e) := fun _ _ => List.cons_ne_nil _ _

theorem not_owed {p : Api KitchenAnswer} (hlate : Late r v) (h : ticketOwedBy p = none) :
    ticketOwed r v p ≠ some id := by
  rw [ticketOwed_later hlate, h]
  exact Option.some_ne_none id ∘ Eq.symm

/-- A read. -/
theorem serves_query {β : Type} {q : World → β} {k : Except DbError β → Api KitchenAnswer}
    (hlate : Late r v)
    (herror : ∀ w, Serves rough id guard paid r (v.push ⟨.query q, w, w⟩) (k (.error .failed)))
    (h : ∀ w, w.Readable id → LinesKept v.since w →
      Serves rough id guard paid r (v.push ⟨.query q, w, w⟩) (k (.ok (q w)))) :
    Serves rough id guard paid r v (.call (.query q) k) := by
  have hnone : ticketOwed r v (.call (.query q) k) ≠ some id := not_owed hlate rfl
  refine serves_call (fun w c _ _ _ => ⟨fun ho => absurd ho hnone, herror w⟩)
    (fun w c w' x hw hlines _ hx => ?_)
  cases hx
  exact ⟨hw, LinesKept.of_eq rfl, fun hp => .inl (hp.resolve_right hnone), fun hd => .inl hd,
    h w hw hlines⟩

/-- The last of a handler, when it only pushes deliveries. -/
theorem serves_pushWork (hpaid : Payable rough id guard paid) {B : KitchenAnswer → Prop}
    {p : Api KitchenAnswer} (hp : p.Calls Call.PushWork B) (hlate : Late r v) :
    Serves rough id guard paid r v p := by
  induction p generalizing v with
  | ret a => exact trivial
  | raise e => exact trivial
  | call op k ih =>
    have hnone : ticketOwed r v (.call op k) ≠ some id := by
      refine not_owed hlate ?_
      cases op <;> first
        | exact hp.1.elim
        | rfl
    refine serves_call
      (fun w c _ _ _ => ⟨fun ho => absurd ho hnone, ih _ (hp.2 _) (Late.push r v _)⟩)
      (fun w c w' x hw _ _ hx => ?_)
    obtain ⟨deliveries, heq⟩ := exec_outboxWork (c := c) hp.1.outboxWork w
    have hsame := exec_pushWork (c := c) hp.1 w id
    rw [hx] at heq hsame
    dsimp only at heq hsame
    refine ⟨?_, LinesKept.of_eq (by rw [heq]),
      fun h => .inl (hpaid.frame w w' hsame (h.resolve_right hnone)), fun hd => .inl ?_,
      ih _ (hp.2 _) (Late.push r v _)⟩
    · rw [heq]
      exact hw
    · rw [heq] at hd
      exact hd

/-- News on the bus. -/
theorem serves_publish (hpaid : Payable rough id guard paid) {event : BusEvent}
    {k : Except DbError Unit → Api KitchenAnswer} (hlate : Late r v)
    (h : ∀ w w', Serves rough id guard paid r (v.push ⟨.publish event, w, w'⟩) (k (.ok ()))) :
    Serves rough id guard paid r v (.call (.publish event) k) := by
  refine serves_call (fun w c _ _ hdb => absurd hdb Bool.false_ne_true) (fun w c w' x hw _ _ hx => ?_)
  cases hx
  refine ⟨hw, LinesKept.of_eq rfl, fun hp => ?_, fun hd => .inl hd, h _ _⟩
  rcases hp with hp | ho
  · exact .inl (hpaid.frame w _ (SamePaper.of_eq rfl rfl rfl) hp)
  · refine .inr (.inl ?_)
    rw [ticketOwed_later hlate] at ho
    show ticketOwed r _ _ = some id
    rw [ticketOwed_later (Late.push r v _)]
    exact ho

/-- A job started owes what its starter did. -/
theorem serves_background {j : Job} {k : Except DbError Unit → Api KitchenAnswer}
    (hlate : Late r v)
    (h : ∀ w, Serves rough id guard paid r (v.push ⟨.background j, w, w⟩) (k (.ok ()))) :
    Serves rough id guard paid r v (.call (.background j) k) := by
  refine serves_call (fun w c _ _ hdb => absurd hdb Bool.false_ne_true) (fun w c w' x hw _ _ hx => ?_)
  cases hx
  refine ⟨hw, LinesKept.of_eq rfl, fun hp => ?_, fun hd => .inl hd, h _⟩
  rcases hp with hp | ho
  · exact .inl hp
  · rw [ticketOwed_later hlate] at ho
    exact .inr (.inr ⟨.enqueue j, List.mem_singleton.mpr rfl, ho⟩)

/-! ## The desk's `PATCH` -/

theorem readable_of_orders {w w' : World} (h : w.Readable id) (ht : w'.tables = w.tables)
    (hv : w'.venues = w.venues)
    (ho : ∀ o, w.orders.get? id = some o → ∃ o', w'.orders.get? id = some o'
      ∧ o'.tableId = o.tableId ∧ o'.venueId = o.venueId) : w'.Readable id := by
  unfold World.Readable World.orderToEnqueue World.orderForTicket at h ⊢
  cases hget : w.orders.get? id with
  | none =>
    rw [hget] at h
    cases h
  | some o =>
    obtain ⟨o', ho', htable, hvenue⟩ := ho o hget
    rw [hget] at h
    rw [ho', ht, hv]
    dsimp only at h ⊢
    rw [htable, hvenue]
    split at h
    · rfl
    · cases h

/-- Moving an order changes nothing a ticket says. -/
theorem samePaper_move (w : World) (k : Id) (status : OrderStatus) (reason : Option Text) :
    SamePaper id w { w with orders := w.orders.updateAt k (moveTo status reason) } := by
  refine ⟨?_, rfl, rfl⟩
  show ((w.orders.updateAt k (moveTo status reason)).get? id).map _ = _
  rw [Rows.get?_updateAt, Option.map_map]
  congr 1
  funext o
  show (if id = k then moveTo status reason o else o).totalKurus = o.totalKurus
  split
  · rfl
  · rfl

theorem orderUpdate_cases {w w' : World} {k : Id} {data : Order → Order}
    {x : Except DbError Order} (hx : w.orderUpdate k data = (w', x)) :
    (w' = w ∧ ∃ e, x = .error e)
      ∨ ∃ o, w.orders.get? k = some o ∧ x = .ok (data o)
        ∧ w' = { w with orders := w.orders.updateAt k data } := by
  unfold World.orderUpdate at hx
  split at hx
  · cases hx
    exact .inl ⟨rfl, _, rfl⟩
  · next o ho =>
    cases hx
    exact .inr ⟨o, ho, rfl, rfl⟩

/-- An order that is accepted now was, or was the one moved there. -/
theorem accepted_move {w : World} {k : Id} {status : OrderStatus} {reason : Option Text} {o : Order}
    (ho : (w.orders.updateAt k (moveTo status reason)).get? id = some o)
    (hs : o.status = .accepted) :
    (∃ o, w.orders.get? id = some o ∧ o.status = .accepted) ∨ (id = k ∧ status = .accepted) := by
  rw [Rows.get?_updateAt] at ho
  obtain ⟨o₀, ho₀, rfl⟩ := Option.map_eq_some_iff.mp ho
  split at hs
  · next hk => exact .inr ⟨hk, hs⟩
  · exact .inl ⟨o₀, ho₀, hs⟩

theorem patchOrder_serves (hpaid : Payable rough id guard paid) (staff : Option StaffClaims)
    (k : Id) (body : PatchBody) (hr : ∀ j, r ≠ .enqueue j) :
    Serves rough id guard paid r v (KitchenAnswer.patched <$> patchOrder staff k body) := by
  have hlate : ∀ v', Late r v' := fun v' j hj => absurd hj (hr j)
  unfold patchOrder
  cases staff with
  | none => exact trivial
  | some staff =>
    refine serves_query (hlate v) (fun w => trivial) (fun w₁ _ _ => ?_)
    dsimp only [Prog.ofExcept, Prog.ret_bind]
    split
    · exact trivial
    · next order hfound =>
      split
      · exact trivial
      · next status hstatus =>
        split
        · exact trivial
        · refine serves_call (fun w c _ _ _ => ⟨fun ho => absurd ho (not_owed (hlate _) rfl), trivial⟩)
            (fun w c w' x hw _ _ hx => ?_)
          rcases orderUpdate_cases hx with ⟨rfl, e, rfl⟩ | ⟨o, ho, rfl, rfl⟩
          · exact ⟨hw, LinesKept.of_eq rfl,
              fun hp => .inl (hp.resolve_right (not_owed (hlate _) rfl)), fun hd => .inl hd, trivial⟩
          · refine ⟨readable_of_orders hw rfl rfl (fun o ho => ?_), LinesKept.of_eq rfl,
              fun hp => .inl (hpaid.frame w _ (samePaper_move w k status _)
                (hp.resolve_right (not_owed (hlate _) rfl))), fun hd => ?_, ?_⟩
            · refine ⟨_, by rw [Rows.get?_updateAt, ho, Option.map_some], ?_⟩
              split
              · exact ⟨rfl, rfl⟩
              · exact ⟨rfl, rfl⟩
            · obtain ⟨o', ho', hs⟩ := hd
              refine (accepted_move ho' hs).imp_right (fun hk => .inr (.inl ?_))
              obtain ⟨rfl, haccepted⟩ := hk
              show ticketOwed r _ (Prog.bind (if _ then _ else _) _) = _
              rw [ticketOwed_later (hlate _), if_pos haccepted]
              rfl
            · show Serves rough id guard paid r _ (Prog.bind (if _ then _ else _) _)
              split
              · exact serves_background (hlate _) (fun _ => serves_publish hpaid (hlate _)
                  (fun _ _ => trivial))
              · exact serves_publish hpaid (hlate _) (fun _ _ => trivial)

/-! ## Corrections -/

/-- An edit leaves the live lines of the other orders. -/
theorem liveItems_edit_other {w w' w₁ : World} {k venueId : Id} {o : OrderForEdit}
    {input : OrderEditInput} {plan : EditPlan} {items : Rows OrderItem}
    (ho : w₁.orderForEdit k venueId = some o) (hplan : planEdit o input = .ok plan)
    (hkept : LinesKept w₁ w) (happ : World.applyEdits w.now plan.edits w.orderItems = some items)
    (hitems : w'.orderItems = items) (hid : k ≠ id) : w'.liveItems id = w.liveItems id := by
  unfold World.liveItems Rows.filter
  rw [hitems, Rows.rows_eq_map (applyEdits_get? happ (edits_change ho hplan) (edits_from ho hplan)),
    List.filter_map]
  -- a line of the order is left as it is, and no other becomes one
  have hsame : ∀ r ∈ w.orderItems.rows, r.2.orderId = id →
      LineEdit.leaves plan.edits w.now r.1 r.2 = r.2 := by
    intro r hr hor
    exact leaves_other ho hplan hkept (Rows.get?_eq_some_iff.mpr hr) (hor ▸ Ne.symm hid)
  rw [List.filter_congr (q := fun r => r.2.orderId == id && r.2.voidedAt.isNone) (fun r hr => ?_)]
  · refine (List.map_congr_left (fun r hr => ?_)).trans (List.map_id _)
    obtain ⟨hmem, hsel⟩ := List.mem_filter.mp hr
    rw [hsame r hmem (beq_iff_eq.mp (Bool.and_eq_true_iff.mp hsel).1)]
    rfl
  · show ((LineEdit.leaves plan.edits w.now r.1 r.2).orderId == id && _) = _
    by_cases hor : r.2.orderId = id
    · show (_ && (LineEdit.leaves plan.edits w.now r.1 r.2).voidedAt.isNone) = _
      rw [hsame r hr hor]
    · rw [LineEdit.leaves_orderId, beq_eq_false_iff_ne.mpr hor]
      rfl

/-- An edit leaves the statuses. -/
theorem status_edit {w w' : World} {k : Id} {total : ℤ}
    (h : w'.orders = w.orders.update (World.editable k EDITABLE_STATUSES)
      (fun o => { o with totalKurus := total })) {j : Id} {o' : Order}
    (ho' : w'.orders.get? j = some o') :
    ∃ o, w.orders.get? j = some o ∧ o'.status = o.status := by
  rw [h, Rows.get?_update] at ho'
  obtain ⟨o, ho, rfl⟩ := Option.map_eq_some_iff.mp ho'
  refine ⟨o, ho, ?_⟩
  split
  · rfl
  · rfl

/-- It leaves the other orders. -/
theorem get?_edit_other {w w' : World} {k : Id} {total : ℤ}
    (h : w'.orders = w.orders.update (World.editable k EDITABLE_STATUSES)
      (fun o => { o with totalKurus := total })) (hk : k ≠ id) :
    w'.orders.get? id = w.orders.get? id := by
  rw [h, Rows.get?_update]
  cases w.orders.get? id with
  | none => rfl
  | some o =>
    have hsel : ¬ World.editable k EDITABLE_STATUSES id o = true := by
      simp [World.editable, Ne.symm hk]
    rw [Option.map_some, if_neg hsel]

theorem patchItems_serves (hpaid : Payable rough id guard paid) (staff : Option StaffClaims)
    (k : Id) (lines : Option (List (Id × ℤ))) (hr : ∀ j, r ≠ .enqueue j) :
    Serves rough id guard paid r v (KitchenAnswer.corrected <$> patchItems staff k lines) := by
  have hlate : ∀ v', Late r v' := fun v' j hj => absurd hj (hr j)
  unfold patchItems
  cases staff with
  | none => exact trivial
  | some staff =>
    dsimp only
    split
    · exact trivial
    · next input _ =>
      unfold editOrder
      refine serves_query (hlate v) (fun w => trivial) (fun w₁ _ _ => ?_)
      dsimp only [Prog.ofExcept, Prog.ret_bind]
      split
      · exact trivial
      · next o ho =>
        split
        · exact trivial
        · next plan hplan =>
          refine serves_call
            (fun w c _ _ _ => ⟨fun ho => absurd ho (not_owed (hlate _) rfl), trivial⟩)
            (fun w c w' x hw hlines hg hx => ?_)
          obtain ⟨b, rfl, hedit⟩ := exec_orderEditTransaction hx
          rcases orderEditTransaction_cases hedit with ⟨rfl, rfl⟩ | ⟨items, order, rfl, happ, horder,
              hstatus, hitems, horders, hdeliveries, _, _, htables, hvenues⟩
          · exact ⟨hw, LinesKept.of_eq rfl,
              fun hp => .inl (hp.resolve_right (not_owed (hlate _) rfl)), fun hd => .inl hd, trivial⟩
          · refine ⟨readable_of_orders hw htables hvenues (fun o ho => ?_),
              linesKept_edit ho hplan happ hitems, fun hp => ?_, fun hd => ?_, ?_⟩
            · refine ⟨_, by rw [horders, Rows.get?_update, ho, Option.map_some], ?_⟩
              split
              · exact ⟨rfl, rfl⟩
              · exact ⟨rfl, rfl⟩
            · replace hp := hp.resolve_right (not_owed (hlate _) rfl)
              by_cases hk : k = id
              · subst hk
                rcases hpaid.corrected r
                  (v.push ⟨.query (fun u => u.orderForEdit k staff.venueId), w₁, w₁⟩) c w w'
                  staff.venueId o input plan _ ho hplan hg hedit hp with h | h
                · exact .inl h
                · -- the amendment is yet to be started
                  refine .inr (.inl ?_)
                  show ticketOwed r _ _ = some k
                  rw [ticketOwed_later (hlate _)]
                  show ticketOwedBy (Prog.bind (if plan.afterPrint = true then _ else _) _) = _
                  rw [if_pos h]
                  rfl
              · refine .inl (hpaid.frame w w' ⟨?_, ?_, ?_⟩ hp)
                · rw [get?_edit_other horders hk]
                · exact liveItems_edit_other ho hplan hlines happ hitems hk
                · unfold World.lastPaper
                  rw [hdeliveries]
            · obtain ⟨o', ho', hs⟩ := hd
              obtain ⟨o, ho, hsame⟩ := status_edit horders ho'
              exact .inl ⟨o, ho, hsame ▸ hs⟩
            · refine serves_publish hpaid (hlate _) (fun _ _ => ?_)
              show Serves rough id guard paid r _ (Prog.bind (if plan.afterPrint = true then _ else _) _)
              split
              · exact serves_background (hlate _) (fun _ => trivial)
              · exact trivial

/-! ## Jobs and the sweep -/

@[simp] theorem ticket_renderPayload (adapter : AdapterName) (ticket : Ticket) :
    (adapter.renderPayload ticket).ticket = ticket := by
  cases adapter <;> rfl

theorem enqueue_serves (hpaid : Payable rough id guard paid) (j : Job) (w₀ : World) :
    Serves rough id guard paid (.enqueue j) ⟨w₀, []⟩ (KitchenRequest.prog (.enqueue j)) := by
  show Serves rough id guard paid _ _ (Prog.bind (enqueuePosDelivery j.orderId j.amendment) _)
  unfold enqueuePosDelivery enqueueBody
  refine serves_call (fun w c hg hf _ => ⟨fun ho => ?_, trivial⟩) (fun w c w' x hw _ _ hx => ?_)
  · exact hpaid.read_fails j w₀ c _ w (Option.some.inj ho) hg hf
  · cases hx
    have hlate : ∀ e, Late (.enqueue j) (View.push ⟨w₀, []⟩ e) := Late.push _ _
    refine ⟨hw, LinesKept.of_eq rfl, fun hp => hp.imp_right (fun ho => .inl ?_),
      fun hd => .inl hd, ?_⟩
    · -- the order is there, so the job goes on to write
      obtain ⟨o, hfound⟩ := Option.isSome_iff_exists.mp hw
      obtain rfl : j.orderId = id := Option.some.inj ho
      show ticketOwed _ _ _ = some j.orderId
      rw [ticketOwed_later (hlate _)]
      beta_reduce
      rw [hfound]
      rfl
    · beta_reduce
      cases hfound : w.orderToEnqueue j.orderId with
      | none => exact trivial
      | some o =>
        refine serves_call (fun w₁ c₁ hg hf _ => ⟨fun ho => ?_, trivial⟩)
          (fun w₁ c₁ w₁' x₁ hw₁ _ hg hx₁ => ?_)
        · rw [ticketOwed_later (hlate _)] at ho
          exact hpaid.write_fails _ _ c₁ _ w₁ (Option.some.inj ho) hg hf
        · cases hx₁
          refine ⟨hw₁, LinesKept.of_eq rfl, fun hp => .inl ?_, fun hd => .inl hd,
            serves_pushWork (B := fun _ => True) hpaid ?_ (Late.push _ _ _)⟩
          · by_cases hj : j.orderId = id
            · subst hj
              exact hpaid.written (.enqueue j) (View.push ⟨w₀, []⟩ ⟨.query _, w, w⟩) c₁ w₁ _ o
                j.amendment hfound rfl (ticket_renderPayload _ _) hg
            · have hp₁ : paid w₁ := by
                refine hp.resolve_right (fun ho => hj ?_)
                rw [ticketOwed_later (hlate _)] at ho
                exact Option.some.inj ho
              refine hpaid.frame w₁ _ (SamePaper.of_eq rfl rfl ?_) hp₁
              rw [lastPaper_create, if_neg hj]
          · exact Prog.calls_bind (B := fun _ => True) (Prog.calls_bind
              (Prog.calls_attempt (attemptDelivery_calls _ _)) (fun _ _ => trivial))
              (fun _ _ => trivial)

theorem sweep_serves (hpaid : Payable rough id guard paid) :
    Serves rough id guard paid .sweep v (KitchenRequest.prog .sweep) :=
  serves_pushWork (B := fun _ => True) hpaid (Prog.calls_bind sweepPosDeliveries_calls
    (fun _ _ => Prog.calls_ret.mpr trivial)) (fun j hj => by cases hj)

/-- **Every request of the kitchen serves**, from its start. -/
theorem kitchen_serves (hpaid : Payable rough id guard paid) (r : KitchenRequest) (w : World) :
    Serves rough id guard paid r ⟨w, []⟩ (KitchenRequest.prog r) := by
  cases r with
  | patch staff k body => exact patchOrder_serves hpaid staff k body (fun j hj => by cases hj)
  | items staff k lines => exact patchItems_serves hpaid staff k lines (fun j hj => by cases hj)
  | enqueue j => exact enqueue_serves hpaid j w
  | sweep => exact sweep_serves hpaid

/-- **A ticket that is due is covered in the kitchen**, in runs that end jobs only when
it is paid. -/
theorem kitchen_solvent (hpaid : Payable rough id guard paid)
    {cond : (kitchenServer rough).Pool → (kitchenServer rough).Action → Bool}
    (hcond : ∀ p a, cond p a = true → (kitchenProtocol rough id guard).cond p a = true)
    (hends : ∀ p, cond p (.env .crash) = true → rough = true →
      (ticketDebt rough id paid).Covered p → paid p.world) :
    (kitchenProtocol rough id guard).Solvent (ticketDebt rough id paid) cond where
  guarded := hcond
  env e w hw := by
    cases e with
    | tick ms =>
      exact ⟨hw, LinesKept.of_eq rfl, hpaid.frame w _ (SamePaper.of_eq rfl rfl rfl), fun hd => hd⟩
    | crash => exact ⟨hw, LinesKept.of_eq rfl, fun hp => hp, fun hd => hd⟩
  entry r w _ := kitchen_serves hpaid r w
  ends p e he hk hc := by
    cases e with
    | tick ms => cases hk
    | crash => exact hends p he hk hc

end

end Masadan
