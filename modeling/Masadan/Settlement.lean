import Masadan.Amounts

/-!
# A settlement bills exactly what it marks paid

While a till settles a visit, orders keep arriving and other tills may settle
it too. The settlement reads the bill, and from there on works with what it
read: the total it records and the ids it marks paid are of one reading, and
its write happens only if nobody closed the visit before.

So the money and the orders agree whatever arrives in between, and
`settled_exactly` says so of every run: one settlement at most returns ok; it
recorded the total of the orders it marked; an order it did not see stays
unpaid; and a settlement that is refused has done nothing.
-/

namespace Masadan

/-! ## The requests -/

/-- Settlements of one visit, and orders. -/
inductive SettleRequest where
  | settle (venueId : Id) (input : SettleInput)
  | place (req : OrderRequest)

inductive SettleAnswer where
  | settled (result : Except SettleError ℤ)
  | placed (a : OrderAnswer)

def SettleRequest.prog (visitId : Id) : SettleRequest → Api SettleAnswer
  | .settle venueId input => SettleAnswer.settled <$> settleVisit visitId venueId input
  | .place req => SettleAnswer.placed <$> postOrder req

/-- The server serving these requests, for one visit. -/
abbrev settleServer (visitId : Id) : Sys api :=
  server (SettleRequest.prog visitId) (fun _ => true) (fun _ => []) false

/-- A run of these requests, from a world. -/
abbrev settleRun (visitId : Id) (w₀ : World) (acts : List (settleServer visitId).Action) :
    (settleServer visitId).Pool :=
  Sys.Pool.run (Sys.Pool.init w₀ : (settleServer visitId).Pool) acts

/-! ## What a settlement does -/

/-- The ids of a visit's orders that are neither refused nor withdrawn. -/
def World.billedIds (w : World) (visitId : Id) : List Id :=
  (w.billedOrders visitId).map Prod.fst

/-- **What a settlement that returned ok did**, with the reading of the bill and
the write it made. -/
structure Receipt (visitId : Id) (input : SettleInput) (total : ℤ) (read paid : Event api World) :
    Prop where
  /-- The total is what the live lines of the billed orders came to. -/
  total_eq : total
    = ((read.before.billedOrders visitId).map (fun o => read.before.liveTotal o.1)).sum
  /-- The write closed the visit. -/
  closes : ¬ paid.before.VisitClosed visitId
  /-- It recorded the total. -/
  recorded : ∃ v, paid.after.tableVisits.get? visitId = some v ∧ v.status = .closed
    ∧ v.closedReason = some .settled ∧ v.totalKurus = some total
  /-- It marked exactly those orders paid. -/
  marked : ∀ id o, paid.before.orders.get? id = some o →
    paid.after.orders.get? id
      = some (if id ∈ read.before.billedIds visitId then markPaid input.paymentMethod o else o)

/-- The call left visits, orders and sessions as they were, and published
nothing. -/
structure Untouched (e : Event api World) : Prop where
  tableVisits : e.after.tableVisits = e.before.tableVisits
  orders : e.after.orders = e.before.orders
  tableSessions : e.after.tableSessions = e.before.tableSessions
  published : e.after.published = e.before.published

theorem Untouched.of_read (op : Call) (w : World) : Untouched ⟨op, w, w⟩ := ⟨rfl, rfl, rfl, rfl⟩

/-! ## The protocol -/

/-- **What may happen to a visit and its orders meanwhile.** A visit that is there
stays, and stays as it is once closed; orders change only in the step that
closes the visit; and orders arrive unpaid. -/
structure AtTheTill (visitId : Id) (w w' : World) : Prop where
  visit : ∀ v, w.tableVisits.get? visitId = some v →
    ∃ v', w'.tableVisits.get? visitId = some v' ∧ (v.status = .closed → v' = v)
  orders : ∀ id o, w.orders.get? id = some o →
    ∃ o', w'.orders.get? id = some o' ∧ (w.VisitClosed visitId ∨ ¬ w'.VisitClosed visitId → o' = o)
  arrivals : ∀ id o', w.orders.get? id = none → w'.orders.get? id = some o' →
    o'.paymentStatus = .unpaid

section

variable {visitId : Id}

theorem AtTheTill.of_eq {w w' : World} (hv : w'.tableVisits = w.tableVisits)
    (ho : w'.orders = w.orders) : AtTheTill visitId w w' where
  visit v h := ⟨v, hv ▸ h, fun _ => rfl⟩
  orders id o h := ⟨o, ho ▸ h, fun _ => rfl⟩
  arrivals id o' h h' := by
    rw [ho, h] at h'
    cases h'

theorem AtTheTill.closed {w w' : World} (h : AtTheTill visitId w w')
    (hc : w.VisitClosed visitId) : w'.VisitClosed visitId := by
  obtain ⟨v, hv, hclosed⟩ := hc
  obtain ⟨v', hv', hsame⟩ := h.visit v hv
  exact ⟨v', hv', by rw [hsame hclosed]; exact hclosed⟩

/-- What the till and the customers promise each other. -/
abbrev settleProtocol (visitId : Id) : Protocol (settleServer visitId) where
  Inv _ := True
  Evolves := AtTheTill visitId
  refl _ := AtTheTill.of_eq rfl rfl

theorem settle_allows : AllowsHarmless (settleProtocol visitId) :=
  fun _ _ _ _ _ _ h _ => ⟨trivial, AtTheTill.of_eq h.tableVisits h.orders, trivial⟩

theorem rely_visit {w w' : World} (h : (settleProtocol visitId).Rely w w') {v : TableVisit}
    (hv : w.tableVisits.get? visitId = some v) :
    ∃ v', w'.tableVisits.get? visitId = some v' ∧ (v.status = .closed → v' = v) := by
  refine h.stable (D := fun u : World => ∃ v', u.tableVisits.get? visitId = some v'
    ∧ (v.status = .closed → v' = v)) ?_ ⟨v, hv, fun _ => rfl⟩
  rintro u u' hstep ⟨v', hv', hsame⟩
  obtain ⟨v'', hv'', hsame'⟩ := hstep.visit v' hv'
  refine ⟨v'', hv'', fun hc => ?_⟩
  have hc' : v'.status = .closed := by
    rw [hsame hc]
    exact hc
  exact (hsame' hc').trans (hsame hc)

/-- An order is absent, or unpaid. -/
def World.UnpaidIfThere (w : World) (id : Id) : Prop :=
  ∀ o, w.orders.get? id = some o → o.paymentStatus = .unpaid

theorem AtTheTill.unpaid {w w' : World} (h : AtTheTill visitId w w') {id : Id}
    (hw : w.UnpaidIfThere id) (hc : w.VisitClosed visitId ∨ ¬ w'.VisitClosed visitId) :
    w'.UnpaidIfThere id := by
  intro o' ho'
  cases ho : w.orders.get? id with
  | none => exact h.arrivals id o' ho ho'
  | some o =>
    obtain ⟨o'', ho'', hsame⟩ := h.orders id o ho
    rw [ho'] at ho''
    cases ho''
    rw [hsame hc]
    exact hw o ho

/-- **An order that is absent or unpaid stays so until the visit is closed.** -/
theorem rely_unpaid_open {w w' : World} (h : (settleProtocol visitId).Rely w w') {id : Id}
    (hw : w.UnpaidIfThere id) (hopen : ¬ w'.VisitClosed visitId) : w'.UnpaidIfThere id := by
  have hor : w'.VisitClosed visitId ∨ w'.UnpaidIfThere id := by
    refine h.stable (D := fun u : World => u.VisitClosed visitId ∨ u.UnpaidIfThere id) ?_ (.inr hw)
    intro u u' hstep hu
    by_cases hc : u'.VisitClosed visitId
    · exact .inl hc
    · rcases hu with hu | hu
      · exact absurd (hstep.closed hu) hc
      · exact .inr (hstep.unpaid hu (.inr hc))
  exact hor.resolve_left hopen

/-- And after. -/
theorem rely_unpaid_closed {w w' : World} (h : (settleProtocol visitId).Rely w w') {id : Id}
    (hw : w.UnpaidIfThere id) (hc : w.VisitClosed visitId) : w'.UnpaidIfThere id := by
  have hboth : w'.VisitClosed visitId ∧ w'.UnpaidIfThere id := by
    refine h.stable (D := fun u : World => u.VisitClosed visitId ∧ u.UnpaidIfThere id) ?_ ⟨hc, hw⟩
    exact fun u u' hstep hu => ⟨hstep.closed hu.1, hstep.unpaid hu.2 (.inl hu.1)⟩
  exact hboth.2

end

/-! ## The settlement keeps it -/

section

variable {visitId : Id} {r : SettleRequest} {v : View api World}

/-- What each answer of a settlement promises. -/
def receiptPost (visitId : Id) (input : SettleInput) (v : View api World) :
    Except DbError (Except SettleError ℤ) → Prop
  | .ok (.ok total) => ∃ read ∈ v.past, ∃ paid ∈ v.past,
    Receipt visitId input total read paid ∧ (settleProtocol visitId).Rely read.before paid.before
      ∧ ∀ e ∈ v.past, e = paid ∨ e.after.orders = e.before.orders
  | .ok (.error _) => ∀ e ∈ v.past, Untouched e
  | .error _ => True

/-- A program that has touched nothing, refused. -/
theorem untouched_push (op : Call) (w : World) (hv : ∀ e ∈ v.past, Untouched e) :
    ∀ e ∈ (v.push ⟨op, w, w⟩).past, Untouched e := by
  intro e he
  rcases List.mem_cons.mp he with rfl | he
  · exact Untouched.of_read op w
  · exact hv e he

theorem not_visitClosed {w : World} {visit : TableVisit}
    (hvisit : w.tableVisits.get? visitId = some visit) (hopen : visit.status ≠ .closed) :
    ¬ w.VisitClosed visitId := by
  rintro ⟨u, hu, hc⟩
  rw [hvisit] at hu
  cases hu
  exact hopen hc

/-- The settlement's write is what may happen. -/
theorem atTheTill_settle {w w' : World} {data : Time → TableVisit → TableVisit}
    {orderIds sessionIds : List Id} {provider : PaymentMethod} {n : ℕ}
    (hdata : ∀ now v, (data now v).status = .closed)
    (hx : w.settleTransaction visitId data orderIds provider sessionIds = (w', n)) :
    AtTheTill visitId w w' := by
  rcases settleTransaction_cases hx with ⟨rfl, _⟩ | ⟨visit, _, hvisit, hopen, rfl⟩
  · exact AtTheTill.of_eq rfl rfl
  have hclosed := get?_closable (f := data w.now) hvisit hopen
  refine ⟨fun u hu => ⟨_, hclosed, fun hc => ?_⟩, fun id o ho => ?_, fun id o' hnone ho' => ?_⟩
  · rw [hvisit] at hu
    cases hu
    exact absurd hc hopen
  · refine ⟨if orderIds.contains id then markPaid provider o else o, ?_, fun hc => ?_⟩
    · show (w.orders.update _ _).get? id = _
      rw [Rows.get?_update, ho, Option.map_some]
    · rcases hc with hc | hc
      · exact absurd hc (not_visitClosed hvisit hopen)
      · exact absurd ⟨_, hclosed, hdata _ _⟩ hc
  · have hget : (w.orders.update _ _).get? id = some o' := ho'
    rw [Rows.get?_update, hnone] at hget
    cases hget

/-- **The write, and the reading it came from.** -/
theorem receipt_of_write {w w' w₁ : World} {input : SettleInput} {bill : Bill}
    {sessionIds : List Id} {n : ℕ} (op op' : Call) (hbill : w₁.buildBill visitId = some bill)
    (hn : n ≠ 0) (hx : w.settleTransaction visitId (input.close bill.totalKurus) bill.orderIds
      input.paymentMethod sessionIds = (w', n)) :
    Receipt visitId input bill.totalKurus ⟨op, w₁, w₁⟩ ⟨op', w, w'⟩ := by
  rcases settleTransaction_cases hx with ⟨_, h0⟩ | ⟨visit, _, hvisit, hopen, rfl⟩
  · exact absurd h0 hn
  refine ⟨buildBill_total hbill, not_visitClosed hvisit hopen,
    ⟨_, get?_closable hvisit hopen, rfl, rfl, rfl⟩, fun id o ho => ?_⟩
  show (w.orders.update _ _).get? id = _
  rw [Rows.get?_update, ho, Option.map_some]
  have hmem : bill.orderIds.contains id = true ↔ id ∈ w₁.billedIds visitId := by
    rw [List.contains_iff_mem]
    exact (buildBill_orderIds hbill).mem_iff
  by_cases hid : id ∈ w₁.billedIds visitId
  · rw [if_pos (hmem.mpr hid), if_pos hid]
  · rw [if_neg (fun h => hid (hmem.mp h)), if_neg hid]

/-- A settlement that lost the race has written nothing. -/
theorem untouched_settle {w : World} {data : Time → TableVisit → TableVisit}
    {orderIds sessionIds : List Id} {provider : PaymentMethod}
    (hn : (w.settleTransaction visitId data orderIds provider sessionIds).2 = 0) :
    (w.settleTransaction visitId data orderIds provider sessionIds).1 = w := by
  rcases settleTransaction_cases (Prod.mk.eta (p := w.settleTransaction visitId data orderIds
    provider sessionIds)).symm with h | ⟨_, hne, _⟩
  · exact h.1
  · exact absurd hn hne

theorem takePayment_exact (venueId tableId : Id) (input : SettleInput) {visit : TableVisit}
    (hv : ∀ e ∈ v.past, Untouched e) (hvisit : v.since.tableVisits.get? visitId = some visit) :
    (settleProtocol visitId).Ok r (receiptPost visitId input) v
      (takePayment visitId venueId tableId input) := by
  unfold takePayment
  refine ok_query settle_allows _ (fun w₁ _ hw₁ => ?_)
  obtain ⟨visit₁, hvisit₁, _⟩ := rely_visit hw₁ hvisit
  obtain ⟨bill, hbill⟩ := buildBill_isSome hvisit₁
  rw [hbill]
  refine ok_query settle_allows _ (fun w₂ _ hw₂ => ?_)
  have huntouched := untouched_push (.query (fun w => w.unrevokedSessions visitId)) w₂
    (untouched_push (.query (fun w => w.buildBill visitId)) w₁ hv)
  refine ok_write (fun w c w' x _ hw _ hx => ?_)
  obtain ⟨rfl, rfl⟩ := Prod.mk.inj hx
  refine ⟨⟨trivial, atTheTill_settle (fun _ _ => rfl)
    rfl, trivial⟩, ?_⟩
  show (settleProtocol visitId).Ok _ _ _ (if _ then _ else _)
  split
  · next hn =>
    intro e he
    rcases List.mem_cons.mp he with rfl | he
    · rw [untouched_settle hn]
      exact Untouched.of_read _ w
    · exact huntouched e he
  · next hn =>
    refine ok_write (fun w₃ c₃ w₃' x₃ _ _ _ hx₃ => ?_)
    obtain ⟨rfl, rfl⟩ := Prod.mk.inj hx₃
    refine ⟨⟨trivial, AtTheTill.of_eq rfl rfl, trivial⟩, ?_⟩
    refine ⟨_, List.mem_cons_of_mem _ (List.mem_cons_of_mem _ (List.mem_cons_of_mem _
      List.mem_cons_self)), _, List.mem_cons_of_mem _ List.mem_cons_self,
      receipt_of_write _ _ hbill hn rfl,
      hw₂.trans' hw, fun e he => ?_⟩
    rcases List.mem_cons.mp he with rfl | he
    · exact .inr rfl
    · rcases List.mem_cons.mp he with rfl | he
      · exact .inl rfl
      · exact .inr (huntouched e he).orders

theorem settleVisit_exact (venueId : Id) (input : SettleInput) (w₀ : World) :
    (settleProtocol visitId).Ok r (receiptPost visitId input) ⟨w₀, []⟩
      (settleVisit visitId venueId input) := by
  unfold settleVisit
  refine ok_query settle_allows _ (fun w₁ _ _ => ?_)
  have huntouched : ∀ e ∈ (View.push (⟨w₀, []⟩ : View api World)
      ⟨.query (fun w => w.visitOf visitId venueId), w₁, w₁⟩).past, Untouched e :=
    untouched_push _ _ (fun e he => absurd he List.not_mem_nil)
  split
  · exact huntouched
  · next visit hfound =>
    obtain ⟨hvisit, _⟩ := Option.filter_eq_some_iff.mp hfound
    split
    · exact huntouched
    · unfold ordersInFlight
      split
      · exact takePayment_exact venueId visit.tableId input huntouched hvisit
      · refine ok_query settle_allows _ (fun w₂ _ hw₂ => ?_)
        split
        · exact untouched_push _ _ huntouched
        · obtain ⟨visit₂, hvisit₂, _⟩ := rely_visit hw₂ hvisit
          exact takePayment_exact venueId visit.tableId input (untouched_push _ _ huntouched) hvisit₂

end

/-! ## The law -/

/-- What each answer promises. -/
def settleAnswerPost (visitId : Id) :
    SettleRequest → View api World → Except DbError SettleAnswer → Prop
  | .settle _ input, v, .ok (.settled a) => receiptPost visitId input v (.ok a)
  | _, _, _ => True

theorem settleSound (visitId : Id) :
    (settleProtocol visitId).Sound (settleAnswerPost visitId) where
  env e w _ := by
    cases e with
    | tick ms => exact ⟨trivial, AtTheTill.of_eq rfl rfl⟩
    | crash => exact ⟨trivial, AtTheTill.of_eq rfl rfl⟩
  entry r w _ := by
    cases r with
    | settle venueId input =>
      refine Protocol.ok_map (Protocol.ok_mono (settleVisit_exact venueId input w)
        (fun v x hx => ?_))
      cases x with
      | ok a => exact hx
      | error e => exact trivial
    | place req =>
      refine Protocol.ok_map (Protocol.ok_mono (Protocol.ok_of_calls (postOrder_calls req)
        (fun v w c op hop _ _ => ?_)) (fun v x _ => ?_))
      · rcases placeWork_cases hop with ⟨data, items, rfl, _⟩ | hop
        · refine ⟨trivial, ?_, trivial⟩
          rcases orderCreate_world c w data items with h | h
          · show AtTheTill visitId w (w.orderCreate c data items).1
            rw [h]
            exact AtTheTill.of_eq rfl rfl
          · show AtTheTill visitId w (w.orderCreate c data items).1
            rw [h]
            refine ⟨fun u hu => ⟨u, hu, fun _ => rfl⟩, fun id o ho =>
              ⟨o, Rows.get?_create_of_some ho, fun _ => rfl⟩, fun id o' hnone ho' => ?_⟩
            have hget : (w.orders.create _).get? id = some o' := ho'
            rw [Rows.get?_create, hnone] at hget
            split at hget
            · cases hget
              rfl
            · cases hget
        · exact settle_allows.exec hop c trivial
      · cases x with
        | ok a => exact trivial
        | error e => exact trivial

/-- **The settlements of one visit, over one run.** -/
structure SettledExactly (visitId : Id) (w₀ : World)
    (acts : List (settleServer visitId).Action) : Prop where
  /-- At most one returns ok. -/
  once : ∀ (i j : ℕ) (t t' : (settleServer visitId).Thread) venueId venueId' input input'
    total total', (settleRun visitId w₀ acts).threads[i]? = some t →
    (settleRun visitId w₀ acts).threads[j]? = some t' →
    t.req = .settle venueId input → t'.req = .settle venueId' input' →
    t.outcome = some (.ok (.settled (.ok total))) →
    t'.outcome = some (.ok (.settled (.ok total'))) → i = j
  /-- One that did marked paid exactly the orders whose live lines came to the
  total it recorded and returned; that total is still recorded, and what it did
  not see is unpaid. -/
  exact : ∀ t ∈ (settleRun visitId w₀ acts).threads, ∀ venueId input total,
    t.req = .settle venueId input → t.outcome = some (.ok (.settled (.ok total))) →
    ∃ read ∈ t.view.past, ∃ paid ∈ t.view.past, Receipt visitId input total read paid
      ∧ (∀ e ∈ t.view.past, e = paid ∨ e.after.orders = e.before.orders)
      ∧ (∃ v, (settleRun visitId w₀ acts).world.tableVisits.get? visitId = some v
        ∧ v.totalKurus = some total)
      ∧ ∀ id o, read.before.orders.get? id = none →
        (settleRun visitId w₀ acts).world.orders.get? id = some o → o.paymentStatus = .unpaid
  /-- One that was refused changed nothing and published nothing. -/
  refused : ∀ t ∈ (settleRun visitId w₀ acts).threads, ∀ venueId input error,
    t.req = .settle venueId input → t.outcome = some (.ok (.settled (.error error))) →
    ∀ e ∈ t.view.past, Untouched e

/-- **A settlement bills exactly what it marks paid**, in every run. -/
theorem settled_exactly (visitId : Id) (w₀ : World) (acts : List (settleServer visitId).Action) :
    SettledExactly visitId w₀ acts := by
  have hok : (settleProtocol visitId).PoolOk (settleAnswerPost visitId) w₀
      (settleRun visitId w₀ acts) :=
    (settleSound visitId).run trivial
      ((settleProtocol visitId).meets_cond (fun _ _ _ _ _ => rfl) _ acts)
  have hpost : ∀ t ∈ (settleRun visitId w₀ acts).threads, ∀ venueId input a,
      t.req = .settle venueId input → t.outcome = some (.ok (.settled a)) →
      receiptPost visitId input t.view (.ok a) := by
    intro t ht venueId input a hreq hout
    have := hok.post ht hout
    rw [hreq] at this
    exact this
  refine ⟨fun i j t t' venueId venueId' input input' total total' hi hj hr hr' hout hout' => ?_,
    fun t ht venueId input total hr hout => ?_, fun t ht venueId input error hr hout =>
    hpost t ht venueId input _ hr hout⟩
  · obtain ⟨_, _, paid, hpaid, hreceipt, _⟩ :=
      hpost t (List.mem_of_getElem? hi) venueId input _ hr hout
    obtain ⟨_, _, paid', hpaid', hreceipt', _⟩ :=
      hpost t' (List.mem_of_getElem? hj) venueId' input' _ hr' hout'
    obtain ⟨v, hv, hc, _⟩ := hreceipt.recorded
    obtain ⟨v', hv', hc', _⟩ := hreceipt'.recorded
    exact hok.at_most_one (D := fun u : World => u.VisitClosed visitId)
      (fun _ _ hstep hu => AtTheTill.closed hstep hu) hi hj hpaid hpaid' hreceipt.closes
      ⟨v, hv, hc⟩ hreceipt'.closes ⟨v', hv', hc'⟩
  · obtain ⟨read, hread, paid, hpaid, hreceipt, hrely, honly⟩ :=
      hpost t ht venueId input _ hr hout
    obtain ⟨v, hv, hc, _, htotal⟩ := hreceipt.recorded
    have hled := (hok.made t ht paid hpaid).led
    refine ⟨read, hread, paid, hpaid, hreceipt, honly, ?_, fun id o hnone ho => ?_⟩
    · obtain ⟨v', hv', hsame⟩ := rely_visit hled hv
      exact ⟨v', hv', by rw [hsame hc]; exact htotal⟩
    · -- absent at the reading, so unpaid at the write, which does not name it
      have habsent : read.before.UnpaidIfThere id := by
        intro o' ho'
        rw [hnone] at ho'
        cases ho'
      have hbefore := rely_unpaid_open hrely habsent hreceipt.closes
      have hafter : paid.after.UnpaidIfThere id := by
        intro o' ho'
        cases hmid : paid.before.orders.get? id with
        | none =>
          exact (hok.made t ht paid hpaid).evolves.arrivals id o' hmid ho'
        | some o₁ =>
          have hmarked := hreceipt.marked id o₁ hmid
          have hnot : id ∉ read.before.billedIds visitId := by
            intro hin
            obtain ⟨p, hp, rfl⟩ := List.mem_map.mp hin
            rw [(Rows.mem_filter.mp hp).1] at hnone
            cases hnone
          rw [if_neg hnot, ho'] at hmarked
          cases hmarked
          exact hbefore o' hmid
      exact rely_unpaid_closed hled hafter ⟨v, hv, hc⟩ o ho

end Masadan
