import Masadan.Amounts

/-!
# Totals add up, and no order is emptied

An order stores what it comes to, and three views of a visit's money add those
totals up where the bill adds up lines. They agree as long as every order's
total is what its live lines come to, which `POST /api/orders` establishes.

`editOrder` computes a new total from the lines it read, and commits it with an
update for each line it changes. An edit that commits found the lines it
changes as it read them. It need not have found the *other* lines so; and when
an input names a line twice, the total follows the first entry and the updates
follow all of them. `bills_agree` and `order_not_emptied` are what holds when
neither happens; `bills_agree_fails` and `order_not_emptied_fails` are what an
edit does otherwise.
-/

namespace Masadan

/-! ## The requests -/

/-- Orders are placed and edited. -/
inductive EditRequest where
  | place (req : OrderRequest)
  | edit (orderId venueId staffId : Id) (staffName : Text) (input : OrderEditInput)

inductive EditAnswer where
  | placed (a : OrderAnswer)
  | edited (a : Except EditError EditOk)

def EditRequest.prog : EditRequest → Api EditAnswer
  | .place req => EditAnswer.placed <$> postOrder req
  | .edit orderId venueId staffId staffName input =>
    EditAnswer.edited <$> editOrder orderId venueId staffId staffName input

/-- The server serving these requests. -/
abbrev editServer : Sys api :=
  server EditRequest.prog (fun _ => true) (fun _ => []) false

/-- A run of these requests, from a world. -/
abbrev editRun (w₀ : World) (acts : List editServer.Action) : editServer.Pool :=
  Sys.Pool.run (Sys.Pool.init w₀ : editServer.Pool) acts

/-! ## Handlers, up to the writes -/

section

variable {P : Protocol editServer} {r : EditRequest}

/-- Placing keeps a protocol that allows harmless calls and well-priced
insertions. -/
theorem postOrder_ok {v : View api World} (hP : AllowsHarmless P)
    (hcreate : ∀ v w c data items, Priced data items → P.Inv w →
      P.Takes r v ⟨.orderCreate data items, w, (w.orderCreate c data items).1⟩)
    (req : OrderRequest) : P.Ok r (fun _ _ => True) v (postOrder req) := by
  refine Protocol.ok_mono (Protocol.ok_of_calls (postOrder_calls req)
    (fun v w c op hop hw _ => ?_)) (fun _ _ _ => trivial)
  rcases placeWork_cases hop with ⟨data, items, rfl, hpriced⟩ | hop
  · exact hcreate v w c data items hpriced hw
  · exact hP.exec hop c hw

/-- Editing keeps a protocol that allows harmless calls and the edit's
transaction, planned from what the edit read. -/
theorem editOrder_ok {v : View api World} (hP : AllowsHarmless P) {orderId venueId staffId : Id}
    {staffName : Text} {input : OrderEditInput}
    (hcommit : ∀ v w₁ w w' c o plan b entry, v.since = w₁ → P.Rely w₁ w → P.Inv w →
      w₁.orderForEdit orderId venueId = some o → planEdit o input = .ok plan →
      P.Guard r v c
        (.orderEditTransaction orderId EDITABLE_STATUSES plan.edits plan.totalKurus entry) w = true →
      w.orderEditTransaction orderId EDITABLE_STATUSES plan.edits plan.totalKurus entry = (w', b) →
      P.Takes r v
        ⟨.orderEditTransaction orderId EDITABLE_STATUSES plan.edits plan.totalKurus entry, w, w'⟩) :
    P.Ok r (fun _ _ => True) v (editOrder orderId venueId staffId staffName input) := by
  unfold editOrder
  refine ok_query hP _ (fun w₁ _ _ => ?_)
  split
  · exact trivial
  · next o ho =>
    split
    · exact trivial
    · next plan hplan =>
      refine ok_write (fun w c w' x hw hrely hg hx => ?_)
      obtain ⟨rfl, rfl⟩ := Prod.mk.inj hx
      refine ⟨hcommit _ w₁ w _ c o plan _ _ rfl hrely hw ho hplan hg rfl, ?_⟩
      show P.Ok _ _ _ (if _ then _ else _)
      split
      · exact trivial
      · exact ok_harmless_bind hP (Prog.calls_perform (S := api) trivial)
          (fun _ _ _ _ _ => trivial) (fun _ _ _ _ => trivial)

end

/-! ## Totals -/

/-- **The orders add up**: each order's total is what its live lines come to; and
every line is some order's. -/
structure OrdersAddUp (w : World) : Prop where
  totals : ∀ id o, w.orders.get? id = some o → o.totalKurus = w.liveTotal id
  refs : ∀ id i, w.orderItems.get? id = some i → i.orderId < w.orders.next

/-- **The views of a visit's money agree**: stored totals, the desk's list and the
day's summary all say what the bill says. -/
structure BillsAgree (w : World) : Prop where
  totals : ∀ id o, w.orders.get? id = some o → o.totalKurus = w.liveTotal id
  /-- `GET /api/desk/bills`. -/
  desk : ∀ venueId, ∀ row ∈ w.deskBills venueId, ∀ bill,
    w.buildBill row.visitId = some bill → row.totalKurus = bill.totalKurus
  /-- A visit's share of the running total. -/
  share : ∀ visitId bill, w.buildBill visitId = some bill →
    w.storedTotal visitId = bill.totalKurus
  /-- `openTables().runningKurus`. -/
  running : ∀ venueId, (w.openTables venueId).runningKurus
    = ((w.openVisitsOfVenue venueId).map
        (fun v => ((w.buildBill v.1).map (fun b => b.totalKurus)).getD 0)).sum

theorem OrdersAddUp.storedTotal {w : World} (h : OrdersAddUp w) {visitId : Id} {bill : Bill}
    (hbill : w.buildBill visitId = some bill) : w.storedTotal visitId = bill.totalKurus := by
  rw [buildBill_total hbill]
  unfold World.storedTotal
  refine congrArg List.sum (List.map_congr_left (fun o ho => ?_))
  exact h.totals o.1 o.2 (Rows.mem_filter.mp ho).1

theorem OrdersAddUp.billsAgree {w : World} (h : OrdersAddUp w) : BillsAgree w where
  totals := h.totals
  desk venueId row hrow bill hbill := by
    obtain ⟨v, _, rfl⟩ := List.mem_map.mp (List.mem_filter.mp hrow).1
    exact h.storedTotal hbill
  share visitId bill hbill := h.storedTotal hbill
  running venueId := by
    refine congrArg List.sum (List.map_congr_left (fun v hv => ?_))
    obtain ⟨bill, hbill⟩ := buildBill_isSome (Rows.mem_filter.mp hv).1
    rw [hbill]
    exact h.storedTotal hbill

theorem OrdersAddUp.congr {w w' : World} (h : OrdersAddUp w) (ho : w'.orders = w.orders)
    (hi : w'.orderItems = w.orderItems) : OrdersAddUp w' where
  totals id o hid := by
    rw [ho] at hid
    rw [liveTotal_congr hi]
    exact h.totals id o hid
  refs id i hid := by
    rw [hi] at hid
    rw [ho]
    exact h.refs id i hid

/-- A well-priced insertion. -/
theorem OrdersAddUp.insertOrder {w : World} (h : OrdersAddUp w) {data : NewOrder}
    {items : List NewOrderItem} (hp : Priced data items) :
    OrdersAddUp (w.insertOrder data items) where
  totals id o hid := by
    rw [liveTotal_insertOrder]
    have hget : (w.orders.create _).get? id = some o := hid
    rw [Rows.get?_create] at hget
    by_cases hnext : id = w.orders.next
    · -- no line was the new order's before
      have hnone : w.liveTotal id = 0 := by
        rw [liveTotal_eq]
        refine Rows.total_zero (fun k i hk => ?_)
        have hlt := h.refs k i hk
        simp [owed, hnext, Nat.ne_of_lt hlt]
      rw [if_pos hnext] at hget ⊢
      cases hget
      rw [hnone, zero_add]
      exact hp.total
    · rw [if_neg hnext] at hget ⊢
      rw [add_zero]
      exact h.totals id o hget
  refs id i hid := by
    rcases Rows.get?_createAll hid with hold | hnew
    · exact Nat.lt_succ_of_lt (h.refs id i hold)
    · obtain ⟨new, _, rfl⟩ := List.mem_map.mp hnew
      exact Nat.lt_succ_self _

/-- A committed edit that planned from the live lines as they are, and whose
first entries decide. -/
theorem OrdersAddUp.edit {w w' w₁ : World} (h : OrdersAddUp w) {orderId venueId : Id}
    {o : OrderForEdit} {input : OrderEditInput} {plan : EditPlan} {items : Rows OrderItem}
    (ho : w₁.orderForEdit orderId venueId = some o) (hplan : planEdit o input = .ok plan)
    (hlive : w₁.liveItems orderId = w.liveItems orderId)
    (hfirst : ∀ i ∈ w.liveItems orderId, input.FirstDecides i)
    (happ : World.applyEdits w.now plan.edits w.orderItems = some items)
    {order : Order} (horder : w.orders.get? orderId = some order)
    (hstatus : order.status ∈ EDITABLE_STATUSES) (hitems : w'.orderItems = items)
    (horders : w'.orders = w.orders.update (World.editable orderId EDITABLE_STATUSES)
      (fun o => { o with totalKurus := plan.totalKurus })) : OrdersAddUp w' where
  totals id o' hid := by
    rw [liveTotal_eq, hitems]
    rw [horders, Rows.get?_update] at hid
    obtain ⟨row, hrow, rfl⟩ := Option.map_eq_some_iff.mp hid
    by_cases hk : id = orderId
    · subst hk
      rw [horder] at hrow
      cases hrow
      have hsel : World.editable id EDITABLE_STATUSES id order = true := by
        simp [World.editable, hstatus]
      rw [if_pos hsel, total_applyEdits ho hplan hlive hfirst happ]
    · have hsel : ¬ World.editable orderId EDITABLE_STATUSES id row = true := by
        simp [World.editable, hk]
      rw [if_neg hsel, total_applyEdits_other ho hplan hlive happ hk, ← liveTotal_eq]
      exact h.totals id row hrow
  refs k i hk := by
    rw [hitems, applyEdits_get? happ (edits_change ho hplan) (edits_from ho hplan)] at hk
    obtain ⟨j, hj, rfl⟩ := Option.map_eq_some_iff.mp hk
    rw [horders]
    show (LineEdit.leaves plan.edits w.now k j).orderId < w.orders.next
    rw [LineEdit.leaves_orderId]
    exact h.refs k j hj

/-- The lines an edit changes are as it read them: without this its transaction is
refused. -/
def stillAsRead (w : World) (edits : List LineEdit) : Prop :=
  ∀ e ∈ edits, ∃ i ∈ w.orderItems.get? e.id, e.hits e.id i = true

instance (w : World) (edits : List LineEdit) : Decidable (stillAsRead w edits) :=
  inferInstanceAs (Decidable (∀ e ∈ edits, ∃ i ∈ w.orderItems.get? e.id, _))

/-- A committed edit found its lines as it read them. -/
theorem stillAsRead_of_applyEdits {w w₁ : World} {orderId venueId : Id} {o : OrderForEdit}
    {input : OrderEditInput} {plan : EditPlan} {items : Rows OrderItem}
    (ho : w₁.orderForEdit orderId venueId = some o) (hplan : planEdit o input = .ok plan)
    (happ : World.applyEdits w.now plan.edits w.orderItems = some items) :
    stillAsRead w plan.edits := by
  intro e he
  obtain ⟨_, hedit, _⟩ := applyEdits_spec happ (edits_change ho hplan) (edits_from ho hplan)
  obtain ⟨i, hi, hhits, _⟩ := hedit e he
  exact ⟨i, hi, hhits⟩

/-- **What an edit has to find.** When its transaction comes and the lines it
changes are as it read them, so are the order's other live lines; and the input
names no line first at the quantity it has and again at another. -/
def readInFull (r : EditRequest) (v : View api World) (op : Call) (w : World) : Bool :=
  match r, op with
  | .edit orderId _ _ _ input, .orderEditTransaction _ _ edits _ _ =>
    decide (stillAsRead w edits → v.since.liveItems orderId = w.liveItems orderId
      ∧ ∀ i ∈ w.liveItems orderId, input.FirstDecides i)
  | _, _ => true

/-- The orders add up, given that edits find what they have to. -/
abbrev totalsProtocol : Protocol editServer where
  Inv := OrdersAddUp
  Evolves _ _ := True
  refl _ := trivial
  Guard r v _ op w := readInFull r v op w

theorem totals_allows : AllowsHarmless totalsProtocol :=
  fun _ _ _ _ _ _ h hw => ⟨hw.congr h.orders h.orderItems, trivial, trivial⟩

theorem totalsSound : totalsProtocol.Sound (fun _ _ _ => True) where
  env e w hw := by
    cases e with
    | tick ms => exact ⟨hw.congr rfl rfl, trivial⟩
    | crash => exact ⟨hw, trivial⟩
  entry r w _ := by
    cases r with
    | place req =>
      refine Protocol.ok_map (postOrder_ok totals_allows (fun v w c data items hp hw => ?_) req)
      rcases orderCreate_world c w data items with h | h
      · rw [h]
        exact ⟨hw, trivial, trivial⟩
      · rw [h]
        exact ⟨hw.insertOrder hp, trivial, trivial⟩
    | edit orderId venueId staffId staffName input =>
      refine Protocol.ok_map (editOrder_ok totals_allows
        (fun v w₁ w w' c o plan b entry hv _ hw ho hplan hg hx => ?_))
      rcases orderEditTransaction_cases hx with ⟨rfl, _⟩ | ⟨items, order, _, happ, horder,
          hstatus, hitems, horders, _⟩
      · exact ⟨hw, trivial, trivial⟩
      · obtain ⟨hlive, hfirst⟩ :=
          of_decide_eq_true hg (stillAsRead_of_applyEdits ho hplan happ)
        rw [hv] at hlive
        exact ⟨hw.edit ho hplan hlive hfirst happ horder hstatus hitems horders, trivial, trivial⟩

/-- **Totals add up and the views of a visit's money agree**, in every run whose
edits find what they have to. -/
theorem bills_agree (w₀ : World) (acts : List editServer.Action) (h₀ : OrdersAddUp w₀)
    (h : Sys.Pool.Meets totalsProtocol.cond (Sys.Pool.init w₀) acts = true) :
    BillsAgree (editRun w₀ acts).world :=
  (totalsSound.run h₀ h).inv.billsAgree

/-- A database without orders. -/
theorem ordersAddUp_empty {w : World} (ho : w.orders = Rows.empty)
    (hi : w.orderItems = Rows.empty) : OrdersAddUp w where
  totals id o hid := by
    rw [ho] at hid
    cases hid
  refs id i hid := by
    rw [hi] at hid
    cases hid

/-! ### A line named twice -/

/-- One table with an open visit, a phone, and a dish of one lira. -/
def kitchenOpen : World :=
  { World.blank 0 with
    venues := Rows.ofList [⟨[], [], [], none⟩]
    tables := Rows.ofList [⟨0, [], [], 1, true⟩]
    menuItems := Rows.ofList [⟨0, [], 100, true, []⟩]
    tableVisits := Rows.ofList [⟨0, 0, .opened, 0, none, none, none, none, none, none, none⟩]
    tableSessions := Rows.ofList [⟨0, 0, 7, some 0, 0, 0, HARD_CAP_MS, none⟩] }

/-- A request for two of the dish. -/
def twoDishes : OrderRequest :=
  ⟨some 7, ⟨[], []⟩, some ⟨[⟨0, 2, none, none⟩], none⟩, .plain, true⟩

/-- The request's nine calls, answered. -/
def placed (i : ℕ) : List editServer.Action := List.replicate 9 (.step i plain)

/-- The line `0` at two, as it is, and again at one. -/
def restated : OrderEditInput :=
  ⟨[⟨0, 2⟩, ⟨0, 1⟩], by decide, by decide, by decide⟩

/-- The line `0` at one. -/
def lowered : OrderEditInput := ⟨[⟨0, 1⟩], by decide, by decide, by decide⟩

/-- An order of two, placed, and an edit that restates its line before it lowers
it. -/
def restatedRun : List editServer.Action :=
  [.arrive (.place twoDishes)] ++ placed 0
    ++ [.arrive (.edit 0 0 0 [] restated), .step 1 plain, .step 1 plain]

/-- **Totals can stop adding up**, with one order and one edit. -/
theorem bills_agree_fails :
    ¬ ∀ (w₀ : World) (acts : List editServer.Action), w₀.orders = Rows.empty →
      w₀.orderItems = Rows.empty → BillsAgree (editRun w₀ acts).world := by
  intro h
  have hstored : (editRun kitchenOpen restatedRun).world.storedTotal 0 = 200 := by decide
  have hbill : ((editRun kitchenOpen restatedRun).world.buildBill 0).map (fun b => b.totalKurus)
      = some 100 := by decide
  obtain ⟨bill, hb, htotal⟩ := Option.map_eq_some_iff.mp hbill
  rw [(h kitchenOpen restatedRun rfl rfl).share 0 bill hb, htotal] at hstored
  cases hstored

/-- Totals on a run of two orders, one of them edited while the other is
placed. -/
theorem bills_agree_lowered :
    BillsAgree (editRun kitchenOpen ([.arrive (.place twoDishes), .arrive (.place twoDishes)]
      ++ placed 0 ++ [.arrive (.edit 0 0 0 [] lowered), .step 2 plain] ++ placed 1
      ++ [.step 2 plain])).world :=
  bills_agree kitchenOpen _ (ordersAddUp_empty rfl rfl) (by decide)

/-! ## No order is emptied -/

/-- An order has a live line, of one at least. -/
def World.HasLine (w : World) (orderId : Id) : Prop :=
  ∃ i ∈ w.liveItems orderId, 1 ≤ i.2.qty

/-- **No order is empty.** -/
def NoneEmpty (w : World) : Prop := ∀ id o, w.orders.get? id = some o → w.HasLine id

/-- Lines stay, and stay their order's. -/
def LinesKept (w w' : World) : Prop :=
  ∀ k i, w.orderItems.get? k = some i →
    ∃ i', w'.orderItems.get? k = some i' ∧ i'.orderId = i.orderId

theorem LinesKept.of_eq {w w' : World} (h : w'.orderItems = w.orderItems) : LinesKept w w' := by
  intro k i hi
  rw [h]
  exact ⟨i, hi, rfl⟩

theorem LinesKept.trans {w w' w'' : World} (h : LinesKept w w') (h' : LinesKept w' w'') :
    LinesKept w w'' := by
  intro k i hi
  obtain ⟨i', hi', ho⟩ := h k i hi
  obtain ⟨i'', hi'', ho'⟩ := h' k i' hi'
  exact ⟨i'', hi'', ho'.trans ho⟩

theorem NoneEmpty.congr {w w' : World} (h : NoneEmpty w) (ho : w'.orders = w.orders)
    (hi : w'.orderItems = w.orderItems) : NoneEmpty w' := by
  intro id o hid
  rw [ho] at hid
  unfold World.HasLine World.liveItems
  rw [hi]
  exact h id o hid

/-- **What an edit has to leave.** When its transaction comes and the lines it
changes are as it read them, the order has a live line, of one at least, that
no entry of the input sets to nothing. -/
def leavesALine (r : EditRequest) (op : Call) (w : World) : Bool :=
  match r, op with
  | .edit orderId _ _ _ input, .orderEditTransaction _ _ edits _ _ =>
    decide (stillAsRead w edits → ∃ i ∈ w.liveItems orderId, 1 ≤ i.2.qty
      ∧ ∀ l ∈ input.lines, l.itemId = i.1 → l.qty ≠ 0)
  | _, _ => true

/-- No order is empty, given that edits leave a line. -/
abbrev linesProtocol : Protocol editServer where
  Inv := NoneEmpty
  Evolves := LinesKept
  refl _ := LinesKept.of_eq rfl
  Guard r _ _ op w := leavesALine r op w

theorem lines_allows : AllowsHarmless linesProtocol :=
  fun _ _ _ _ _ _ h hw => ⟨hw.congr h.orders h.orderItems, LinesKept.of_eq h.orderItems, trivial⟩

theorem linesKept_rely {w w' : World} (h : linesProtocol.Rely w w') : LinesKept w w' :=
  h.evolves LinesKept.trans

theorem NoneEmpty.insertOrder {w : World} (h : NoneEmpty w) {data : NewOrder}
    {items : List NewOrderItem} (hp : Priced data items) : NoneEmpty (w.insertOrder data items) := by
  intro id o hid
  have hget : (w.orders.create _).get? id = some o := hid
  rw [Rows.get?_create] at hget
  by_cases hnext : id = w.orders.next
  · obtain ⟨item, hitem⟩ := List.exists_mem_of_ne_nil items hp.nonempty
    obtain ⟨k, hk⟩ := Rows.exists_get?_createAll (t := w.orderItems)
      (List.mem_map_of_mem (f := NewOrderItem.row w.orders.next) hitem)
    exact ⟨(k, item.row w.orders.next), mem_liveItems.mpr ⟨hk, hnext.symm, rfl⟩,
      hp.positive item hitem⟩
  · rw [if_neg hnext] at hget
    obtain ⟨i, hi, hqty⟩ := h id o hget
    obtain ⟨hrow, hlive⟩ := mem_liveItems.mp hi
    exact ⟨i, mem_liveItems.mpr ⟨Rows.get?_createAll_of_some hrow, hlive⟩, hqty⟩

section

variable {w w' w₁ : World} {orderId venueId : Id} {o : OrderForEdit} {input : OrderEditInput}
  {plan : EditPlan} {items : Rows OrderItem}

/-- A line that no entry sets to nothing is left with something. -/
theorem leaves_live (ho : w₁.orderForEdit orderId venueId = some o)
    (hplan : planEdit o input = .ok plan) (now : Time) {k : Id} {i : OrderItem}
    (hqty : 1 ≤ i.qty) (hentries : ∀ l ∈ input.lines, l.itemId = k → l.qty ≠ 0) :
    (LineEdit.leaves plan.edits now k i).voidedAt = i.voidedAt
      ∧ 1 ≤ (LineEdit.leaves plan.edits now k i).qty := by
  unfold LineEdit.leaves
  cases hfind : plan.edits.find? (fun e => e.id == k) with
  | none => exact ⟨rfl, hqty⟩
  | some e =>
    obtain ⟨l, hl, hk, _, _, _, rfl⟩ := edit_found ho hplan hfind
    have hne : l.qty ≠ 0 := hentries l hl hk
    unfold LineEdit.apply
    dsimp only
    rw [if_neg hne]
    exact ⟨rfl, Nat.pos_of_ne_zero hne⟩

/-- An edit leaves the lines of other orders alone. -/
theorem leaves_other (ho : w₁.orderForEdit orderId venueId = some o)
    (hplan : planEdit o input = .ok plan) (hkept : LinesKept w₁ w) {now : Time} {k : Id}
    {i : OrderItem} (hi : w.orderItems.get? k = some i) (hother : i.orderId ≠ orderId) :
    LineEdit.leaves plan.edits now k i = i := by
  refine leaves_of_not_live ho hplan (fun j hj => ?_)
  obtain ⟨hrow, hjo, _⟩ := mem_liveItems.mp hj
  obtain ⟨i', hi', ho'⟩ := hkept k j hrow
  rw [hi] at hi'
  cases hi'
  exact hother (ho'.trans hjo)

theorem NoneEmpty.edit (h : NoneEmpty w) (ho : w₁.orderForEdit orderId venueId = some o)
    (hplan : planEdit o input = .ok plan) (hkept : LinesKept w₁ w)
    (hleaves : ∃ i ∈ w.liveItems orderId, 1 ≤ i.2.qty
      ∧ ∀ l ∈ input.lines, l.itemId = i.1 → l.qty ≠ 0)
    (happ : World.applyEdits w.now plan.edits w.orderItems = some items)
    (hitems : w'.orderItems = items)
    (horders : w'.orders = w.orders.update (World.editable orderId EDITABLE_STATUSES)
      (fun o => { o with totalKurus := plan.totalKurus })) : NoneEmpty w' := by
  intro id o' hid
  have hget := applyEdits_get? happ (edits_change ho hplan) (edits_from ho hplan)
  rw [horders, Rows.get?_update] at hid
  obtain ⟨row, hrow, _⟩ := Option.map_eq_some_iff.mp hid
  by_cases hk : id = orderId
  · obtain ⟨⟨k, i⟩, hi, hqty, hentries⟩ := hleaves
    obtain ⟨hrow_i, hio, hvoid⟩ := mem_liveItems.mp hi
    obtain ⟨hlive, hpos⟩ := leaves_live ho hplan w.now hqty hentries
    refine ⟨(k, LineEdit.leaves plan.edits w.now k i), mem_liveItems.mpr ⟨?_, ?_, ?_⟩, hpos⟩
    · rw [hitems, hget, hrow_i]
      rfl
    · rw [LineEdit.leaves_orderId, hk]
      exact hio
    · rw [hlive]
      exact hvoid
  · obtain ⟨⟨k, i⟩, hi, hqty⟩ := h id row hrow
    obtain ⟨hrow_i, hio, hvoid⟩ := mem_liveItems.mp hi
    refine ⟨(k, i), mem_liveItems.mpr ⟨?_, hio, hvoid⟩, hqty⟩
    have hother : i.orderId ≠ orderId := fun heq => hk (hio.symm.trans heq)
    rw [hitems, hget, hrow_i, Option.map_some, leaves_other ho hplan hkept hrow_i hother]

end

theorem linesKept_edit {w w' w₁ : World} {orderId venueId : Id} {o : OrderForEdit}
    {input : OrderEditInput} {plan : EditPlan} {items : Rows OrderItem}
    (ho : w₁.orderForEdit orderId venueId = some o) (hplan : planEdit o input = .ok plan)
    (happ : World.applyEdits w.now plan.edits w.orderItems = some items)
    (hitems : w'.orderItems = items) : LinesKept w w' := by
  intro k i hi
  refine ⟨LineEdit.leaves plan.edits w.now k i, ?_, LineEdit.leaves_orderId _ _ _ _⟩
  rw [hitems, applyEdits_get? happ (edits_change ho hplan) (edits_from ho hplan), hi]
  rfl

theorem linesSound : linesProtocol.Sound (fun _ _ _ => True) where
  env e w hw := by
    cases e with
    | tick ms => exact ⟨hw.congr rfl rfl, LinesKept.of_eq rfl⟩
    | crash => exact ⟨hw, LinesKept.of_eq rfl⟩
  entry r w _ := by
    cases r with
    | place req =>
      refine Protocol.ok_map (postOrder_ok lines_allows (fun v w c data items hp hw => ?_) req)
      rcases orderCreate_world c w data items with h | h
      · rw [h]
        exact ⟨hw, LinesKept.of_eq rfl, trivial⟩
      · rw [h]
        exact ⟨hw.insertOrder hp, fun k i hi => ⟨i, Rows.get?_createAll_of_some hi, rfl⟩, trivial⟩
    | edit orderId venueId staffId staffName input =>
      refine Protocol.ok_map (editOrder_ok lines_allows
        (fun v w₁ w w' c o plan b entry _ hrely hw ho hplan hg hx => ?_))
      rcases orderEditTransaction_cases hx with ⟨rfl, _⟩ | ⟨items, order, _, happ, horder,
          hstatus, hitems, horders, _⟩
      · exact ⟨hw, LinesKept.of_eq rfl, trivial⟩
      · have hleaves := of_decide_eq_true hg (stillAsRead_of_applyEdits ho hplan happ)
        exact ⟨hw.edit ho hplan (linesKept_rely hrely) hleaves happ hitems horders,
          linesKept_edit ho hplan happ hitems, trivial⟩

/-- **No order is emptied**, in every run whose edits leave a line. -/
theorem order_not_emptied (w₀ : World) (acts : List editServer.Action) (h₀ : NoneEmpty w₀)
    (h : Sys.Pool.Meets linesProtocol.cond (Sys.Pool.init w₀) acts = true) (id : Id) (o : Order)
    (ho : (editRun w₀ acts).world.orders.get? id = some o) :
    (editRun w₀ acts).world.HasLine id :=
  (linesSound.run h₀ h).inv id o ho

/-! ### A line named twice, and voided -/

/-- The line `0` at two, as it is, and again at nothing. -/
def restatedVoid : OrderEditInput :=
  ⟨[⟨0, 2⟩, ⟨0, 0⟩], by decide, by decide, by decide⟩

/-- **One edit can empty an order.** -/
theorem order_not_emptied_fails :
    ¬ ∀ (w₀ : World) (acts : List editServer.Action), w₀.orders = Rows.empty → ∀ id o,
      (editRun w₀ acts).world.orders.get? id = some o →
      (editRun w₀ acts).world.HasLine id := by
  intro h
  let acts : List editServer.Action := [.arrive (.place twoDishes)] ++ placed 0
    ++ [.arrive (.edit 0 0 0 [] restatedVoid), .step 1 plain, .step 1 plain]
  have hempty : (editRun kitchenOpen acts).world.liveItems 0 = [] := by decide
  have hsome : ((editRun kitchenOpen acts).world.orders.get? 0).isSome = true := by decide
  obtain ⟨o, ho⟩ := Option.isSome_iff_exists.mp hsome
  obtain ⟨i, hi, _⟩ := h kitchenOpen acts rfl 0 o ho
  rw [hempty] at hi
  cases hi

/-- A line is left on a run of an order and an edit. -/
theorem order_not_emptied_lowered :
    (editRun kitchenOpen ([.arrive (.place twoDishes)] ++ placed 0
      ++ [.arrive (.edit 0 0 0 [] lowered), .step 1 plain, .step 1 plain])).world.HasLine 0 :=
  order_not_emptied kitchenOpen _ (fun id o h => by cases h) (by decide) 0
    ⟨0, 0, 0, some 0, 1, .received, none, 100, .unpaid, none, none, 0⟩ (by decide)

end Masadan
