import Masadan.Cart
import Masadan.History
import Masadan.QrCodes
import Masadan.Submissions

/-!
# The server a phone talks to

Two requests of a customer's phone bear on its orders: a scan, which mints the session its
cookie stands for, and a submission. An order once inserted stays as it is with its lines,
and a cookie stays that of its session. And an order that is inserted is a submission's:
under the submission's session and key, with its lines as the dishes price them.
-/

namespace Masadan

/-! ## The requests -/

inductive PhoneRequest where
  | order (req : OrderRequest)
  | scan (caller : Caller) (code sig : Text) (token : ℕ)

inductive PhoneAnswer where
  | ordered (a : OrderAnswer)
  | scanned (a : ScanAnswer)

def PhoneRequest.prog (hmac : Hmac) : PhoneRequest → Api PhoneAnswer
  | .order req => PhoneAnswer.ordered <$> postOrder req
  | .scan caller code sig token => PhoneAnswer.scanned <$> getScan hmac caller code sig token

/-- The server serving these requests. -/
abbrev phoneServer (hmac : Hmac) : Sys api :=
  server (PhoneRequest.prog hmac) (fun _ => true) (fun _ => []) false

/-! ## What the server keeps -/

/-- The lines of an order. -/
def World.linesOf (w : World) (orderId : Id) : List OrderItem :=
  (w.orderItems.rows.map Prod.snd).filter (fun i => i.orderId == orderId)

/-- The lines there are, are of orders there were. -/
def World.LinesOfOrders (w : World) : Prop :=
  ∀ id i, w.orderItems.get? id = some i → i.orderId < w.orders.next

/-- What of an order does not change; that its visit is discarded does not show here. -/
structure SameOrder (o o' : Order) : Prop where
  session : o'.sessionId = o.sessionId
  key : o'.idempotencyKey = o.idempotencyKey
  number : o'.number = o.number

/-- **Orders stay, with their lines, and cookies stay their sessions'.** -/
structure OrdersStay (w w' : World) : Prop where
  orders : ∀ id o, w.orders.get? id = some o → (∃ o', w'.orders.get? id = some o' ∧ SameOrder o o')
    ∧ w'.linesOf id = w.linesOf id
  sessions : ∀ cookie id, w.sessionOf cookie = some id → w'.sessionOf cookie = some id

/-- No order is new. -/
structure NoneNew (w w' : World) : Prop where
  next : w'.orders.next = w.orders.next
  none : ∀ id, w.orders.get? id = none → w'.orders.get? id = none

/-- **The call inserts the order of the submission**: under its session and its key, with
its lines at what the dishes cost. -/
structure Inserts (req : OrderRequest) (data : NewOrder) (items : List NewOrderItem)
    (e : Event api World) : Prop where
  op : e.op = .orderCreate data items
  done : e.after = e.before.insertOrder data items
  free : e.before.keyTaken data.sessionId data.idempotencyKey = false
  ofSession : e.before.sessionOf req.cookie = some data.sessionId
  priced : ∃ body, req.body.bind (orderSchema req.zod) = some body
    ∧ data.idempotencyKey = body.idempotencyKey
    ∧ priceLines (e.before.menuFor data.venueId (body.items.map (fun i => i.itemId)))
      body.items 0 [] = .ok (data.totalKurus, items)

/-- A call inserts an order of its submission, or leaves the orders alone. -/
def OrdersOwn (r : PhoneRequest) (e : Event api World) : Prop :=
  NoneNew e.before e.after ∨ ∃ req data items, r = .order req ∧ Inserts req data items e

section

variable {w w' : World}

/-- Where no session goes, changes its token or comes before another, cookies stay. -/
theorem sessionOf_stays
    (hthere : ∀ id s, w.tableSessions.get? id = some s →
      ∃ s', w'.tableSessions.get? id = some s' ∧ s'.token = s.token)
    (hold : ∀ id s', w'.tableSessions.get? id = some s' → id < w.tableSessions.next →
      ∃ s, w.tableSessions.get? id = some s ∧ s.token = s'.token)
    (cookie : Option ℕ) (id : Id) (h : w.sessionOf cookie = some id) :
    w'.sessionOf cookie = some id := by
  obtain ⟨token, rfl, h⟩ := Option.bind_eq_some_iff.mp h
  obtain ⟨⟨k, s⟩, hfind, rfl⟩ := Option.map_eq_some_iff.mp h
  obtain ⟨hget, htoken, hleast⟩ := Rows.find?_eq_some_iff.mp hfind
  obtain ⟨s', hget', htoken'⟩ := hthere k s hget
  have hlt : k < w.tableSessions.next := Rows.lt_next_of_get? hget
  have hfirst : w'.tableSessions.find? (fun _ s => s.token == token) = some (k, s') := by
    refine Rows.find?_eq_some_iff.mpr ⟨hget', ?_, fun j u hj hu => ?_⟩
    · rw [htoken']
      exact htoken
    · by_contra hlate
      obtain ⟨s₀, hs₀, htoken₀⟩ := hold j u hj ((Nat.lt_of_not_le hlate).trans hlt)
      refine hlate (hleast j s₀ hs₀ ?_)
      rw [htoken₀]
      exact hu
  show (w'.tableSessions.find? _).map Prod.fst = some k
  rw [hfirst]
  rfl

theorem SameOrder.refl (o : Order) : SameOrder o o := ⟨rfl, rfl, rfl⟩

theorem SameOrder.trans {o o' o'' : Order} (h : SameOrder o o') (h' : SameOrder o' o'') :
    SameOrder o o'' :=
  ⟨h'.session.trans h.session, h'.key.trans h.key, h'.number.trans h.number⟩

theorem NoneNew.of_eq (h : w'.orders = w.orders) : NoneNew w w' :=
  ⟨congrArg Rows.next h, fun _ hnone => h ▸ hnone⟩

/-- An update that leaves the sessions their tokens. -/
theorem sessionOf_update {p : Id → TableSession → Bool} {f : TableSession → TableSession}
    (hs : w'.tableSessions = w.tableSessions.update p f) (hf : ∀ s, (f s).token = s.token)
    (cookie : Option ℕ) (id : Id) (h : w.sessionOf cookie = some id) :
    w'.sessionOf cookie = some id := by
  have htoken : ∀ k s, (if p k s then f s else s).token = s.token := by
    intro k s
    split
    · exact hf s
    · rfl
  refine sessionOf_stays (fun k s hk => ?_) (fun k s' hk _ => ?_) cookie id h
  · rw [hs]
    exact ⟨_, Rows.get?_update_of_some hk p f, htoken k s⟩
  · rw [hs, Rows.get?_update] at hk
    obtain ⟨s, hold, rfl⟩ := Option.map_eq_some_iff.mp hk
    exact ⟨s, hold, (htoken k s).symm⟩

/-- A step that leaves the orders and their lines alone, and the sessions their tokens. -/
theorem OrdersStay.of_sessions (ho : w'.orders = w.orders) (hi : w'.orderItems = w.orderItems)
    (hthere : ∀ id s, w.tableSessions.get? id = some s →
      ∃ s', w'.tableSessions.get? id = some s' ∧ s'.token = s.token)
    (hold : ∀ id s', w'.tableSessions.get? id = some s' → id < w.tableSessions.next →
      ∃ s, w.tableSessions.get? id = some s ∧ s.token = s'.token) : OrdersStay w w' where
  orders id o h := ⟨⟨o, ho ▸ h, .refl o⟩, by unfold World.linesOf; rw [hi]⟩
  sessions := sessionOf_stays hthere hold

theorem OrdersStay.of_eq (ho : w'.orders = w.orders) (hi : w'.orderItems = w.orderItems)
    (hs : w'.tableSessions = w.tableSessions) : OrdersStay w w' :=
  .of_sessions ho hi (fun _ s h => ⟨s, hs ▸ h, rfl⟩) (fun _ s h _ => ⟨s, hs ▸ h, rfl⟩)

theorem OrdersStay.trans {w'' : World} (h : OrdersStay w w') (h' : OrdersStay w' w'') :
    OrdersStay w w'' where
  orders id o ho := by
    obtain ⟨⟨o', ho', hsame⟩, hl'⟩ := h.orders id o ho
    obtain ⟨⟨o'', ho'', hsame'⟩, hl''⟩ := h'.orders id o' ho'
    exact ⟨⟨o'', ho'', hsame.trans hsame'⟩, hl''.trans hl'⟩
  sessions cookie id hs := h'.sessions cookie id (h.sessions cookie id hs)

theorem SameRows.ordersStay (h : SameRows w w') : OrdersStay w w' := by
  refine OrdersStay.of_sessions h.orders h.orderItems (fun id s hs => ?_) (fun id s' hs' _ => ?_)
  · obtain ⟨s', hs'⟩ := h.sessionsThere id s hs
    obtain ⟨s₀, hs₀, heq⟩ := h.tableSessions id s' hs'
    cases hs.symm.trans hs₀
    exact ⟨s', hs', by rw [heq]⟩
  · obtain ⟨s, hs, heq⟩ := h.tableSessions id s' hs'
    exact ⟨s, hs, by rw [heq]⟩

/-- An insertion's lines are those of the new order. -/
theorem linesOf_insertOrder (w : World) (data : NewOrder) (items : List NewOrderItem) (id : Id) :
    (w.insertOrder data items).linesOf id = w.linesOf id
      ++ if id = w.orders.next then items.map (NewOrderItem.row id) else [] := by
  unfold World.linesOf
  show ((w.orderItems.createAll _).rows.map Prod.snd).filter _ = _
  rw [Rows.values_createAll, List.filter_append]
  congr 1
  by_cases hid : id = w.orders.next
  · rw [if_pos hid, ← hid]
    refine List.filter_eq_self.mpr (fun i hi => ?_)
    obtain ⟨j, _, rfl⟩ := List.mem_map.mp hi
    exact beq_iff_eq.mpr rfl
  · rw [if_neg hid]
    refine List.filter_eq_nil_iff.mpr (fun i hi => ?_)
    obtain ⟨j, _, rfl⟩ := List.mem_map.mp hi
    rw [beq_iff_eq]
    exact fun h => hid h.symm

/-- The new order is under the session and the key. -/
theorem get?_insertOrder (w : World) (data : NewOrder) (items : List NewOrderItem) :
    ∃ o, (w.insertOrder data items).orders.get? w.orders.next = some o
      ∧ o.sessionId = data.sessionId ∧ o.idempotencyKey = data.idempotencyKey :=
  ⟨_, Rows.get?_create_next _ _, rfl, rfl⟩

/-- An order that is not there yet has no lines. -/
theorem linesOf_next (h : w.LinesOfOrders) : w.linesOf w.orders.next = [] := by
  refine List.filter_eq_nil_iff.mpr (fun i hi => ?_)
  obtain ⟨⟨k, i⟩, hk, rfl⟩ := List.mem_map.mp hi
  have hlt := h k i (Rows.get?_eq_some_iff.mpr hk)
  rw [beq_iff_eq]
  exact Nat.ne_of_lt hlt

theorem World.LinesOfOrders.insertOrder (h : w.LinesOfOrders) (data : NewOrder)
    (items : List NewOrderItem) : (w.insertOrder data items).LinesOfOrders := by
  intro id i hi
  have hget : (w.orderItems.createAll (items.map (NewOrderItem.row w.orders.next))).get? id
      = some i := hi
  rcases Rows.get?_createAll hget with hold | hnew
  · exact Nat.lt_succ_of_lt (h id i hold)
  · obtain ⟨j, _, rfl⟩ := List.mem_map.mp hnew
    exact Nat.lt_succ_self _

theorem OrdersStay.insertOrder (data : NewOrder) (items : List NewOrderItem) :
    OrdersStay w (w.insertOrder data items) where
  orders id o ho := by
    have hlt : id < w.orders.next := Rows.lt_next_of_get? ho
    refine ⟨⟨o, Rows.get?_create_of_some ho, .refl o⟩, ?_⟩
    rw [linesOf_insertOrder, if_neg (Nat.ne_of_lt hlt), List.append_nil]
  sessions _ _ h := h

end

/-! ## The protocol -/

/-- What the requests promise: the dishes stay as they were to begin with. -/
abbrev placingProtocol (hmac : Hmac) (w₀ : World) : Protocol (phoneServer hmac) where
  Inv w := w.menuItems = w₀.menuItems ∧ (w₀.LinesOfOrders → w.LinesOfOrders)
  Evolves := OrdersStay
  refl _ := OrdersStay.of_eq rfl rfl rfl
  Local r _ e := OrdersOwn r e

/-- What a submission that is answered has seen. -/
def PhonePost : PhoneRequest → View api World → Except DbError PhoneAnswer → Prop
  | .order req, v, x => ∀ a, x = .ok (.ordered a) → Acknowledged req v (.ok a)
  | .scan _ _ _ _, _, _ => True

section

variable {hmac : Hmac} {w₀ : World} {r : PhoneRequest} {v : View api World}

theorem placing_rely {w w' : World} (h : (placingProtocol hmac w₀).Rely w w') :
    OrdersStay w w' :=
  h.evolves (fun h h' => OrdersStay.trans h h')

/-- A step that inserts nothing. -/
theorem takes_noneNew {op : Call} {w w' : World} (hw : (placingProtocol hmac w₀).Inv w)
    (hm : w'.menuItems = w.menuItems) (hi : w'.orderItems = w.orderItems) (hnew : NoneNew w w')
    (hstay : OrdersStay w w') : (placingProtocol hmac w₀).Takes r v ⟨op, w, w'⟩ := by
  refine ⟨⟨hm.trans hw.1, fun h₀ id i hid => ?_⟩, hstay, .inl hnew⟩
  dsimp only at hid ⊢
  rw [hi] at hid
  rw [hnew.next]
  exact hw.2 h₀ id i hid

theorem placing_allows : AllowsHarmless (placingProtocol hmac w₀) :=
  fun _ _ _ _ _ _ hsame hw =>
    takes_noneNew hw hsame.menuItems hsame.orderItems (.of_eq hsame.orders) hsame.ordersStay

theorem ordersStay_delete (w : World) (id : Id) :
    NoneNew w (w.tableVisitDelete id).1 ∧ OrdersStay w (w.tableVisitDelete id).1 := by
  unfold World.tableVisitDelete
  split
  · exact ⟨.of_eq rfl, .of_eq rfl rfl rfl⟩
  · refine ⟨⟨rfl, fun k hk => ?_⟩, ⟨fun k o hk => ⟨?_, rfl⟩,
      sessionOf_update (p := fun _ s => s.visitId == some id)
        (f := fun s => { s with visitId := none }) rfl (fun _ => rfl)⟩⟩
    · exact (Rows.get?_update _ _ _ _).trans (congrArg _ hk)
    · refine ⟨_, Rows.get?_update_of_some hk _ _, ?_⟩
      split
      · exact ⟨rfl, rfl, rfl⟩
      · exact .refl o

theorem ordersStay_mint (w : World) (data : NewTableSession) :
    OrdersStay w (w.tableSessionCreate data).1 := by
  unfold World.tableSessionCreate
  split
  · exact .of_eq rfl rfl rfl
  · refine .of_sessions rfl rfl (fun k s hk => ⟨s, Rows.get?_create_of_some hk, rfl⟩)
      (fun k s' hk hlt => ⟨s', ?_, rfl⟩)
    have hget : (w.tableSessions.create _).get? k = some s' := hk
    rw [Rows.get?_create, if_neg (Nat.ne_of_lt hlt)] at hget
    exact hget

/-- What a scan does inserts nothing. -/
theorem takes_scan {op : Call} (hop : op.ScanWork) (c : Choice) {w : World}
    (hw : (placingProtocol hmac w₀).Inv w) :
    (placingProtocol hmac w₀).Takes r v ⟨op, w, (World.exec c op w).1⟩ := by
  have hharmless : op.Harmless →
      (placingProtocol hmac w₀).Takes r v ⟨op, w, (World.exec c op w).1⟩ :=
    fun h => placing_allows.exec h c hw
  cases op with
  | tableVisitCreate tableId venueId =>
    exact takes_noneNew hw rfl rfl (.of_eq rfl) (.of_eq rfl rfl rfl)
  | tableVisitDelete id =>
    obtain ⟨hnew, hstay⟩ := ordersStay_delete w id
    refine takes_noneNew hw ?_ ?_ hnew hstay
    · show (w.tableVisitDelete id).1.menuItems = _
      unfold World.tableVisitDelete
      split
      · rfl
      · rfl
    · show (w.tableVisitDelete id).1.orderItems = _
      unfold World.tableVisitDelete
      split
      · rfl
      · rfl
  | tableSessionCreate data =>
    have hsame : (w.tableSessionCreate data).1.menuItems = w.menuItems
        ∧ (w.tableSessionCreate data).1.orderItems = w.orderItems
        ∧ (w.tableSessionCreate data).1.orders = w.orders := by
      unfold World.tableSessionCreate
      split
      · exact ⟨rfl, rfl, rfl⟩
      · exact ⟨rfl, rfl, rfl⟩
    exact takes_noneNew hw hsame.1 hsame.2.1 (.of_eq hsame.2.2) (ordersStay_mint w data)
  | tableSessionUpdateMany cond data =>
    obtain rfl : data = revoke := hop
    exact takes_noneNew hw rfl rfl (.of_eq rfl)
      ⟨fun _ o ho => ⟨⟨o, ho, .refl o⟩, rfl⟩, sessionOf_update (f := revoke w.now) rfl (fun _ => rfl)⟩
  | _ => exact hharmless hop

/-- The dishes found are those of the tables. -/
theorem menuFor_congr {w w' : World} (h : w'.menuItems = w.menuItems) (venueId : Id)
    (itemIds : List Id) : w'.menuFor venueId itemIds = w.menuFor venueId itemIds := by
  funext id
  unfold World.menuFor
  rw [h]

/-- **A priced submission inserts its own order.** -/
theorem placing_allowsDraft {req : OrderRequest} {session : ActiveSession} {body : OrderBody}
    {totalKurus : ℤ} {items : List NewOrderItem}
    (h : Admits (placingProtocol hmac w₀) req session body totalKurus items v) :
    AllowsDraft (placingProtocol hmac w₀) (.order req) v
      (session.draft body totalKurus items) := by
  intro v' w c number w' x _ hrely hw hv _ hx
  rcases orderCreate_cases hx with ⟨rfl, _⟩ | ⟨rfl, _, _, hfree⟩
  · exact takes_noneNew hw rfl rfl (.of_eq rfl) (.of_eq rfl rfl rfl)
  · refine ⟨⟨hw.1, fun h₀ => (hw.2 h₀).insertOrder _ _⟩, OrdersStay.insertOrder _ _,
      .inr ⟨req, _, _, rfl, rfl, rfl, hfree, ?_, body, h.parsed, rfl, ?_⟩⟩
    · -- the cookie is still that of the session it was looked up under
      obtain ⟨e, _, hled, hfirst, _⟩ := h.seen
      exact (placing_rely ((hled.trans' hrely).trans' hv)).sessions _ _ hfirst
    · have hmenu : w.menuItems = v.since.menuItems := hw.1.trans h.inv.1.symm
      show priceLines (w.menuFor session.venueId _) body.items 0 [] = _
      rw [menuFor_congr hmenu]
      exact h.priced

/-- **The two requests keep the protocol.** -/
theorem placingSound : (placingProtocol hmac w₀).Sound PhonePost where
  env e w hw := by
    cases e with
    | tick ms => exact ⟨hw, .of_eq rfl rfl rfl⟩
    | crash => exact ⟨hw, .of_eq rfl rfl rfl⟩
  entry r w _ := by
    cases r with
    | order req =>
      refine Protocol.ok_map (Protocol.ok_mono (postOrder_acknowledged placing_allows
        (fun _ _ _ _ _ h => placing_allowsDraft h)) (fun v x hx => ?_))
      intro a ha
      cases x with
      | error e => cases ha
      | ok b =>
        cases ha
        exact hx
    | scan caller code sig token =>
      exact Protocol.ok_map (Protocol.ok_mono (Protocol.ok_of_calls
        (getScan_calls hmac caller code sig token) (fun _ _ c _ hop hw _ => takes_scan hop c hw))
        (fun _ _ _ => trivial))

end

/-! ## Every run -/

/-- A run of these requests, from a world. -/
abbrev phoneRun (hmac : Hmac) (w₀ : World) (acts : List (phoneServer hmac).Action) :
    (phoneServer hmac).Pool :=
  Sys.Pool.run (Sys.Pool.init w₀ : (phoneServer hmac).Pool) acts

section

variable {hmac : Hmac} {w₀ : World}

theorem placing_meets (acts : List (phoneServer hmac).Action) :
    (Sys.Pool.init w₀).Meets (placingProtocol hmac w₀).cond acts = true :=
  (placingProtocol hmac w₀).meets_cond (fun _ _ _ _ _ => rfl) _ acts

theorem placing_run (hmac : Hmac) (w₀ : World) (acts : List (phoneServer hmac).Action) :
    (placingProtocol hmac w₀).PoolOk PhonePost w₀ (phoneRun hmac w₀ acts) :=
  placingSound.run ⟨rfl, id⟩ (placing_meets acts)

theorem phone_kills (e : Disturbance) : (phoneServer hmac).kills e = false := by
  cases e with
  | tick ms => rfl
  | crash => rfl

/-- **Who inserted an order**: it was there, or it is of a program's submission. -/
theorem exists_inserter {acts : List (phoneServer hmac).Action} {id : Id}
    {o : Order} (ho : (phoneRun hmac w₀ acts).world.orders.get? id = some o)
    (hnew : w₀.orders.get? id = none) :
    ∃ (i : ℕ) (t : (phoneServer hmac).Thread) (req : OrderRequest) (data : NewOrder)
      (items : List NewOrderItem) (e : Event api World),
      (phoneRun hmac w₀ acts).threads[i]? = some t ∧ t.req = .order req
        ∧ e ∈ t.view.past ∧ Inserts req data items e ∧ e.before.orders.next = id := by
  have hthere : ¬ (phoneRun hmac w₀ acts).world.orders.get? id = none := by
    rw [ho]
    exact Option.some_ne_none o
  obtain ⟨pre, a, post, rfl, hpre, hleft⟩ := Sys.Pool.exists_leaving
    (I := fun p : (phoneServer hmac).Pool => p.world.orders.get? id = none)
    (p := Sys.Pool.init w₀) hnew hthere
  have hmeets : (Sys.Pool.init w₀).Meets (placingProtocol hmac w₀).cond (pre ++ a :: post) = true :=
    placing_meets (pre ++ a :: post)
  obtain ⟨_, hrest⟩ := Sys.Pool.meets_append.mp hmeets
  have hact := (placing_run hmac w₀ pre).act_cases (Sys.Pool.meets_cons.mp hrest).1
  rw [Sys.Pool.run_concat] at hleft
  rcases hact with hsame | ⟨e, rfl, henv⟩ | ⟨i, c, t, op, k, rfl, ht, hk, _, _, htakes⟩
  · rw [hsame] at hleft
    exact absurd hpre hleft
  · rw [henv] at hleft
    cases e with
    | tick ms => exact absurd hpre hleft
    | crash => exact absurd hpre hleft
  · rcases htakes.here with hnone | ⟨req, data, items, hreq, hins⟩
    · exact absurd (hnone.none id hpre) hleft
    · have hafter : ((phoneRun hmac w₀ pre).act (.step i c)).world
          = (phoneRun hmac w₀ pre).world.insertOrder data items := hins.done
      have hid : (phoneRun hmac w₀ pre).world.orders.next = id := by
        by_contra hne
        refine hleft ?_
        rw [hafter]
        show ((phoneRun hmac w₀ pre).world.orders.create _).get? id = none
        rw [Rows.get?_create, if_neg (fun h => hne h.symm)]
        exact hpre
      -- the program that answered the call still remembers it
      have hthere := Sys.Pool.act_remembers (c := c) ht hk
      rw [← Sys.Pool.run_concat] at hthere
      obtain ⟨t', ht', hreq', _, hpast⟩ : ∃ t',
          (phoneRun hmac w₀ ((pre ++ [.step i c]) ++ post)).threads[i]? = some t' ∧ _ :=
        Sys.Pool.persists phone_kills hthere
      rw [← List.append_cons] at ht'
      rw [Sys.Pool.run_concat] at hpast
      exact ⟨i, t', req, data, items, _, ht', hreq'.trans hreq, hpast.mem List.mem_cons_self,
        hins, hid⟩

/-- **What became of an insertion**: the order is there, under its session and key, with
its lines. -/
theorem inserted_kept (h₀ : w₀.LinesOfOrders) {acts : List (phoneServer hmac).Action}
    {t : (phoneServer hmac).Thread} (ht : t ∈ (phoneRun hmac w₀ acts).threads)
    {e : Event api World} (he : e ∈ t.view.past) {req : OrderRequest} {data : NewOrder}
    {items : List NewOrderItem} (hins : Inserts req data items e) :
    (∃ o, (phoneRun hmac w₀ acts).world.orders.get? e.before.orders.next = some o
      ∧ o.sessionId = data.sessionId ∧ o.idempotencyKey = data.idempotencyKey)
    ∧ (phoneRun hmac w₀ acts).world.linesOf e.before.orders.next
      = items.map (NewOrderItem.row e.before.orders.next)
    ∧ (phoneRun hmac w₀ acts).world.sessionOf req.cookie = some data.sessionId := by
  have hmade := (placing_run hmac w₀ acts).made t ht e he
  have hlater := placing_rely hmade.led
  obtain ⟨o, ho, hsession, hkey⟩ : ∃ o, e.after.orders.get? e.before.orders.next = some o
      ∧ o.sessionId = data.sessionId ∧ o.idempotencyKey = data.idempotencyKey := by
    rw [hins.done]
    exact get?_insertOrder _ _ _
  obtain ⟨⟨o', ho', hsame⟩, hlines⟩ := hlater.orders _ o ho
  refine ⟨⟨o', ho', hsame.session.trans hsession, hsame.key.trans hkey⟩, ?_, ?_⟩
  · rw [hlines, hins.done, linesOf_insertOrder, linesOf_next (hmade.inv.2 h₀), if_pos rfl]
    rfl
  · refine hlater.sessions _ _ ?_
    rw [hins.done]
    exact hins.ofSession

/-- **A submission answered with success** names an order of its session under its key. -/
theorem answered_names {acts : List (phoneServer hmac).Action}
    {t : (phoneServer hmac).Thread} (ht : t ∈ (phoneRun hmac w₀ acts).threads)
    {req : OrderRequest} (hreq : t.req = .order req) {raw : RawOrder} {key : Text}
    (hraw : req.body = some raw) (hkey : raw.idempotencyKey = some key) {id : Id} {number : ℕ}
    {again : Bool} (hanswer : t.outcome = some (.ok (.ordered (.ok id number again)))) :
    ∃ sessionId, (phoneRun hmac w₀ acts).world.sessionOf req.cookie = some sessionId
      ∧ (phoneRun hmac w₀ acts).world.Names sessionId key id number := by
  have hpool := placing_run hmac w₀ acts
  have hpost := hpool.post ht hanswer
  rw [hreq] at hpost
  obtain ⟨sessionId, ⟨e, he, hfirst⟩, e', he', hnames⟩ :=
    hpost _ rfl raw key hraw hkey id number again rfl
  refine ⟨sessionId, (placing_rely (hpool.made t ht e he).led).sessions _ _ hfirst, ?_⟩
  obtain ⟨o, ho, hunder, hnumber⟩ := hnames
  obtain ⟨⟨o', ho', hsame⟩, _⟩ := (placing_rely (hpool.made t ht e' he').led).orders id o ho
  exact ⟨o', ho', ⟨hsame.session.trans hunder.session, hsame.key.trans hunder.key⟩,
    hsame.number.trans hnumber⟩

end

end Masadan
