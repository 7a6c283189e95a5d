import Masadan.HouseLaws
import Masadan.Tells

/-!
# No order changes unannounced

The board in the kitchen and the phones at the tables do not look at the database all the
time. They are told over the bus that an order has changed, and fetch it again. So whoever
changes what is shown of an order (`World.card`) has to publish that order, on every way
out of its handler.

Four calls change cards (`card_exec`), and the rest of the application changes none
(`card_move`). The handlers that make them publish the order by the time they are through,
whatever is answered to the calls between (`houseTelling`). `no_silent_change` is the law:
once nothing is in flight, every change of a card since the process started has been
published after it, under the order's own venue, session and table.
-/

namespace Masadan

/-! ## Cards -/

/-- What the board reads of an order's row: not its visit, and not whether it is paid. -/
def Order.shown (o : Order) : Order :=
  { o with visitId := none, paymentStatus := .unpaid, paymentProvider := none }

/-- The corrections of an order, by time. -/
def World.cardEdits (w : World) (id : Id) : List DeskEdit :=
  (orderBy (fun e => e.2.createdAt) (w.orderEdits.filter (fun _ e => e.orderId == id))).map
    (fun e => ⟨e.2.staffName, e.2.afterPrint, e.2.changes⟩)

/-- **What is shown of an order**, besides its table's name and its ticket's fate. -/
structure Card where
  order : Order
  items : List DeskItem
  edits : List DeskEdit
  deriving DecidableEq

def World.card (w : World) (id : Id) : Option Card :=
  (w.orders.get? id).map (fun o => ⟨o.shown, (w.liveItems id).map OrderItem.deskItem, w.cardEdits id⟩)

/-- **The cards a call that is answered so has changed**, at most. -/
def Call.Alters : (op : Call) → Except DbError (Call.Res op) → Id → Prop
  | .orderUpdate id _, .ok _, k => k = id
  | .orderUpdateMany cond _, .ok count, k => count ≠ 0 ∧ ∃ o, cond k o = true
  | .orderCreate _ _, .ok order, k => k = order.1
  | .orderEditTransaction orderId _ _ _ _, .ok committed, k => committed = true ∧ k = orderId
  | _, _, _ => False

section

variable {w w' : World} {k : Id}

/-- A change of orders that is not shown. -/
theorem card_update {p : Id → Order → Bool} {f : Order → Order}
    (ho : w'.orders = w.orders.update p f) (hi : w'.orderItems = w.orderItems)
    (he : w'.orderEdits = w.orderEdits)
    (hf : ∀ o, w.orders.get? k = some o → p k o = true → (f o).shown = o.shown) :
    w'.card k = w.card k := by
  unfold World.card World.liveItems World.cardEdits
  rw [ho, hi, he, Rows.get?_update]
  cases hget : w.orders.get? k with
  | none => rfl
  | some o =>
    by_cases hp : p k o = true
    · simp only [Option.map_some, if_pos hp, hf o hget hp]
    · simp only [Option.map_some, if_neg hp]

/-- The lines of an edit are its order's; the others' stay as they are. -/
theorem applyEdits_other {now : Time} {orderId : Id} {edits : List LineEdit}
    {items items' : Rows OrderItem} (h : World.applyEdits now edits items = some items')
    (hown : ∀ e ∈ edits, ∀ i, items.get? e.id = some i → i.orderId = orderId) (hk : k ≠ orderId) :
    items'.filter (fun _ i => i.orderId == k && i.voidedAt.isNone)
      = items.filter (fun _ i => i.orderId == k && i.voidedAt.isNone) := by
  induction edits generalizing items with
  | nil =>
    cases h
    rfl
  | cons e es ih =>
    unfold World.applyEdits at h
    split at h
    · cases h
    · have hline : ∀ i, (e.apply now i).orderId = i.orderId := by
        intro i
        unfold LineEdit.apply
        split
        · rfl
        · rfl
      rw [ih h (fun e' he' i hi => ?_), Rows.filter_update_other (fun id i hi hp => ?_)]
      · -- a line that is hit is the order's, before and after
        obtain rfl : id = e.id :=
          beq_iff_eq.mp (Bool.and_eq_true_iff.mp (Bool.and_eq_true_iff.mp hp).1).1
        have hof := hown e List.mem_cons_self i hi
        have hne : (orderId == k) = false := beq_eq_false_iff_ne.mpr (Ne.symm hk)
        rw [hline, hof, hne]
        exact ⟨rfl, rfl⟩
      · rw [Rows.get?_update] at hi
        obtain ⟨u, hu, rfl⟩ := Option.map_eq_some_iff.mp hi
        have hof := hown e' (List.mem_cons_of_mem _ he') u hu
        split
        · exact (hline u).trans hof
        · exact hof

/-- **A call changes the cards it alters**, and no others. -/
theorem card_exec {c : Choice} {op : Call} (hown : op.OwnLines w)
    (hk : (World.exec c op w).1.card k ≠ w.card k) : op.Alters (World.exec c op w).2 k := by
  have hsame : ∀ {P : Prop}, (World.exec c op w).1.card k = w.card k → P := fun h => absurd h hk
  cases op with
  | orderUpdate id data =>
    show (Call.orderUpdate id data).Alters (w.orderUpdate id data).2 k
    have hk' : (w.orderUpdate id data).1.card k ≠ w.card k := hk
    unfold World.orderUpdate at hk' ⊢
    split at hk'
    · exact absurd rfl hk'
    · refine by_contra (fun hne => hk' (card_update (p := fun j _ => j == id) (f := data)
        rfl rfl rfl (fun o _ hp => ?_)))
      exact absurd (beq_iff_eq.mp hp) hne
  | orderUpdateMany cond data =>
    refine by_contra (fun hnot => hk (card_update (p := cond) (f := data) rfl rfl rfl
      (fun o ho hp => ?_)))
    exact absurd ⟨Nat.ne_of_gt (Rows.count_pos ho hp), o, hp⟩ hnot
  | orderCreate data items =>
    cases hx : w.orderCreate c data items with
    | mk w' x =>
      have hk' : (w.orderCreate c data items).1.card k ≠ w.card k := hk
      show (Call.orderCreate data items).Alters (w.orderCreate c data items).2 k
      rw [hx] at hk' ⊢
      rcases orderCreate_cases hx with ⟨rfl, _⟩ | ⟨rfl, rfl, _⟩
      · exact absurd rfl hk'
      · refine by_contra (fun hne => hk' ?_)
        have hne : k ≠ w.orders.next := hne
        have hget : (w.insertOrder data items).orders.get? k = w.orders.get? k :=
          (Rows.get?_create _ _ _).trans (if_neg hne)
        have hlines : (w.insertOrder data items).liveItems k = w.liveItems k := by
          refine Rows.filter_createAll_other (fun _ i hi => ?_)
          obtain ⟨line, _, rfl⟩ := List.mem_map.mp hi
          rw [Bool.and_eq_false_iff]
          exact .inl (beq_eq_false_iff_ne.mpr (Ne.symm hne))
        unfold World.card
        rw [hget, hlines]
        rfl
  | orderEditTransaction orderId statuses edits totalKurus entry =>
    show (Call.orderEditTransaction orderId statuses edits totalKurus entry).Alters
      (.ok (w.orderEditTransaction orderId statuses edits totalKurus entry).2) k
    have hk' : (w.orderEditTransaction orderId statuses edits totalKurus entry).1.card k ≠ w.card k :=
      hk
    unfold World.orderEditTransaction at hk' ⊢
    split at hk'
    · exact absurd rfl hk'
    · next items hitems =>
      split at hk'
      · exact absurd rfl hk'
      · next hcount =>
        rw [if_neg hcount]
        refine ⟨rfl, by_contra (fun hne => hk' ?_)⟩
        have hlines := applyEdits_other hitems hown hne
        have hget : (w.orders.update (World.editable orderId statuses)
            (fun o => { o with totalKurus := totalKurus })).get? k = w.orders.get? k := by
          rw [Rows.get?_update]
          cases w.orders.get? k with
          | none => rfl
          | some o =>
            have hsel : ¬ World.editable orderId statuses k o = true := by
              simp [World.editable, hne]
            rw [Option.map_some, if_neg hsel]
        have hedits : ∀ entry : OrderEdit, entry.orderId = orderId →
            (w.orderEdits.create entry).filter (fun _ e => e.orderId == k)
              = w.orderEdits.filter (fun _ e => e.orderId == k) := fun entry hentry =>
          Rows.filter_create_other (by rw [hentry]; exact beq_eq_false_iff_ne.mpr (Ne.symm hne))
        unfold World.card World.liveItems World.cardEdits
        dsimp only
        rw [hget, hlines, hedits _ rfl]
  | tableVisitDelete id =>
    refine hsame ?_
    show (w.tableVisitDelete id).1.card k = _
    unfold World.tableVisitDelete
    split
    · rfl
    · exact card_update (p := fun _ o => o.visitId == some id)
        (f := fun o => { o with visitId := none }) rfl rfl rfl (fun _ _ _ => rfl)
  | settleTransaction visitId data orderIds provider sessionIds =>
    refine hsame ?_
    show (w.settleTransaction visitId data orderIds provider sessionIds).1.card k = _
    unfold World.settleTransaction
    dsimp only
    split
    · rfl
    · exact card_update (p := fun id _ => orderIds.contains id) (f := markPaid provider)
        rfl rfl rfl (fun _ _ _ => rfl)
  | _ =>
    -- the others leave orders, lines and corrections as they are
    refine hsame ?_
    simp only [World.exec, World.tableVisitUpdate, World.tableSessionCreate,
      World.tableSessionUpdate, World.posDeliveryUpdate, World.tableCreate, World.tableUpdate,
      World.regenerateTransaction, World.rotateTransaction, World.staffUserCreate,
      World.staffUserUpdate]
    repeat' split
    all_goals rfl

/-- **The rest of the application changes no card.** -/
theorem card_move (m : HouseMove) (w : World) (k : Id) : (m.apply w).card k = w.card k := by
  cases m with
  | dropTable id =>
    show (w.dropTable id).card k = _
    unfold World.dropTable
    split
    · rfl
    · exact card_update (p := fun _ _ => true)
        (f := fun o => { o with visitId := w.leaves id o.visitId }) rfl rfl rfl (fun _ _ _ => rfl)
  | menu items =>
    show (w.withMenu items).card k = _
    have hlines : ((w.withMenu items).liveItems k).map OrderItem.deskItem
        = (w.liveItems k).map OrderItem.deskItem :=
      Rows.map_filter_update (p := fun _ _ => true)
        (f := fun i : OrderItem =>
          { i with itemId := i.itemId.filter (fun d => (items.get? d).isSome) })
        (fun _ _ _ _ => ⟨rfl, rfl⟩)
    unfold World.card
    rw [hlines]
    rfl
  | issueKey venueId keyHash =>
    show (w.issueKey venueId keyHash).card k = _
    unfold World.issueKey
    split
    · rfl
    · split
      · rfl
      · rfl
  | _ => rfl

end

/-! ## What is announced -/

/-- The order an event is about. -/
def BusEvent.orderOf : BusEvent → Option Id
  | .order_created _ orderId _ _ | .order_updated _ orderId _ _ => some orderId
  | _ => none

/-- **Who alters cards, and who announces them.** The bus and the process's own memory do not
fail. -/
def cardTelling : Telling api Id where
  Can op x := (∃ e, x = .error e) → op.onDatabase = true
  Changes := Call.Alters
  Says op k := ∃ e, op = .publish e ∧ e.orderOf = some k

/-- A part that, owing nothing, comes to owe nothing. -/
abbrev TellsOrders {α : Type} (p : Api α) : Prop :=
  ∀ owed : Id → Prop, (∀ k, ¬ owed k) → cardTelling.Tells Telling.Settled owed p

/-- **A call that alters no card**, whatever it is answered. -/
def Call.Mute : Call → Prop
  | .orderUpdate _ _ | .orderUpdateMany _ _ | .orderCreate _ _ | .orderEditTransaction .. => False
  | _ => True

theorem Call.Mute.alters {op : Call} (h : op.Mute) (x : Except DbError (Call.Res op)) (k : Id) :
    ¬ op.Alters x k := by
  cases op <;> first
    | exact h.elim
    | exact fun hx => hx

/-- Such calls, from a set of calls a part is known to keep to. -/
theorem mute_of {α : Type} {A : Call → Prop} {B : α → Prop} {p : Api α} (hp : p.Calls A B)
    (hA : ∀ op, A op → op.Mute) : p.Calls Call.Mute B :=
  Prog.calls_mono hp hA (fun _ h => h)

theorem Call.Harmless.mute {op : Call} (h : op.Harmless) : op.Mute := by
  cases op <;> first
    | exact trivial
    | exact h

theorem Call.Aside.mute {op : Call} (h : op.Aside) : op.Mute := by
  cases op <;> first
    | exact trivial
    | exact h

theorem Call.CodeWork.mute {op : Call} (h : op.CodeWork) : op.Mute := by
  cases op <;> first
    | exact trivial
    | exact h

theorem Call.OutboxWork.mute {op : Call} (h : op.OutboxWork) : op.Mute := by
  cases op <;> first
    | exact trivial
    | exact h

theorem Call.VisitData.mute {U S : (Time → TableVisit → TableVisit) → Prop} {op : Call}
    (h : op.VisitData U S) : op.Mute := by
  cases op <;> first
    | exact trivial
    | exact h

section

variable {α β : Type} {owed : Id → Prop}

/-- **Mute parts** have nothing to announce. -/
theorem announces_mute {B : α → Prop} {p : Api α} (hp : p.Calls Call.Mute B) : TellsOrders p :=
  fun _ howed => Telling.settled_of_calls hp (fun _ x k h => h.alters x k) howed

theorem announces_mute_bind {B : α → Prop} {p : Api α} {f : α → Api β} (hp : p.Calls Call.Mute B)
    (hf : ∀ a, B a → TellsOrders (f a)) : TellsOrders (p.bind f) :=
  fun _ howed => Telling.tells_calls_bind hp (fun _ x k h => h.alters x k) howed
    (fun owed' a hnone hB => hf a hB owed' hnone)

/-- A part that announces what it does, and then the rest. -/
theorem announces_bind {p : Api α} {f : α → Api β} (hp : TellsOrders p) (hf : ∀ a, TellsOrders (f a)) :
    TellsOrders (p.bind f) := fun owed howed =>
  Telling.tells_bind (Telling.tells_mono (hp owed howed) (fun owed' x hx => by
    cases x with
    | ok a => exact hf a owed' hx
    | error e => exact hx))

theorem announces_map {p : Api α} {f : α → β} (hp : TellsOrders p) : TellsOrders (f <$> p) :=
  announces_bind hp (fun _ _ howed => howed)

/-- A log entry owes nothing and does not fail. -/
theorem tells_log {Q : (Id → Prop) → Except DbError β → Prop} {caller : Caller}
    {outcome : AttemptOutcome} {extra : AttemptInfo} {f : Unit → Api β}
    (h : ∀ owed', (∀ k, owed' k → owed k) → cardTelling.Tells Q owed' (f ())) :
    cardTelling.Tells Q owed ((logAttempt caller outcome extra).bind f) := by
  intro x _
  have hless : ∀ k, cardTelling.after (.orderAttemptCreate ⟨outcome, caller.ip, caller.userAgent,
      extra.detail, extra.venueId, extra.tableId, extra.sessionId, extra.orderId⟩) x owed k →
      owed k := fun k hk => hk.elim False.elim And.left
  cases x with
  | ok a => exact h _ hless
  | error e => exact h _ hless

/-- **The announcement**: of all that is owed, and the bus does not fail. -/
theorem tells_publish {event : BusEvent} {a : α} (howed : ∀ k, owed k → event.orderOf = some k) :
    cardTelling.Tells Telling.Settled owed ((perform (.publish event)).bind (fun _ => .ret a)) := by
  intro x hx
  cases x with
  | ok u =>
    show ∀ k, ¬ cardTelling.after _ _ owed k
    rintro k (hk | ⟨hk, hsilent⟩)
    · exact hk
    · exact hsilent ⟨event, rfl, howed k hk⟩
  | error e => exact absurd (hx ⟨e, rfl⟩) Bool.false_ne_true

/-- **A write that may alter one card**, or fails, and then the rest. -/
theorem tells_write {op : Call} {f : Call.Res op → Api β} (howed : ∀ k, ¬ owed k)
    (herr : ∀ e k, ¬ op.Alters (.error e) k)
    (hf : ∀ a owed', (∀ k, owed' k → op.Alters (.ok a) k) →
      cardTelling.Tells Telling.Settled owed' (f a)) :
    cardTelling.Tells Telling.Settled owed ((perform op).bind f) := by
  intro x _
  cases x with
  | ok a => exact hf a _ (fun k hk => hk.elim id (fun h => absurd h.1 (howed k)))
  | error e => exact fun k hk => hk.elim (herr e k) (fun h => absurd h.1 (howed k))

end

/-! ## Orders -/

/-- **However often it is tried**, an insertion owes the order it answers. -/
theorem createAttempts_owes (draft : OrderDraft) (n : ℕ) {owed : Id → Prop} (howed : ∀ k, ¬ owed k) :
    cardTelling.Tells (fun owed x => ∀ k, owed k → ∃ number, x = .ok (some (k, number))) owed
      (createAttempts draft n) := by
  induction n generalizing owed with
  | zero => exact fun k hk => absurd hk (howed k)
  | succ n ih =>
    have hread : ∀ {β : Type} (q : World → β) (x : Except DbError β) (owed : Id → Prop),
        (∀ k, ¬ owed k) → ∀ k, ¬ cardTelling.after (.query q) x owed k :=
      fun _ _ _ h k hk => hk.elim False.elim (fun h' => h k h'.1)
    have honce : cardTelling.Tells (fun owed x => ∀ k, owed k → ∃ number, x = .ok (k, number)) owed
        (createOnce draft) := by
      intro last _
      cases last with
      | error e => exact fun k hk => absurd hk (hread _ _ _ howed k)
      | ok last =>
        intro x _
        cases x with
        | error e =>
          exact fun k hk => hk.elim False.elim (fun h => absurd h.1 (hread _ _ _ howed k))
        | ok order =>
          rintro k (rfl | ⟨hk, _⟩)
          · exact ⟨order.2, rfl⟩
          · exact absurd hk (hread _ _ _ howed k)
    unfold createAttempts
    refine Telling.tells_bind (Telling.tells_attempt (Telling.tells_mono honce
      (fun owed' result hresult => ?_)))
    cases result with
    | ok order =>
      intro k hk
      obtain ⟨number, heq⟩ := hresult k hk
      cases heq
      exact ⟨number, rfl⟩
    | error err =>
      have hnone : ∀ k, ¬ owed' k := fun k hk => by
        obtain ⟨_, heq⟩ := hresult k hk
        cases heq
      dsimp only
      split
      · -- what is read back somebody else owes
        intro found _
        cases found with
        | error e => exact fun k hk => absurd hk (hread _ _ _ hnone k)
        | ok found =>
          cases found with
          | none => exact fun k hk => absurd hk (hread _ _ _ hnone k)
          | some order => exact fun k hk => absurd hk (hread _ _ _ hnone k)
      · split
        · split
          · exact fun k hk => absurd hk (hnone k)
          · exact ih hnone
        · exact fun k hk => absurd hk (hnone k)

theorem logged_announces {α : Type} {a : α} (caller : Caller) (outcome : AttemptOutcome)
    (extra : AttemptInfo) : TellsOrders ((logAttempt caller outcome extra).bind (fun _ => .ret a)) :=
  announces_mute_bind (mute_of (logAttempt_aside caller outcome extra) (fun _ h => h.mute))
    (fun _ _ _ howed => howed)

/-- **An order that is inserted is announced.** -/
theorem submit_announces (caller : Caller) (session : ActiveSession) (body : OrderBody)
    (totalKurus : ℤ) (items : List NewOrderItem) :
    TellsOrders (submit caller session body totalKurus items) := by
  intro owed howed
  unfold submit
  refine Telling.tells_bind (Telling.tells_mono (createAttempts_owes _ _ howed)
    (fun owed' x hx => ?_))
  cases x with
  | error e =>
    intro k hk
    obtain ⟨_, heq⟩ := hx k hk
    cases heq
  | ok order =>
    cases order with
    | none =>
      refine logged_announces _ _ _ owed' (fun k hk => ?_)
      obtain ⟨_, heq⟩ := hx k hk
      cases heq
    | some order =>
      refine tells_log (fun owed'' hless => tells_publish (fun k hk => ?_))
      obtain ⟨_, heq⟩ := hx k (hless k hk)
      cases heq
      rfl

theorem place_announces (caller : Caller) (session : ActiveSession) (body : OrderBody) :
    TellsOrders (place caller session body) := by
  unfold place
  have hread : ∀ {β : Type} (q : World → β), (query q).Calls Call.Mute (fun _ => True) :=
    fun q => Prog.calls_perform (S := api) trivial
  refine announces_mute_bind (hread _) (fun recent _ => announces_mute_bind (hread _)
    (fun inFlight _ => ?_))
  split
  · exact logged_announces _ _ _
  · refine announces_mute_bind (hread _) (fun byId _ => ?_)
    split
    · next refusal _ =>
      cases refusal with
      | item_unavailable itemId => exact logged_announces _ _ _
      | unknown_option => exact logged_announces _ _ _
      | invalid_modifiers groupId => exact fun _ howed => howed
    · exact submit_announces _ _ _ _ _

theorem postOrder_announces (req : OrderRequest) : TellsOrders (postOrder req) := by
  unfold postOrder
  refine announces_mute_bind (mute_of (getActiveSession_calls req.cookie none)
    (fun _ h => h.mute)) (fun session _ => ?_)
  cases session with
  | none =>
    dsimp only
    split
    · exact logged_announces _ _ _
    · exact fun _ howed => howed
  | some session =>
    show TellsOrders (answerOrder req session)
    unfold answerOrder
    split
    · exact logged_announces _ _ _
    · next body _ =>
      have hreplay : (replayed session.id body.idempotencyKey).Calls Call.Mute (fun _ => True) := by
        unfold replayed
        cases body.idempotencyKey with
        | none => exact trivial
        | some key => exact Prog.calls_perform (S := api) trivial
      refine announces_mute_bind hreplay (fun existing _ => ?_)
      cases existing with
      | none => exact place_announces _ _ _
      | some order => exact fun _ howed => howed

/-- **An order that is withdrawn is announced.** -/
theorem cancelOrder_announces (cookie : Option ℕ) (caller : Caller) (id : Id) :
    TellsOrders (cancelOrder cookie caller id) := by
  unfold cancelOrder
  refine announces_mute_bind (mute_of (getActiveSession_calls cookie none) (fun _ h => h.mute))
    (fun session _ => ?_)
  cases session with
  | none => exact fun _ howed => howed
  | some session =>
    refine announces_mute_bind (B := fun _ => True) (Prog.calls_perform (S := api) trivial)
      (fun found _ => ?_)
    cases found with
    | none => exact fun _ howed => howed
    | some order =>
      dsimp only
      split
      · exact fun _ howed => howed
      · refine fun owed howed => tells_write howed (fun _ _ h => h) (fun count owed' hless => ?_)
        show cardTelling.Tells _ _ (if _ then _ else _)
        split
        · next hcount => exact fun k hk => absurd hcount (hless k hk).1
        · refine tells_log (fun owed'' hless' => tells_publish (fun k hk => ?_))
          obtain ⟨_, o, ho⟩ := hless k (hless' k hk)
          exact congrArg some (beq_iff_eq.mp (Bool.and_eq_true_iff.mp ho).1).symm

/-- **A move of an order is announced**, after the kitchen has been given its ticket. -/
theorem patchOrder_announces (staff : Option StaffClaims) (id : Id) (body : PatchBody) :
    TellsOrders (patchOrder staff id body) := by
  unfold patchOrder
  cases staff with
  | none => exact fun _ howed => howed
  | some staff =>
    refine announces_mute_bind (B := fun _ => True) (Prog.calls_perform (S := api) trivial)
      (fun found _ => ?_)
    cases found with
    | none => exact fun _ howed => howed
    | some order =>
      dsimp only
      split
      · exact fun _ howed => howed
      · split
        · exact fun _ howed => howed
        · refine fun owed howed => tells_write howed (fun _ _ h => h) (fun updated owed' hless => ?_)
          show cardTelling.Tells _ _ (if _ then _ else _)
          split
          · intro x hx
            cases x with
            | error e => exact absurd (hx ⟨e, rfl⟩) Bool.false_ne_true
            | ok _ =>
              refine tells_publish (fun k hk => congrArg some ?_)
              exact hk.elim False.elim (fun h => (hless k h.1).symm)
          · exact tells_publish (fun k hk => congrArg some (hless k hk).symm)

/-- **A correction is announced**, before its amendment goes to the kitchen. -/
theorem patchItems_announces (staff : Option StaffClaims) (id : Id)
    (lines : Option (List (Id × ℤ))) : TellsOrders (patchItems staff id lines) := by
  unfold patchItems
  cases staff with
  | none => exact fun _ howed => howed
  | some staff =>
    dsimp only
    split
    · exact fun _ howed => howed
    · next input _ =>
      refine announces_bind ?_ (fun result => ?_)
      · unfold editOrder
        refine announces_mute_bind (B := fun _ => True) (Prog.calls_perform (S := api) trivial)
          (fun found _ => ?_)
        cases found with
        | none => exact fun _ howed => howed
        | some o =>
          dsimp only
          split
          · exact fun _ howed => howed
          · refine fun owed howed => tells_write howed (fun _ _ h => h)
              (fun committed owed' hless => ?_)
            cases committed with
            | false => exact fun k hk => absurd (hless k hk).1 Bool.false_ne_true
            | true => exact tells_publish (fun k hk => congrArg some (hless k hk).2.symm)
      · cases result with
        | error e => exact fun _ howed => howed
        | ok edit =>
          dsimp only
          split
          · exact announces_mute_bind (B := fun _ => True) (Prog.calls_perform (S := api) trivial)
              (fun _ _ _ howed => howed)
          · exact fun _ howed => howed

/-! ## The rest of the house -/

theorem query_mute {β : Type} (q : World → β) : (query q).Calls Call.Mute (fun _ => True) :=
  Prog.calls_perform (S := api) trivial

theorem session_mute (cookie : Option ℕ) :
    (getActiveSession cookie none).Calls Call.Mute (fun _ => True) :=
  mute_of (getActiveSession_calls cookie none) (fun _ h => h.mute)

theorem getBill_mute (cookie : Option ℕ) : (getBill cookie).Calls Call.Mute (fun _ => True) := by
  refine Prog.calls_bind (session_mute cookie) (fun session _ => ?_)
  cases session with
  | none => exact trivial
  | some session =>
    dsimp only
    split
    · exact trivial
    · refine Prog.calls_bind (query_mute _) (fun bill _ => ?_)
      cases bill with
      | none => exact trivial
      | some bill => exact trivial

theorem getCustomerOrders_mute (cookie : Option ℕ) :
    (getCustomerOrders cookie).Calls Call.Mute (fun _ => True) := by
  refine Prog.calls_bind (session_mute cookie) (fun session _ => ?_)
  cases session with
  | none => exact trivial
  | some session => exact Prog.calls_bind (query_mute _) (fun _ _ => trivial)

theorem postBill_mute (cookie : Option ℕ) (caller : Caller) :
    (postBill cookie caller).Calls Call.Mute (fun _ => True) := by
  refine Prog.calls_bind (session_mute cookie) (fun session _ => ?_)
  cases session with
  | none => exact trivial
  | some session =>
    dsimp only
    split
    · exact trivial
    · next visitId _ =>
      have hasked : (requestBill visitId session.venueId).Calls Call.Mute (fun _ => True) :=
        requestBill_asks (fun _ => trivial) trivial (fun _ => trivial)
      refine Prog.calls_bind hasked (fun ok _ => ?_)
      show (if _ then _ else _ : Api BillAnswer).Calls _ _
      split
      · exact trivial
      · exact Prog.calls_bind (mute_of (logAttempt_aside caller _ _) (fun _ h => h.mute))
          (fun _ _ => trivial)

theorem dismissBill_mute (staff : Option StaffClaims) (id : Id) :
    (dismissBill staff id).Calls Call.Mute (fun _ => True) := by
  unfold dismissBill
  cases staff with
  | none => exact trivial
  | some staff =>
    refine Prog.calls_bind (mute_of (clearBillRequest_data (U := fun _ => True) (S := fun _ => True)
      id staff.venueId trivial) (fun _ h => h.mute)) (fun ok _ => ?_)
    show (if _ then _ else _ : Api DismissAnswer).Calls _ _
    split
    · exact trivial
    · exact trivial

theorem settleBill_mute (staff : Option StaffClaims) (id : Id) (body : Option RawSettle) :
    (settleBill staff id body).Calls Call.Mute (fun _ => True) := by
  unfold settleBill
  cases staff with
  | none => exact trivial
  | some staff =>
    dsimp only
    split
    · exact trivial
    · refine Prog.calls_bind (mute_of (settleVisit_data (U := fun _ => True) (S := fun _ => True)
        id staff.venueId (fun _ => trivial)) (fun _ h => h.mute)) (fun result _ => ?_)
      cases result with
      | error e => exact trivial
      | ok totalKurus => exact trivial

theorem deleteSession_mute (staff : Option StaffClaims) (id : Id) :
    (deleteSession staff id).Calls Call.Mute (fun _ => True) := by
  unfold deleteSession
  cases staff with
  | none => exact trivial
  | some staff =>
    refine Prog.calls_bind (query_mute _) (fun session _ => ?_)
    cases session with
    | none => exact trivial
    | some session =>
      exact Prog.calls_bind (Prog.calls_perform (S := api) trivial) (fun _ _ =>
        Prog.calls_bind (Prog.calls_perform (S := api) trivial) (fun _ _ => trivial))

theorem postQrSecret_mute (staff : Option StaffClaims) (confirmed : Bool) (secret : Text) :
    (postQrSecret staff confirmed secret).Calls Call.Mute (fun _ => True) := by
  unfold postQrSecret
  cases staff with
  | none => exact trivial
  | some staff =>
    dsimp only
    split
    · exact trivial
    · exact Prog.calls_bind (mute_of (rotateQrSecret_calls staff.venueId secret) (fun _ h => h.mute))
        (fun _ _ => trivial)

theorem postStaff_mute (bcrypt : Bcrypt) (staff : Option StaffClaims) (body : Option StaffCreate)
    (salt : ℕ) : (postStaff bcrypt staff body salt).Calls Call.Mute (fun _ => True) := by
  unfold postStaff
  cases staff with
  | none => exact trivial
  | some staff =>
    dsimp only
    split
    · exact trivial
    · refine Prog.calls_bind (B := fun _ => True) (Prog.calls_bind (Prog.calls_attempt
        (Prog.calls_perform (S := api) trivial)) (fun user _ => ?_)) (fun result _ => ?_)
      · split
        · exact trivial
        · exact trivial
        · exact trivial
      · cases result with
        | error e => exact trivial
        | ok id => exact trivial

theorem patchStaff_mute (bcrypt : Bcrypt) (staff : Option StaffClaims) (id : Id)
    (body : Option StaffUpdate) (salt : ℕ) :
    (patchStaff bcrypt staff id body salt).Calls Call.Mute (fun _ => True) := by
  unfold patchStaff
  cases staff with
  | none => exact trivial
  | some staff =>
    dsimp only
    split
    · exact trivial
    · next input =>
      refine Prog.calls_bind (B := fun _ => True) (Prog.calls_bind (query_mute _)
        (fun found _ => ?_)) (fun result _ => ?_)
      · split
        · exact trivial
        · split
          · exact trivial
          · split
            · exact trivial
            · refine Prog.calls_bind (B := fun _ => True) ?_ (fun last _ => ?_)
              · split
                · exact Prog.calls_bind (query_mute _) (fun _ _ => trivial)
                · exact trivial
              · show (if _ then _ else _ : Api (Except StaffError Unit)).Calls _ _
                split
                · exact trivial
                · split
                  · exact trivial
                  · exact Prog.calls_bind (Prog.calls_perform (S := api) trivial) (fun _ _ =>
                      Prog.calls_bind (Prog.calls_perform (S := api) trivial) (fun _ _ => trivial))
      · cases result with
        | error e => exact trivial
        | ok done => exact trivial

theorem postPassword_mute (bcrypt : Bcrypt) (token : Option TokenClaims) (ip : Text)
    (body : Option PasswordChange) (salt : ℕ) :
    (postPassword bcrypt token ip body salt).Calls Call.Mute (fun _ => True) := by
  unfold postPassword
  refine Prog.calls_bind (mute_of (getStaff_aside token) (fun _ h => h.mute)) (fun found _ => ?_)
  cases found with
  | none => exact trivial
  | some staff =>
    refine Prog.calls_bind (B := fun _ => True) (Prog.calls_perform (S := api) trivial)
      (fun limit _ => ?_)
    show (if _ then _ else _ : Api PasswordAnswer).Calls _ _
    split
    · exact trivial
    · split
      · exact trivial
      · refine Prog.calls_bind (B := fun _ => True) (Prog.calls_bind (query_mute _)
          (fun user _ => ?_)) (fun result _ => ?_)
        · split
          · exact trivial
          · split
            · exact trivial
            · exact Prog.calls_bind (Prog.calls_perform (S := api) trivial) (fun _ _ =>
                Prog.calls_bind (Prog.calls_perform (S := api) trivial) (fun _ _ => trivial))
        · cases result with
          | error e => exact trivial
          | ok done =>
            refine Prog.calls_bind (query_mute _) (fun fresh _ => ?_)
            cases fresh with
            | none => exact trivial
            | some user => exact trivial

theorem retryDelivery_mute (staff : Option StaffClaims) (id : Id) :
    (retryDelivery staff id).Calls Call.Mute (fun _ => True) := by
  unfold retryDelivery
  cases staff with
  | none => exact trivial
  | some staff =>
    refine Prog.calls_bind (query_mute _) (fun found _ => ?_)
    cases found with
    | none => exact trivial
    | some d => exact Prog.calls_bind (Prog.calls_perform (S := api) trivial) (fun _ _ => trivial)

theorem venueForBridgeKey_mute (key : Option Text) :
    (venueForBridgeKey key).Calls Call.Mute (fun _ => True) := by
  unfold venueForBridgeKey
  cases key with
  | none => exact trivial
  | some keyHash => exact query_mute _

theorem getPending_mute (key : Option Text) (claimId : ℕ) :
    (getPending key claimId).Calls Call.Mute (fun _ => True) := by
  unfold getPending
  refine Prog.calls_bind (venueForBridgeKey_mute key) (fun venueId _ => ?_)
  cases venueId with
  | none => exact trivial
  | some venueId =>
    refine Prog.calls_bind (query_mute _) (fun staleBefore _ => ?_)
    refine Prog.calls_bind (query_mute _) (fun candidates _ => ?_)
    split
    · exact trivial
    · refine Prog.calls_bind (query_mute _) (fun claimedAt _ => ?_)
      exact Prog.calls_bind (Prog.calls_perform (S := api) trivial) (fun _ _ =>
        Prog.calls_bind (query_mute _) (fun _ _ => trivial))

theorem postAck_mute (key : Option Text) (body : AckBody) :
    (postAck key body).Calls Call.Mute (fun _ => True) := by
  unfold postAck
  refine Prog.calls_bind (venueForBridgeKey_mute key) (fun venueId _ => ?_)
  cases venueId with
  | none => exact trivial
  | some venueId =>
    refine Prog.calls_bind (query_mute _) (fun found _ => ?_)
    cases found with
    | none => exact trivial
    | some row =>
      dsimp only
      split
      · exact trivial
      · exact Prog.calls_bind (Prog.calls_perform (S := api) trivial) (fun _ _ => trivial)

/-! ## The house -/

theorem staffRoute_announces (bcrypt : Bcrypt) (staff : Option StaffClaims) (route : StaffRoute) :
    TellsOrders (route.prog bcrypt staff) := by
  have haside : ∀ {α : Type} {p : Api α}, p.Calls Call.Aside (fun _ => True) → TellsOrders p :=
    fun hp => announces_mute (mute_of hp (fun _ h => h.mute))
  have hcode : ∀ {α : Type} {p : Api α}, p.Calls Call.CodeWork (fun _ => True) → TellsOrders p :=
    fun hp => announces_mute (mute_of hp (fun _ h => h.mute))
  cases route with
  | deskOrders all => exact announces_map (haside (getDeskOrders_aside staff all))
  | patchOrder id body => exact announces_map (patchOrder_announces staff id body)
  | patchItems id lines => exact announces_map (patchItems_announces staff id lines)
  | deskBills => exact announces_map (haside (getDeskBills_aside staff))
  | deskBill id => exact announces_map (haside (getDeskBill_aside staff id))
  | dismissBill id => exact announces_map (announces_mute (dismissBill_mute staff id))
  | settleBill id body => exact announces_map (announces_mute (settleBill_mute staff id body))
  | exportOrders days => exact announces_map (haside (getExport_aside staff days))
  | orderLog days limit cursor =>
    exact announces_map (haside (getOrders_aside staff days limit cursor))
  | stats offset => exact announces_map (haside (getStats_aside staff offset))
  | createTable name code => exact announces_map (hcode (createTable_calls staff name code))
  | patchTable id body => exact announces_map (hcode (patchTable_calls staff id body))
  | rotateSecret confirmed secret =>
    exact announces_map (announces_mute (postQrSecret_mute staff confirmed secret))
  | endSession id => exact announces_map (announces_mute (deleteSession_mute staff id))
  | retryDelivery id => exact announces_map (announces_mute (retryDelivery_mute staff id))
  | createStaff body salt =>
    exact announces_map (announces_mute (postStaff_mute bcrypt staff body salt))
  | updateStaff id body salt =>
    exact announces_map (announces_mute (patchStaff_mute bcrypt staff id body salt))

/-- **Every request announces** the cards it changes. -/
theorem houseTelling (hmac : Hmac) (bcrypt : Bcrypt) : cardTelling.Of (house hmac bcrypt) where
  can c op w := by
    rintro ⟨e, he⟩
    by_contra hmemory
    have hno : op.onDatabase = false := Bool.not_eq_true _ ▸ hmemory
    cases op <;> first
      | exact Bool.noConfusion (hno : true = false)
      | simp [houseExec, Call.onDatabase, World.dangling, World.exec] at he
  entry r := by
    have hentry : TellsOrders (r.prog hmac bcrypt) := by
      cases r with
      | scan req =>
        exact announces_map (announces_mute (mute_of (getScan_calls hmac req.caller req.code req.sig
          req.token) (fun _ h => h.codeWork.mute)))
      | order req => exact announces_map (postOrder_announces req)
      | orders cookie => exact announces_map (announces_mute (getCustomerOrders_mute cookie))
      | cancel cookie caller id => exact announces_map (cancelOrder_announces cookie caller id)
      | bill cookie => exact announces_map (announces_mute (getBill_mute cookie))
      | askBill cookie caller => exact announces_map (announces_mute (postBill_mute cookie caller))
      | staff token route =>
        exact announces_mute_bind (mute_of (requireStaff_aside route.role token) (fun _ h => h.mute))
          (fun staff _ => staffRoute_announces bcrypt _ route)
      | password token ip body salt =>
        exact announces_map (announces_mute (postPassword_mute bcrypt token ip body salt))
      | poll key claimId =>
        exact announces_map (announces_mute (getPending_mute key claimId))
      | ack key body => exact announces_map (announces_mute (postAck_mute key body))
      | enqueue job =>
        exact announces_map (announces_mute (mute_of (enqueuePosDelivery_calls job.orderId
          job.amendment) (fun _ h => h.mute)))
      | sweepDeliveries =>
        exact announces_map (announces_mute (mute_of sweepPosDeliveries_calls
          (fun _ h => h.outboxWork.mute)))
      | closeAbandoned =>
        exact announces_map (announces_mute (mute_of (closeAbandonedVisits_data
          (U := fun _ => True) (S := fun _ => True) (fun _ => trivial)) (fun _ h => h.mute)))
    exact hentry _ (fun _ h => h)

/-! ## The law -/

section

variable (hmac : Hmac) (bcrypt : Bcrypt) {w₀ : World}

/-- Only a call changes a card, and it is one that alters it. -/
theorem card_act {pre : List (house hmac bcrypt).Action} {a : (house hmac bcrypt).Action} {k : Id}
    (h₀ : Coherent w₀)
    (hchange : (houseRun hmac bcrypt w₀ (pre ++ [a])).world.card k
      ≠ (houseRun hmac bcrypt w₀ pre).world.card k) :
    ∃ i c t op f, a = .step i c ∧ (houseRun hmac bcrypt w₀ pre).threads[i]? = some t
      ∧ t.prog = .call op f
      ∧ op.Alters (houseExec c op (houseRun hmac bcrypt w₀ pre).world).2 k := by
  have hpool := (houseSound hmac bcrypt).run h₀ (house_meets hmac bcrypt w₀ pre)
  have hact : (houseRun hmac bcrypt w₀ (pre ++ [a])).world
      = ((houseRun hmac bcrypt w₀ pre).act a).world := by
    rw [houseRun, Sys.Pool.run_append]
    rfl
  rw [hact] at hchange
  rcases hpool.act_cases (Protocol.cond_true _ (fun _ _ _ _ _ => rfl) _ a) with
    hsame | ⟨m, rfl, hworld⟩ | ⟨i, c, t, op, f, rfl, ht, hprog, hworld, _, htakes⟩
  · rw [hsame] at hchange
    exact absurd rfl hchange
  · rw [hworld] at hchange
    exact absurd (card_move m _ k) hchange
  · refine ⟨i, c, t, op, f, rfl, ht, hprog, ?_⟩
    rw [hworld] at hchange
    have hchange : (houseExec c op (houseRun hmac bcrypt w₀ pre).world).1.card k
        ≠ (houseRun hmac bcrypt w₀ pre).world.card k := hchange
    rcases houseExec_cases c op (houseRun hmac bcrypt w₀ pre).world with ⟨hkept, _⟩ | ⟨_, hexec⟩
    · rw [hkept] at hchange
      exact absurd rfl hchange
    · rw [hexec] at hchange ⊢
      exact card_exec htakes.here.2 hchange

/-- What is appended to a list is behind whatever the list began with. -/
theorem mem_drop_of_prefix {α : Type} {l₀ l₁ l : List α} {e : α} (h : l₀ <+: l₁)
    (h' : l₁ ++ [e] <+: l) : e ∈ l.drop l₀.length := by
  obtain ⟨mid, rfl⟩ := h
  obtain ⟨rest, rfl⟩ := h'
  rw [List.append_assoc, List.append_assoc, List.drop_left]
  exact List.mem_append_right mid List.mem_cons_self

/-- **A change of a card is announced later on**, if its program comes to its end. -/
theorem change_announced {pre post : List (house hmac bcrypt).Action}
    {a : (house hmac bcrypt).Action} {k : Id} (h₀ : Coherent w₀)
    (hchange : (houseRun hmac bcrypt w₀ (pre ++ [a])).world.card k
      ≠ (houseRun hmac bcrypt w₀ pre).world.card k)
    (hup : ∀ b ∈ post, b ≠ .env .crash)
    (hquiet : (houseRun hmac bcrypt w₀ (pre ++ a :: post)).Quiet) :
    ∃ mid b rest e, post = mid ++ b :: rest ∧ e.orderOf = some k
      ∧ (houseRun hmac bcrypt w₀ (pre ++ a :: mid ++ [b])).world.published
        = (houseRun hmac bcrypt w₀ (pre ++ a :: mid)).world.published ++ [e] := by
  obtain ⟨i, c, t, op, f, rfl, ht, hprog, halters⟩ := card_act hmac bcrypt h₀ hchange
  have hkills : ∀ e, Sys.Action.env e ∈ post → (house hmac bcrypt).kills e = false := by
    intro e he
    cases e with
    | crash => exact absurd rfl (hup _ he)
    | _ => rfl
  obtain ⟨mid, b, rest, rfl, c', t', op', f', rfl, ht', hprog', e, rfl, he⟩ :=
    (houseTelling hmac bcrypt).told ht hprog halters hkills hquiet
  refine ⟨mid, _, rest, e, rfl, he, ?_⟩
  rw [houseRun, Sys.Pool.run_append]
  show ((houseRun hmac bcrypt w₀ (pre ++ .step i c :: mid)).step i c').world.published = _
  rw [Sys.Pool.step_of_call ht' hprog']
  simp [houseExec, Call.onDatabase, World.dangling, World.exec]

/-- What was published since some moment is among the news since then, and is so. -/
theorem published_since {pre mid rest : List (house hmac bcrypt).Action}
    {a b : (house hmac bcrypt).Action} {e : BusEvent} (h₀ : Coherent w₀)
    (hpublished : (houseRun hmac bcrypt w₀ (pre ++ a :: mid ++ [b])).world.published
      = (houseRun hmac bcrypt w₀ (pre ++ a :: mid)).world.published ++ [e]) :
    e ∈ (houseRun hmac bcrypt w₀ (pre ++ a :: (mid ++ b :: rest))).world.published.drop
        (houseRun hmac bcrypt w₀ (pre ++ [a])).world.published.length
      ∧ e.TrueOf (houseRun hmac bcrypt w₀ (pre ++ a :: (mid ++ b :: rest))).world := by
  have hbefore := (house_moved hmac bcrypt w₀ (pre ++ [a]) mid h₀).2.published
  rw [List.append_assoc, List.singleton_append] at hbefore
  obtain ⟨hcoherent, hkept⟩ := house_moved hmac bcrypt w₀ (pre ++ a :: mid ++ [b]) rest h₀
  have hafter := hkept.published
  have hacts : pre ++ a :: mid ++ [b] ++ rest = pre ++ a :: (mid ++ b :: rest) := by simp
  rw [hacts] at hafter hcoherent
  rw [hpublished] at hafter
  have hmem := mem_drop_of_prefix hbefore hafter
  exact ⟨hmem, hcoherent.news e (List.mem_of_mem_drop hmem)⟩

/-- **No order changes unannounced.** Once nothing is in flight, each change of a card since
the process started has been published after it, under the venue, the session and the table
of the order. -/
theorem no_silent_change (pre post : List (house hmac bcrypt).Action)
    (a : (house hmac bcrypt).Action) (k : Id) (h₀ : Coherent w₀)
    (hchange : (houseRun hmac bcrypt w₀ (pre ++ [a])).world.card k
      ≠ (houseRun hmac bcrypt w₀ pre).world.card k)
    (hup : ∀ b ∈ post, b ≠ .env .crash)
    (hquiet : (houseRun hmac bcrypt w₀ (pre ++ a :: post)).Quiet) :
    ∃ e ∈ (houseRun hmac bcrypt w₀ (pre ++ a :: post)).world.published.drop
        (houseRun hmac bcrypt w₀ (pre ++ [a])).world.published.length,
      e.orderOf = some k ∧ e.TrueOf (houseRun hmac bcrypt w₀ (pre ++ a :: post)).world := by
  obtain ⟨mid, b, rest, e, rfl, he, hpublished⟩ :=
    change_announced hmac bcrypt h₀ hchange hup hquiet
  obtain ⟨hmem, htrue⟩ := published_since hmac bcrypt h₀ hpublished
  exact ⟨e, hmem, he, htrue⟩

/-- The order that the phone inserts is announced, two steps later. -/
theorem no_silent_change_ordering :
    ∃ e ∈ (houseRun joined openHash openHouse (ordering ++ .step 1 plain
        :: List.replicate 2 (.step 1 plain))).world.published.drop
        (houseRun joined openHash openHouse (ordering ++ [.step 1 plain])).world.published.length,
      e.orderOf = some 0 ∧ e.TrueOf (houseRun joined openHash openHouse (ordering ++ .step 1 plain
        :: List.replicate 2 (.step 1 plain))).world :=
  no_silent_change joined openHash ordering (List.replicate 2 (.step 1 plain)) (.step 1 plain) 0
    openHouse_coherent (by decide +kernel) (by simp) (Sys.Pool.quiet_of_all (by decide +kernel))

end

end Masadan
