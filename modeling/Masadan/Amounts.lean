import Masadan.Handlers

/-!
# What an order comes to

Two operations set an order's total: placing it, where the pricing loop adds it
up, and editing it, where it is computed again from the lines as they were
read. This module says what each does to the lines and to the total, apart
from when it happens.
-/

namespace Masadan

/-! ## Placing -/

/-- What a new line is owed for. -/
def NewOrderItem.lineTotal (i : NewOrderItem) : ℤ := i.unitPriceKurus * i.qty

/-- **A well-priced insertion**: the total is what the lines come to, there is a
line, and no line is of nothing. -/
structure Priced (data : NewOrder) (items : List NewOrderItem) : Prop where
  total : data.totalKurus = (items.map NewOrderItem.lineTotal).sum
  nonempty : items ≠ []
  positive : ∀ i ∈ items, 1 ≤ i.qty

/-- **The insertion of a session's order**: well priced, and the session's. -/
structure Placed (session : ActiveSession) (key : Option Text) (data : NewOrder)
    (items : List NewOrderItem) : Prop extends Priced data items where
  ofVenue : data.venueId = session.venueId
  ofTable : data.tableId = session.tableId
  ofSession : data.sessionId = session.id
  ofVisit : data.visitId = session.visitId
  underKey : data.idempotencyKey = key

/-- A call of a placed order: an insertion that satisfies `A`, or a harmless
call. -/
def Call.PlaceWork (A : NewOrder → List NewOrderItem → Prop) : Call → Prop
  | .orderCreate data items => A data items
  | op => op.Harmless

theorem placeWork_cases {A : NewOrder → List NewOrderItem → Prop} {op : Call}
    (h : op.PlaceWork A) :
    (∃ data items, op = .orderCreate data items ∧ A data items) ∨ op.Harmless := by
  cases op with
  | orderCreate data items => exact .inl ⟨data, items, rfl, h⟩
  | _ => exact .inr h

theorem Call.Harmless.placeWork {A : NewOrder → List NewOrderItem → Prop} {op : Call}
    (h : op.Harmless) : op.PlaceWork A := by
  cases op <;> first
    | exact h
    | exact h.elim

theorem Call.PlaceWork.mono {A B : NewOrder → List NewOrderItem → Prop} {op : Call}
    (h : op.PlaceWork A) (hAB : ∀ data items, A data items → B data items) :
    op.PlaceWork B := by
  rcases placeWork_cases h with ⟨data, items, rfl, hA⟩ | hop
  · exact hAB data items hA
  · exact hop.placeWork

/-- Lists that are alike entry by entry in what is read of them. -/
theorem map_eq_of_forall₂ {α β γ : Type} {f : α → γ} {g : β → γ} {as : List α} {bs : List β}
    (h : List.Forall₂ (fun a b => f a = g b) as bs) : as.map f = bs.map g := by
  induction h with
  | nil => rfl
  | cons hab _ ih => rw [List.map_cons, List.map_cons, hab, ih]

/-- Where everything is found, it is found entry by entry. -/
theorem forall₂_filterMap {α β : Type} {f : α → Option β} {as : List α}
    (h : (as.filterMap f).length = as.length) :
    List.Forall₂ (fun a b => f a = some b) as (as.filterMap f) := by
  have hsome := List.filterMap_length_eq_length.mp h
  clear h
  induction as with
  | nil => exact .nil
  | cons a as ih =>
    obtain ⟨b, hb⟩ := Option.isSome_iff_exists.mp (hsome a List.mem_cons_self)
    rw [List.filterMap_cons_some hb]
    exact .cons hb (ih (fun a' ha' => hsome a' (List.mem_cons_of_mem _ ha')))

/-- **A line that is priced**: its dish is there and available, and so is each option it
names. -/
theorem priceLine_ok {byId : Id → Option MenuItem} {line : OrderLine} {item : NewOrderItem}
    (h : priceLine byId line = .ok item) :
    ∃ dish chosen, byId line.itemId = some dish ∧ dish.available = true
      ∧ List.Forall₂ (fun id o => dish.option? id = some o) line.optionIds chosen
      ∧ item = ⟨line.itemId, dish.nameTr,
        dish.priceKurus + (chosen.map (fun o => o.1.priceDeltaKurus)).sum, line.qty, line.note,
        chosen.map (fun o => (o.1.nameTr, o.1.priceDeltaKurus))⟩ := by
  unfold priceLine at h
  split at h
  · cases h
  · next dish hdish =>
    obtain ⟨hfound, havailable⟩ := Option.filter_eq_some_iff.mp hdish
    dsimp only at h
    split at h
    · cases h
    · next hall =>
      split at h
      · cases h
      · cases h
        exact ⟨dish, _, hfound, havailable, forall₂_filterMap (not_not.mp hall), rfl⟩

theorem priceLine_qty {byId : Id → Option MenuItem} {line : OrderLine} {item : NewOrderItem}
    (h : priceLine byId line = .ok item) : item.qty = line.qty := by
  obtain ⟨_, _, _, _, _, rfl⟩ := priceLine_ok h
  rfl

/-- **The pricing loop adds up the lines it makes**, one for each line asked
for. -/
theorem priceLines_spec {byId : Id → Option MenuItem} {lines : List OrderLine} {t t' : ℤ}
    {items items' : List NewOrderItem} (h : priceLines byId lines t items = .ok (t', items')) :
    ∃ new, items' = items ++ new ∧ t' = t + (new.map NewOrderItem.lineTotal).sum
      ∧ List.Forall₂ (fun line item => priceLine byId line = .ok item) lines new := by
  induction lines generalizing t items with
  | nil =>
    cases h
    exact ⟨[], (List.append_nil _).symm, (add_zero _).symm, .nil⟩
  | cons line rest ih =>
    unfold priceLines at h
    split at h
    · cases h
    · next item hitem =>
      obtain ⟨new, hitems, ht, heach⟩ := ih h
      refine ⟨item :: new, ?_, ?_, .cons hitem heach⟩
      · rw [hitems, List.append_assoc, List.singleton_append]
      · rw [ht, List.map_cons, List.sum_cons, ← add_assoc]
        rfl

theorem RawLine.parse_bounds {zod : Zod} {l : RawLine} {line : OrderLine}
    (h : l.parse zod = some line) :
    1 ≤ line.qty ∧ line.qty ≤ 20 ∧ line.optionIds.length ≤ 20 := by
  unfold RawLine.parse at h
  dsimp only at h
  split at h
  · next hl =>
    cases h
    dsimp only
    omega
  · cases h

theorem RawLine.parse_qty {zod : Zod} {l : RawLine} {line : OrderLine}
    (h : l.parse zod = some line) :
    1 ≤ line.qty ∧ line.qty ≤ 20 := by
  obtain ⟨hlow, hhigh, _⟩ := RawLine.parse_bounds h
  exact ⟨hlow, hhigh⟩

theorem parse_lines {zod : Zod} {raw : List RawLine} {lines : List OrderLine}
    (h : raw.mapM (RawLine.parse zod) = some lines) :
    lines.length = raw.length ∧ ∀ l ∈ lines, 1 ≤ l.qty ∧ l.qty ≤ 20 := by
  induction raw generalizing lines with
  | nil =>
    cases h
    exact ⟨rfl, by simp⟩
  | cons l rest ih =>
    rw [List.mapM_cons] at h
    obtain ⟨line, hline, h⟩ := Option.bind_eq_some_iff.mp h
    obtain ⟨others, hothers, h⟩ := Option.bind_eq_some_iff.mp h
    cases h
    obtain ⟨hlen, hqty⟩ := ih hothers
    refine ⟨by rw [List.length_cons, List.length_cons, hlen], fun k hk => ?_⟩
    rcases List.mem_cons.mp hk with rfl | hk
    · exact RawLine.parse_qty hline
    · exact hqty k hk

/-- **What the schema admits**: an order of one line at least, each of one to
twenty. -/
theorem orderSchema_spec {zod : Zod} {body : RawOrder} {parsed : OrderBody}
    (h : orderSchema zod body = some parsed) :
    parsed.items ≠ [] ∧ ∀ l ∈ parsed.items, 1 ≤ l.qty ∧ l.qty ≤ 20 := by
  unfold orderSchema at h
  split at h
  · next hbody =>
    obtain ⟨items, hitems, rfl⟩ := Option.map_eq_some_iff.mp h
    obtain ⟨hlen, hqty⟩ := parse_lines hitems
    refine ⟨fun hnil => ?_, hqty⟩
    rw [show items = [] from hnil, List.length_nil] at hlen
    omega
  · cases h

/-! ## The calls of a placed order -/

section

variable {A : NewOrder → List NewOrderItem → Prop}

theorem logAttempt_placeWork (caller : Caller) (outcome : AttemptOutcome) (extra : AttemptInfo) :
    (logAttempt caller outcome extra).Calls (Call.PlaceWork A) (fun _ => True) :=
  Prog.calls_mono (logAttempt_calls caller outcome extra) (fun _ h => h.placeWork) (fun _ h => h)

theorem createAttempts_calls {draft : OrderDraft}
    (h : ∀ number, A (draft.row number) draft.items) (n : ℕ) :
    (createAttempts draft n).Calls (Call.PlaceWork A) (fun _ => True) :=
  createAttempts_asks (fun _ => trivial) h n

end

/-- What the pricing loop made of an admitted order is well priced. -/
theorem priced_of_priceLines {byId : Id → Option MenuItem} {body : OrderBody}
    {session : ActiveSession} {totalKurus : ℤ} {items : List NewOrderItem}
    (hbody : body.items ≠ [] ∧ ∀ l ∈ body.items, 1 ≤ l.qty ∧ l.qty ≤ 20)
    (h : priceLines byId body.items 0 [] = .ok (totalKurus, items)) (number : ℕ) :
    Placed session body.idempotencyKey (OrderDraft.row ⟨session.venueId, session.tableId,
      session.id, session.visitId, totalKurus, body.idempotencyKey, items⟩ number) items := by
  obtain ⟨new, hnew, htotal, heach⟩ := priceLines_spec h
  rw [List.nil_append] at hnew
  subst hnew
  refine ⟨⟨?_, ?_, fun i hi => ?_⟩, rfl, rfl, rfl, rfl, rfl⟩
  · rw [← zero_add (List.sum _)]
    exact htotal
  · rintro rfl
    exact hbody.1 (List.forall₂_nil_right_iff.mp heach)
  · have hqty : body.items.map (fun l => l.qty) = items.map (fun i => i.qty) :=
      map_eq_of_forall₂ (heach.imp (fun _ _ hpriced => (priceLine_qty hpriced).symm))
    obtain ⟨l, hl, hlq⟩ := List.mem_map.mp (hqty ▸ List.mem_map_of_mem hi)
    rw [← hlq]
    exact (hbody.2 l hl).1

theorem place_calls {caller : Caller} {session : ActiveSession} {body : OrderBody}
    (hbody : body.items ≠ [] ∧ ∀ l ∈ body.items, 1 ≤ l.qty ∧ l.qty ≤ 20) :
    (place caller session body).Calls (Call.PlaceWork (Placed session body.idempotencyKey))
      (fun _ => True) := by
  unfold place
  refine Prog.calls_bind (Prog.calls_perform (S := api) trivial) (fun recent _ => ?_)
  refine Prog.calls_bind (Prog.calls_perform (S := api) trivial) (fun inFlight _ => ?_)
  split
  · exact Prog.calls_bind (logAttempt_placeWork _ _ _) (fun _ _ => trivial)
  · refine Prog.calls_bind (Prog.calls_perform (S := api) trivial) (fun byId _ => ?_)
    split
    · next refusal _ =>
      cases refusal with
      | item_unavailable itemId =>
        exact Prog.calls_bind (logAttempt_placeWork _ _ _) (fun _ _ => trivial)
      | unknown_option =>
        exact Prog.calls_bind (logAttempt_placeWork _ _ _) (fun _ _ => trivial)
      | invalid_modifiers groupId => exact trivial
    · next totalKurus items hpriced =>
      refine Prog.calls_bind (createAttempts_calls (priced_of_priceLines hbody hpriced)
        NUMBER_RETRIES) (fun order _ => ?_)
      cases order with
      | none => exact Prog.calls_bind (logAttempt_placeWork _ _ _) (fun _ _ => trivial)
      | some o =>
        exact Prog.calls_bind (logAttempt_placeWork _ _ _) (fun _ _ =>
          Prog.calls_bind (Prog.calls_perform (S := api) trivial) (fun _ _ => trivial))

/-- **Whatever its calls are answered, a request inserts only well-priced orders of
its session**, and its other calls are harmless. -/
theorem answerOrder_calls (req : OrderRequest) (session : ActiveSession) :
    (answerOrder req session).Calls
      (Call.PlaceWork (fun data items => ∃ key, Placed session key data items))
      (fun _ => True) := by
  unfold answerOrder
  split
  · exact Prog.calls_bind (logAttempt_placeWork _ _ _) (fun _ _ => trivial)
  · next body hbody =>
    obtain ⟨raw, _, hraw⟩ := Option.bind_eq_some_iff.mp hbody
    have hreplayed : (replayed session.id body.idempotencyKey).Calls
        (Call.PlaceWork (fun data items => ∃ key, Placed session key data items))
        (fun _ => True) := by
      cases body.idempotencyKey with
      | none => exact trivial
      | some key => exact Prog.calls_perform (S := api) trivial
    refine Prog.calls_bind hreplayed (fun existing _ => ?_)
    split
    · exact trivial
    · exact Prog.calls_mono (place_calls (orderSchema_spec hraw))
        (fun _ hop => hop.mono (fun _ _ hplaced => ⟨_, hplaced⟩)) (fun _ h => h)

theorem postOrder_calls (req : OrderRequest) :
    (postOrder req).Calls (Call.PlaceWork Priced) (fun _ => True) := by
  unfold postOrder
  refine Prog.calls_bind (Prog.calls_mono (getActiveSession_calls req.cookie none)
    (fun _ h => h.placeWork) (fun _ h => h)) (fun session _ => ?_)
  split
  · split
    · exact Prog.calls_bind (logAttempt_placeWork _ _ _) (fun _ _ => trivial)
    · exact trivial
  · exact Prog.calls_mono (answerOrder_calls req _)
      (fun _ hop => hop.mono (fun _ _ ⟨_, hplaced⟩ => hplaced.toPriced)) (fun _ h => h)

/-! ## What an order's lines come to -/

/-- What a line adds to an order's total: nothing when it is another order's, or
voided. -/
def owed (orderId : Id) (i : OrderItem) : ℤ :=
  if i.orderId == orderId && i.voidedAt.isNone then i.lineTotal else 0

theorem liveTotal_eq (w : World) (orderId : Id) :
    w.liveTotal orderId = w.orderItems.total (fun _ => owed orderId) :=
  Rows.sum_filter w.orderItems (fun _ i => i.orderId == orderId && i.voidedAt.isNone)
    (fun _ i => i.lineTotal)

theorem liveTotal_congr {w w' : World} (h : w'.orderItems = w.orderItems) (orderId : Id) :
    w'.liveTotal orderId = w.liveTotal orderId := by
  rw [liveTotal_eq, liveTotal_eq, h]

theorem mem_liveItems {w : World} {orderId : Id} {r : Id × OrderItem} :
    r ∈ w.liveItems orderId ↔
      w.orderItems.get? r.1 = some r.2 ∧ r.2.orderId = orderId ∧ r.2.voidedAt = none := by
  unfold World.liveItems
  rw [Rows.mem_filter, Bool.and_eq_true, beq_iff_eq, Option.isNone_iff_eq_none]

/-- A new order comes to what its lines do, and the others to what they did. -/
theorem liveTotal_insertOrder (w : World) (data : NewOrder) (items : List NewOrderItem)
    (orderId : Id) :
    (w.insertOrder data items).liveTotal orderId = w.liveTotal orderId
      + if orderId = w.orders.next then (items.map NewOrderItem.lineTotal).sum else 0 := by
  rw [liveTotal_eq, liveTotal_eq]
  show (w.orderItems.createAll _).total _ = _
  rw [Rows.total_createAll, List.map_map]
  congr 1
  by_cases hid : orderId = w.orders.next
  · rw [if_pos hid]
    congr 1
    refine List.map_congr_left (fun i _ => ?_)
    simp [owed, NewOrderItem.row, hid, OrderItem.lineTotal, NewOrderItem.lineTotal]
  · rw [if_neg hid]
    refine List.sum_eq_zero (fun x hx => ?_)
    obtain ⟨i, _, rfl⟩ := List.mem_map.mp hx
    simp [owed, NewOrderItem.row, Ne.symm hid]

/-! ## What an edit reads and decides -/

/-- The lines an edit may touch are the order's live lines. -/
theorem orderForEdit_live {w : World} {orderId venueId : Id} {o : OrderForEdit}
    (h : w.orderForEdit orderId venueId = some o) : o.live = w.liveItems orderId := by
  obtain ⟨row, _, rfl⟩ := Option.map_eq_some_iff.mp h
  unfold OrderForEdit.live World.liveItems Rows.filter
  rw [List.filter_filter]
  refine List.filter_congr (fun r _ => ?_)
  exact Bool.and_comm _ _

theorem byId_eq_some {w : World} {orderId venueId : Id} {o : OrderForEdit}
    (h : w.orderForEdit orderId venueId = some o) {id : Id} {i : OrderItem} :
    o.byId id = some i ↔ (id, i) ∈ w.liveItems orderId := by
  unfold OrderForEdit.byId
  rw [orderForEdit_live h, Option.map_eq_some_iff]
  constructor
  · rintro ⟨r, hr, rfl⟩
    have hid : r.1 = id := by simpa using List.find?_some hr
    rw [← hid]
    exact List.mem_of_find?_eq_some hr
  · intro hmem
    cases hfind : (w.liveItems orderId).find? (fun r => r.1 == id) with
    | none => exact absurd (List.find?_eq_none.mp hfind _ hmem) (by simp)
    | some r =>
      have hid : r.1 = id := by simpa using List.find?_some hfind
      have hr := (mem_liveItems.mp (List.mem_of_find?_eq_some hfind)).1
      rw [hid, (mem_liveItems.mp hmem).1] at hr
      exact ⟨r, rfl, (Option.some.inj hr).symm⟩

/-- **The edits collected**: one for each entry that lowers its line. -/
theorem mem_collectEdits {o : OrderForEdit} {lines : List EditLine}
    {es : List (LineChange × LineEdit)} (h : collectEdits o lines = some es) {e : LineEdit} :
    e ∈ es.map Prod.snd ↔ ∃ l ∈ lines, ∃ i, o.byId l.itemId = some i ∧ l.qty ≠ i.qty
      ∧ e = ⟨l.itemId, i.qty, l.qty⟩ := by
  induction lines generalizing es with
  | nil =>
    cases h
    simp
  | cons l rest ih =>
    unfold collectEdits at h
    split at h
    · cases h
    · next i hi =>
      split at h
      · cases h
      · split at h
        · next hne =>
          obtain ⟨others, hothers, rfl⟩ := Option.map_eq_some_iff.mp h
          rw [List.map_cons, List.mem_cons, ih hothers, List.exists_mem_cons_iff]
          refine or_congr_left ⟨fun he => ⟨i, hi, hne, he⟩, fun ⟨i', hi', _, he⟩ => ?_⟩
          rw [hi] at hi'
          cases hi'
          exact he
        · next heq =>
          rw [ih h, List.exists_mem_cons_iff]
          refine (or_iff_right ?_).symm
          rintro ⟨i', hi', hne, _⟩
          rw [hi] at hi'
          cases hi'
          exact heq hne

/-- A sum is not changed by leaving zeros out. -/
theorem sum_filter_of_zero {α : Type} (l : List α) (p : α → Bool) (f : α → ℤ)
    (h : ∀ a, p a = false → f a = 0) : ((l.filter p).map f).sum = (l.map f).sum := by
  induction l with
  | nil => rfl
  | cons a l ih =>
    rw [List.filter_cons, List.map_cons, List.sum_cons, ← ih]
    by_cases hp : p a = true
    · rw [if_pos hp, List.map_cons, List.sum_cons]
    · rw [if_neg hp, h a (Bool.eq_false_iff.mpr hp), zero_add]

/-- **What a plan was made from.** -/
theorem planEdit_spec {o : OrderForEdit} {input : OrderEditInput} {plan : EditPlan}
    (h : planEdit o input = .ok plan) :
    o.order.status ∈ EDITABLE_STATUSES
      ∧ (∃ changed, collectEdits o input.lines = some changed ∧ changed ≠ []
        ∧ plan.edits = changed.map Prod.snd ∧ plan.changes = changed.map Prod.fst)
      ∧ plan.totalKurus = (o.live.map (fun i => i.2.unitPriceKurus * (input.qtyAfter i : ℤ))).sum
      ∧ plan.afterPrint = o.hasDeliveries := by
  unfold planEdit at h
  split at h
  · cases h
  · next hstatus =>
    split at h
    · cases h
    · split at h
      · cases h
      · next changed hchanged =>
        split at h
        · cases h
        · next hne =>
          dsimp only at h
          split at h
          · cases h
          · cases h
            refine ⟨by simpa using hstatus, ⟨changed, hchanged, by simpa using hne, rfl, rfl⟩,
              sum_filter_of_zero _ _ _ (fun i hi => ?_), rfl⟩
            have hzero : input.qtyAfter i = 0 := by simpa using hi
            rw [hzero]
            simp

/-! ## What an edit commits -/

theorem LineEdit.hits_iff {e : LineEdit} {id : Id} {i : OrderItem} :
    e.hits id i = true ↔ id = e.id ∧ i.qty = e.fromQty ∧ i.voidedAt = none := by
  unfold LineEdit.hits
  rw [Bool.and_eq_true, Bool.and_eq_true, beq_iff_eq, beq_iff_eq, Option.isNone_iff_eq_none,
    and_assoc]

/-- A line an edit has changed no longer has the quantity it was changed
from. -/
theorem LineEdit.not_hits_apply {e e' : LineEdit} (hne : e.toQty ≠ e.fromQty)
    (hfrom : e'.fromQty = e.fromQty) (now : Time) (id : Id) (i : OrderItem) :
    e'.hits id (e.apply now i) = false := by
  rw [Bool.eq_false_iff, ne_eq, LineEdit.hits_iff]
  rintro ⟨_, hqty, hvoid⟩
  unfold LineEdit.apply at hqty hvoid
  split at hqty
  · next hzero =>
    rw [if_pos hzero] at hvoid
    cases hvoid
  · exact hne (hqty.trans hfrom)

/-- **The line updates of a committed edit**: each line is named by one of them at
most; each finds its line as it was read and leaves the new quantity; the
other lines stay. -/
theorem applyEdits_spec {now : Time} {es : List LineEdit} {items items' : Rows OrderItem}
    (h : World.applyEdits now es items = some items') (hne : ∀ e ∈ es, e.toQty ≠ e.fromQty)
    (hfrom : ∀ e ∈ es, ∀ e' ∈ es, e'.id = e.id → e'.fromQty = e.fromQty) :
    (es.map LineEdit.id).Nodup
      ∧ (∀ e ∈ es, ∃ i, items.get? e.id = some i ∧ e.hits e.id i = true
        ∧ items'.get? e.id = some (e.apply now i))
      ∧ ∀ k, k ∉ es.map LineEdit.id → items'.get? k = items.get? k := by
  induction es generalizing items with
  | nil =>
    cases h
    exact ⟨List.nodup_nil, by simp, fun _ _ => rfl⟩
  | cons e es ih =>
    unfold World.applyEdits at h
    split at h
    · cases h
    · next hcount =>
      obtain ⟨k, i, hi, hhits⟩ := Rows.exists_of_count hcount
      obtain rfl : k = e.id := (LineEdit.hits_iff.mp hhits).1
      -- what the first update left
      have hfirst : (items.update e.hits (e.apply now)).get? e.id = some (e.apply now i) := by
        rw [Rows.get?_update, hi, Option.map_some, if_pos hhits]
      have hother : ∀ k, k ≠ e.id →
          (items.update e.hits (e.apply now)).get? k = items.get? k := by
        intro k hk
        rw [Rows.get?_update]
        cases items.get? k with
        | none => rfl
        | some j => rw [Option.map_some, if_neg (fun hj => hk (LineEdit.hits_iff.mp hj).1)]
      obtain ⟨hnodup, hedit, hkeep⟩ := ih h (fun e' he' => hne e' (List.mem_cons_of_mem _ he'))
        (fun e₁ h₁ e₂ h₂ => hfrom e₁ (List.mem_cons_of_mem _ h₁) e₂ (List.mem_cons_of_mem _ h₂))
      have hnot : e.id ∉ es.map LineEdit.id := by
        intro hin
        obtain ⟨e', he', hid⟩ := List.mem_map.mp hin
        obtain ⟨j, hj, hhit, _⟩ := hedit e' he'
        rw [hid, hfirst] at hj
        cases hj
        rw [LineEdit.not_hits_apply (hne e List.mem_cons_self)
          (hfrom e List.mem_cons_self e' (List.mem_cons_of_mem _ he') hid)] at hhit
        cases hhit
      refine ⟨List.nodup_cons.mpr ⟨hnot, hnodup⟩, fun e' he' => ?_, fun k hk => ?_⟩
      · rcases List.mem_cons.mp he' with rfl | he'
        · exact ⟨i, hi, hhits, by rw [hkeep _ hnot, hfirst]⟩
        · obtain ⟨j, hj, hhit, hnew⟩ := hedit e' he'
          have hk : e'.id ≠ e.id := fun heq => hnot (heq ▸ List.mem_map_of_mem he')
          rw [hother _ hk] at hj
          exact ⟨j, hj, hhit, hnew⟩
      · rw [List.map_cons, List.mem_cons, not_or] at hk
        rw [hkeep k hk.2, hother k hk.1]

/-- **What a committed edit leaves a line at.** -/
def LineEdit.leaves (es : List LineEdit) (now : Time) (id : Id) (i : OrderItem) : OrderItem :=
  match es.find? (fun e => e.id == id) with
  | some e => e.apply now i
  | none => i

@[simp] theorem LineEdit.leaves_orderId (es : List LineEdit) (now : Time) (id : Id)
    (i : OrderItem) : (LineEdit.leaves es now id i).orderId = i.orderId := by
  unfold LineEdit.leaves
  split
  · unfold LineEdit.apply
    split
    · rfl
    · rfl
  · rfl

/-- The transaction of an edit, in one equation for a line. -/
theorem applyEdits_get? {now : Time} {es : List LineEdit} {items items' : Rows OrderItem}
    (h : World.applyEdits now es items = some items') (hne : ∀ e ∈ es, e.toQty ≠ e.fromQty)
    (hfrom : ∀ e ∈ es, ∀ e' ∈ es, e'.id = e.id → e'.fromQty = e.fromQty) (id : Id) :
    items'.get? id = (items.get? id).map (LineEdit.leaves es now id) := by
  obtain ⟨_, hedit, hkeep⟩ := applyEdits_spec h hne hfrom
  unfold LineEdit.leaves
  cases hfind : es.find? (fun e => e.id == id) with
  | none =>
    rw [hkeep id]
    · simp
    · intro hin
      obtain ⟨e, he, hid⟩ := List.mem_map.mp hin
      exact absurd (List.find?_eq_none.mp hfind e he) (by simp [hid])
  | some e =>
    have hid : e.id = id := by simpa using List.find?_some hfind
    obtain ⟨i, hi, _, hnew⟩ := hedit e (List.mem_of_find?_eq_some hfind)
    rw [hid] at hi hnew
    rw [hi, hnew]
    rfl

/-! ## The total a committed edit leaves -/

/-- The first entry that names the line decides: it is not named first at the
quantity it has, and again at another. -/
def OrderEditInput.FirstDecides (input : OrderEditInput) (i : Id × OrderItem) : Prop :=
  ∀ l ∈ input.lines, l.itemId = i.1 → l.qty ≠ i.2.qty → input.qtyAfter i ≠ i.2.qty

instance (input : OrderEditInput) (i : Id × OrderItem) : Decidable (input.FirstDecides i) :=
  inferInstanceAs (Decidable (∀ l ∈ input.lines, _))

theorem owed_apply (e : LineEdit) (now : Time) (orderId : Id) (i : OrderItem)
    (hi : i.orderId = orderId ∧ i.voidedAt = none) :
    owed orderId (e.apply now i) = i.unitPriceKurus * (e.toQty : ℤ) := by
  unfold owed LineEdit.apply
  split
  · next hzero => simp [hzero]
  · simp [hi, OrderItem.lineTotal]

theorem owed_apply_other (e : LineEdit) (now : Time) {orderId : Id} {i : OrderItem}
    (hi : i.orderId ≠ orderId) : owed orderId (e.apply now i) = owed orderId i := by
  unfold owed LineEdit.apply
  split <;> simp [hi]

section

variable {w₁ : World} {orderId venueId : Id} {o : OrderForEdit} {input : OrderEditInput}
  {plan : EditPlan}

/-- The line updates planned, in terms of the lines the edit read. -/
theorem mem_edits (ho : w₁.orderForEdit orderId venueId = some o)
    (hplan : planEdit o input = .ok plan) {e : LineEdit} :
    e ∈ plan.edits ↔ ∃ l ∈ input.lines, ∃ i, (l.itemId, i) ∈ w₁.liveItems orderId
      ∧ l.qty ≠ i.qty ∧ e = ⟨l.itemId, i.qty, l.qty⟩ := by
  obtain ⟨_, ⟨changed, hchanged, _, hedits, _⟩, _⟩ := planEdit_spec hplan
  rw [hedits, mem_collectEdits hchanged]
  simp only [byId_eq_some ho]

/-- What the edit has planned for a line: an entry names it, and it was read live. -/
theorem edit_found (ho : w₁.orderForEdit orderId venueId = some o)
    (hplan : planEdit o input = .ok plan) {k : Id} {e : LineEdit}
    (hfind : plan.edits.find? (fun e => e.id == k) = some e) :
    ∃ l ∈ input.lines, l.itemId = k ∧ ∃ i, (k, i) ∈ w₁.liveItems orderId ∧ l.qty ≠ i.qty
      ∧ e = ⟨k, i.qty, l.qty⟩ := by
  have hk : e.id = k := by simpa using List.find?_some hfind
  obtain ⟨l, hl, i, hi, hne, rfl⟩ := (mem_edits ho hplan).mp (List.mem_of_find?_eq_some hfind)
  subst hk
  exact ⟨l, hl, rfl, i, hi, hne, rfl⟩

/-- A line that it has not read live is left alone. -/
theorem leaves_of_not_live (ho : w₁.orderForEdit orderId venueId = some o)
    (hplan : planEdit o input = .ok plan) {now : Time} {k : Id} {i : OrderItem}
    (hnot : ∀ j, (k, j) ∉ w₁.liveItems orderId) : LineEdit.leaves plan.edits now k i = i := by
  unfold LineEdit.leaves
  cases hfind : plan.edits.find? (fun e => e.id == k) with
  | none => rfl
  | some e =>
    obtain ⟨_, _, _, j, hj, _⟩ := edit_found ho hplan hfind
    exact absurd hj (hnot j)

theorem edits_change (ho : w₁.orderForEdit orderId venueId = some o)
    (hplan : planEdit o input = .ok plan) : ∀ e ∈ plan.edits, e.toQty ≠ e.fromQty := by
  intro e he
  obtain ⟨l, _, i, _, hne, rfl⟩ := (mem_edits ho hplan).mp he
  exact hne

theorem edits_from (ho : w₁.orderForEdit orderId venueId = some o)
    (hplan : planEdit o input = .ok plan) :
    ∀ e ∈ plan.edits, ∀ e' ∈ plan.edits, e'.id = e.id → e'.fromQty = e.fromQty := by
  intro e he e' he' hid
  obtain ⟨l, _, i, hi, _, rfl⟩ := (mem_edits ho hplan).mp he
  obtain ⟨l', _, i', hi', _, rfl⟩ := (mem_edits ho hplan).mp he'
  have hrow := (mem_liveItems.mp hi).1
  have hrow' := (mem_liveItems.mp hi').1
  dsimp only at hid hrow hrow'
  rw [hid, hrow] at hrow'
  cases hrow'
  rfl

variable {w : World} {items : Rows OrderItem}

/-- **A live line is left at the quantity the edit planned for it.** -/
theorem owed_leaves (ho : w₁.orderForEdit orderId venueId = some o)
    (hplan : planEdit o input = .ok plan) (hlive : w₁.liveItems orderId = w.liveItems orderId)
    (happ : World.applyEdits w.now plan.edits w.orderItems = some items)
    {id : Id} {i : OrderItem} (hi : (id, i) ∈ w.liveItems orderId)
    (hfirst : input.FirstDecides (id, i)) :
    owed orderId (LineEdit.leaves plan.edits w.now id i)
      = i.unitPriceKurus * (input.qtyAfter (id, i) : ℤ) := by
  have hlive_i : i.orderId = orderId ∧ i.voidedAt = none := (mem_liveItems.mp hi).2
  -- an entry that changes the line is among the edits
  have hentry : ∀ l ∈ input.lines, l.itemId = id → l.qty ≠ i.qty →
      (⟨id, i.qty, l.qty⟩ : LineEdit) ∈ plan.edits := by
    rintro l hl rfl hne
    exact (mem_edits ho hplan).mpr ⟨l, hl, i, hlive ▸ hi, hne, rfl⟩
  -- and so is the first one, when it changes the line
  have hdecided : input.qtyAfter (id, i) ≠ i.qty →
      (⟨id, i.qty, input.qtyAfter (id, i)⟩ : LineEdit) ∈ plan.edits := by
    intro hne
    unfold OrderEditInput.qtyAfter at hne ⊢
    dsimp only at hne ⊢
    cases hfind : input.lines.find? (fun l => l.itemId == id) with
    | none =>
      rw [hfind] at hne
      exact absurd rfl hne
    | some l =>
      rw [hfind] at hne
      exact hentry l (List.mem_of_find?_eq_some hfind) (by simpa using List.find?_some hfind) hne
  unfold LineEdit.leaves
  cases hfind : plan.edits.find? (fun e => e.id == id) with
  | none =>
    have hkept : input.qtyAfter (id, i) = i.qty := by
      by_contra hne
      exact absurd (List.find?_eq_none.mp hfind _ (hdecided hne)) (by simp)
    rw [hkept]
    simp [owed, hlive_i, OrderItem.lineTotal]
  | some e =>
    have he := List.mem_of_find?_eq_some hfind
    obtain ⟨l, hl, hid, j, hj, hne, rfl⟩ := edit_found ho hplan hfind
    rw [hlive] at hj
    have hji : j = i :=
      Option.some.inj ((mem_liveItems.mp hj).1.symm.trans (mem_liveItems.mp hi).1)
    subst hji
    -- no line is named by two of the edits
    have hnodup := (applyEdits_spec happ (edits_change ho hplan) (edits_from ho hplan)).1
    have hsame := List.inj_on_of_nodup_map hnodup he (hdecided (hfirst l hl hid hne)) rfl
    dsimp only
    rw [owed_apply _ _ _ _ hlive_i, hsame]

/-- **The committed lines come to the planned total**, given that the edit planned
from the live lines as they are and that its first entries decide. -/
theorem total_applyEdits (ho : w₁.orderForEdit orderId venueId = some o)
    (hplan : planEdit o input = .ok plan) (hlive : w₁.liveItems orderId = w.liveItems orderId)
    (hfirst : ∀ i ∈ w.liveItems orderId, input.FirstDecides i)
    (happ : World.applyEdits w.now plan.edits w.orderItems = some items) :
    items.total (fun _ => owed orderId) = plan.totalKurus := by
  rw [Rows.total_of_get? (applyEdits_get? happ (edits_change ho hplan) (edits_from ho hplan)),
    (planEdit_spec hplan).2.2.1, orderForEdit_live ho, hlive]
  unfold World.liveItems
  rw [Rows.sum_filter w.orderItems _
    (fun id i => i.unitPriceKurus * (input.qtyAfter (id, i) : ℤ))]
  refine Rows.total_congr (fun id i hi => ?_)
  by_cases hl : (i.orderId == orderId && i.voidedAt.isNone) = true
  · rw [if_pos hl]
    have hmem : (id, i) ∈ w.liveItems orderId := Rows.mem_filter.mpr ⟨hi, hl⟩
    exact owed_leaves ho hplan hlive happ hmem (hfirst _ hmem)
  · -- the edit finds no line that is not live
    rw [if_neg hl, leaves_of_not_live ho hplan (fun j hj => ?_)]
    · exact if_neg hl
    · rw [hlive] at hj
      obtain ⟨hrow, hj⟩ := Rows.mem_filter.mp hj
      rw [hrow] at hi
      cases hi
      exact hl hj

/-- The lines of the other orders come to what they did. -/
theorem total_applyEdits_other (ho : w₁.orderForEdit orderId venueId = some o)
    (hplan : planEdit o input = .ok plan) (hlive : w₁.liveItems orderId = w.liveItems orderId)
    (happ : World.applyEdits w.now plan.edits w.orderItems = some items) {id : Id}
    (hid : id ≠ orderId) :
    items.total (fun _ => owed id) = w.orderItems.total (fun _ => owed id) := by
  rw [Rows.total_of_get? (applyEdits_get? happ (edits_change ho hplan) (edits_from ho hplan))]
  refine Rows.total_congr (fun k i hi => ?_)
  unfold LineEdit.leaves
  cases hfind : plan.edits.find? (fun e => e.id == k) with
  | none => rfl
  | some e =>
    obtain ⟨_, _, _, j, hj, _⟩ := edit_found ho hplan hfind
    rw [hlive] at hj
    obtain ⟨hrow, hj, _⟩ := mem_liveItems.mp hj
    dsimp only at hrow hj
    rw [hrow] at hi
    cases hi
    exact owed_apply_other _ _ (fun h => hid (h.symm.trans hj))

end

/-! ## What a bill comes to -/

theorem sum_flatMap {α β : Type} (l : List α) (f : α → List β) (g : β → ℤ) :
    ((l.flatMap f).map g).sum = (l.map (fun a => ((f a).map g).sum)).sum := by
  rw [List.map_flatMap, List.flatMap_def, List.sum_flatten, List.map_map]
  rfl

/-- **A bill's total is what the live lines of the billed orders come to.** -/
theorem buildBill_total {w : World} {visitId : Id} {bill : Bill}
    (h : w.buildBill visitId = some bill) :
    bill.totalKurus = ((w.billedOrders visitId).map (fun o => w.liveTotal o.1)).sum := by
  unfold World.buildBill at h
  split at h
  · cases h
  · cases h
    dsimp only
    rw [sum_flatMap]
    have hperm := orderBy_perm (fun o : Id × Order => o.2.createdAt) (w.billedOrders visitId)
    rw [← (hperm.map (fun o => w.liveTotal o.1)).sum_eq]
    refine congrArg List.sum (List.map_congr_left (fun o _ => ?_))
    rw [List.map_map]
    rfl

/-- A bill covers the billed orders, each once. -/
theorem buildBill_orderIds {w : World} {visitId : Id} {bill : Bill}
    (h : w.buildBill visitId = some bill) :
    bill.orderIds.Perm ((w.billedOrders visitId).map Prod.fst) := by
  unfold World.buildBill at h
  split at h
  · cases h
  · cases h
    exact (orderBy_perm _ _).map _

theorem buildBill_isSome {w : World} {visitId : Id} {v : TableVisit}
    (h : w.tableVisits.get? visitId = some v) : ∃ bill, w.buildBill visitId = some bill := by
  unfold World.buildBill
  rw [h]
  exact ⟨_, rfl⟩

/-! ## What the two writes do -/

theorem exec_orderCreate (c : Choice) (data : NewOrder) (items : List NewOrderItem) (w : World) :
    World.exec c (.orderCreate data items) w = w.orderCreate c data items := rfl

/-- An insertion happens, or nothing does. -/
theorem orderCreate_cases {c : Choice} {w w' : World} {data : NewOrder}
    {items : List NewOrderItem} {x : Except DbError (Id × ℕ)}
    (hx : w.orderCreate c data items = (w', x)) :
    (w' = w ∧ ∃ e, x = .error e)
      ∨ (w' = w.insertOrder data items ∧ x = .ok (w.orders.next, data.number)
        ∧ w.numberTaken data.venueId data.number = false
        ∧ w.keyTaken data.sessionId data.idempotencyKey = false) := by
  unfold World.orderCreate at hx
  dsimp only at hx
  split at hx
  · cases hx
    exact .inl ⟨rfl, _, rfl⟩
  · split at hx
    · cases hx
      exact .inl ⟨rfl, _, rfl⟩
    · next hnumber =>
      split at hx
      · cases hx
        exact .inl ⟨rfl, _, rfl⟩
      · next hkey =>
        split at hx
        · cases hx
          exact .inl ⟨rfl, _, rfl⟩
        · split at hx
          · cases hx
            exact .inl ⟨rfl, _, rfl⟩
          · cases hx
            refine .inr ⟨rfl, rfl, ?_, by simpa using hkey⟩
            simpa [hkey] using hnumber

/-- What it leaves: the order's rows, or everything as it was. -/
theorem orderCreate_world (c : Choice) (w : World) (data : NewOrder) (items : List NewOrderItem) :
    (w.orderCreate c data items).1 = w
      ∨ (w.orderCreate c data items).1 = w.insertOrder data items := by
  rcases orderCreate_cases (Prod.mk.eta (p := w.orderCreate c data items)).symm with h | h
  · exact .inl h.1
  · exact .inr h.1

/-- What the transaction of an edit is answered is whether it committed. -/
theorem exec_orderEditTransaction {c : Choice} {w w' : World} {orderId : Id}
    {statuses : List OrderStatus} {edits : List LineEdit} {total : ℤ} {entry : NewOrderEdit}
    {x : Except DbError Bool}
    (hx : World.exec c (.orderEditTransaction orderId statuses edits total entry) w = (w', x)) :
    ∃ b, x = .ok b ∧ w.orderEditTransaction orderId statuses edits total entry = (w', b) :=
  ⟨_, (Prod.mk.inj hx).2.symm, Prod.ext (Prod.mk.inj hx).1 rfl⟩

/-- **An edit commits its lines, its total and its history row, on an order still
editable; or nothing.** -/
theorem orderEditTransaction_cases {w w' : World} {orderId : Id} {statuses : List OrderStatus}
    {edits : List LineEdit} {total : ℤ} {entry : NewOrderEdit} {b : Bool}
    (hx : w.orderEditTransaction orderId statuses edits total entry = (w', b)) :
    (w' = w ∧ b = false)
      ∨ ∃ items order, b = true ∧ World.applyEdits w.now edits w.orderItems = some items
        ∧ w.orders.get? orderId = some order ∧ order.status ∈ statuses
        ∧ w'.orderItems = items
        ∧ w'.orders = w.orders.update (World.editable orderId statuses)
            (fun o => { o with totalKurus := total })
        ∧ w'.posDeliveries = w.posDeliveries ∧ w'.tableVisits = w.tableVisits
        ∧ w'.tableSessions = w.tableSessions
        ∧ w'.tables = w.tables ∧ w'.venues = w.venues := by
  unfold World.orderEditTransaction at hx
  split at hx
  · cases hx
    exact .inl ⟨rfl, rfl⟩
  · next items happ =>
    split at hx
    · cases hx
      exact .inl ⟨rfl, rfl⟩
    · next hcount =>
      cases hx
      obtain ⟨k, o, ho, hsel⟩ := Rows.exists_of_count hcount
      obtain ⟨hk, hs⟩ := Bool.and_eq_true_iff.mp hsel
      obtain rfl : k = orderId := beq_iff_eq.mp hk
      exact .inr
        ⟨items, o, rfl, happ, ho, List.contains_iff_mem.mp hs, rfl, rfl, rfl, rfl, rfl, rfl, rfl⟩

end Masadan
