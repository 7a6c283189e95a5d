import Masadan.OrderTotals

/-!
# The edit ledger

A correction of an order writes three tables: the lines it lowers, the order's total, and a
row of the edit history that says what it lowered. The history explains the lines: what an
order's lines have lost since they were ordered is what its history rows say was taken off.

That the three go together is the transaction's doing. That the history row speaks of the
quantities the lines really had is the doing of each line's condition, which names the
quantity the edit was computed from: between the read and the commit others correct the order,
serve it or withdraw it, and an edit that names a line twice finds the second time that the
line is no longer as it read it. `ledger_explains` is over every run of placing, correcting
and moving orders, on a server whose calls may fail and whose process may crash.
-/

namespace Masadan

/-! ## The requests -/

/-- Orders are placed, corrected, moved and withdrawn; an acceptance leaves a job. -/
inductive LedgerRequest where
  | place (req : OrderRequest)
  | edit (orderId venueId staffId : Id) (staffName : Text) (input : OrderEditInput)
  | patch (staff : Option StaffClaims) (id : Id) (body : PatchBody)
  | cancel (cookie : Option ℕ) (caller : Caller) (id : Id)
  | enqueue (job : Job)

inductive LedgerAnswer where
  | placed (a : OrderAnswer)
  | edited (a : Except EditError EditOk)
  | patched (a : PatchAnswer)
  | cancelled (a : CancelAnswer)
  | done

def LedgerRequest.prog : LedgerRequest → Api LedgerAnswer
  | .place req => LedgerAnswer.placed <$> postOrder req
  | .edit orderId venueId staffId staffName input =>
    LedgerAnswer.edited <$> editOrder orderId venueId staffId staffName input
  | .patch staff id body => LedgerAnswer.patched <$> patchOrder staff id body
  | .cancel cookie caller id => LedgerAnswer.cancelled <$> cancelOrder cookie caller id
  | .enqueue job => (fun _ => LedgerAnswer.done) <$> enqueuePosDelivery job.orderId job.amendment

def LedgerRequest.external : LedgerRequest → Bool
  | .enqueue _ => false
  | _ => true

/-- The server serving these requests. -/
abbrev ledgerServer : Sys api :=
  server LedgerRequest.prog LedgerRequest.external (fun job => [.enqueue job]) true

/-- A run of these requests, from a world. -/
abbrev ledgerRun (w₀ : World) (acts : List ledgerServer.Action) : ledgerServer.Pool :=
  Sys.Pool.run (Sys.Pool.init w₀ : ledgerServer.Pool) acts

/-! ## What the ledger says -/

/-- What one change took off its line. -/
def LineChange.taken (c : LineChange) : ℤ := (c.fromQty : ℤ) - c.toQty

/-- What one correction took off its order. -/
def OrderEdit.taken (e : OrderEdit) : ℤ := (e.changes.map LineChange.taken).sum

/-- What an order's corrections took off it. -/
def World.takenOff (w : World) (orderId : Id) : ℤ :=
  ((w.orderEdits.filter (fun _ e => e.orderId == orderId)).map (fun r => r.2.taken)).sum

/-- The lines of an order, voided ones too. -/
def World.allLines (w : World) (orderId : Id) : List (Id × OrderItem) :=
  w.orderItems.filter (fun _ i => i.orderId == orderId)

/-- How many of its dish a line is for. -/
def World.qtyOf (w : World) (lineId : Id) : ℤ :=
  ((w.orderItems.get? lineId).map (fun i => (i.qty : ℤ))).getD 0

/-- **An order as it was ordered**: the first world of the run that has it. -/
def asOrdered (orderId : Id) (p : ledgerServer.Pool) : List ledgerServer.Action → World
  | [] => p.world
  | a :: as => if (p.world.orders.get? orderId).isSome then p.world
    else asOrdered orderId (p.act a) as

/-- A database whose orders are as they were ordered: nothing is corrected, and nothing
voided. -/
structure AsPlaced (w : World) : Prop where
  uncorrected : ∀ k, w.orderEdits.get? k = none
  live : ∀ k i, w.orderItems.get? k = some i → i.voidedAt = none ∧ 1 ≤ i.qty
  /-- The foreign key of a line. -/
  refs : ∀ k i, w.orderItems.get? k = some i → ∃ o, w.orders.get? i.orderId = some o

/-- The lines, the totals and the history are as they were. -/
structure WroteNothing (w w' : World) : Prop where
  orderItems : w'.orderItems = w.orderItems
  orders : w'.orders = w.orders
  orderEdits : w'.orderEdits = w.orderEdits

/-- **The ledger law** of one run. -/
structure LedgerLaw (w₀ : World) (acts : List ledgerServer.Action) : Prop where
  /-- What an order's lines have lost is what its history says was taken off. -/
  explained : ∀ orderId, (((ledgerRun w₀ acts).world.allLines orderId).map (fun r =>
      (asOrdered orderId (Sys.Pool.init w₀) acts).qtyOf r.1 - (r.2.qty : ℤ))).sum
    = (ledgerRun w₀ acts).world.takenOff orderId
  /-- A quantity never rises, and a voided line stays voided. -/
  falls : ∀ pre post, acts = pre ++ post → ∀ k i,
    (ledgerRun w₀ pre).world.orderItems.get? k = some i →
    ∃ i', (ledgerRun w₀ acts).world.orderItems.get? k = some i' ∧ i'.qty ≤ i.qty
      ∧ (i.voidedAt ≠ none → i'.voidedAt = i.voidedAt)
  /-- A line is voided exactly when nothing of it is left. -/
  voided : ∀ k i, (ledgerRun w₀ acts).world.orderItems.get? k = some i →
    (i.voidedAt ≠ none ↔ i.qty = 0)
  /-- The history grows by corrections of orders still editable. -/
  editable : ∀ pre a post, acts = pre ++ a :: post → ∀ k e,
    (ledgerRun w₀ (pre ++ [a])).world.orderEdits.get? k = some e →
    (ledgerRun w₀ pre).world.orderEdits.get? k = none →
    ∃ o, (ledgerRun w₀ pre).world.orders.get? e.orderId = some o
      ∧ o.status ∈ EDITABLE_STATUSES
  /-- A correction that is not answered ok wrote nothing. -/
  refused : ∀ t ∈ (ledgerRun w₀ acts).threads, ∀ orderId venueId staffId staffName input x,
    t.req = .edit orderId venueId staffId staffName input → t.outcome = some x →
    (∀ done, x ≠ .ok (.edited (.ok done))) → ∀ e ∈ t.view.past, WroteNothing e.before e.after

/-! ## The lines of a committed edit -/

/-- What an order's lines come to, in dishes. -/
def pieces (items : Rows OrderItem) (orderId : Id) : ℤ :=
  items.total (fun _ i => if i.orderId == orderId then (i.qty : ℤ) else 0)

/-- **An edit of one order that only lowers**: each change is of one of the order's
lines, and to less than it was computed from. -/
def Lowers (orderId : Id) (items : Rows OrderItem) (es : List LineEdit) : Prop :=
  ∀ e ∈ es, e.toQty < e.fromQty ∧ ∃ i, items.get? e.id = some i ∧ i.orderId = orderId

/-- What becomes of a line: it stays its order's, it does not rise, and it is not voided
again, nor unvoided. -/
structure LineFalls (i i' : OrderItem) : Prop where
  orderId : i'.orderId = i.orderId
  qty : i'.qty ≤ i.qty
  voidedAt : i.voidedAt ≠ none → i'.voidedAt = i.voidedAt

theorem LineFalls.refl (i : OrderItem) : LineFalls i i := ⟨rfl, le_refl _, fun _ => rfl⟩

theorem LineFalls.trans {i i' i'' : OrderItem} (h : LineFalls i i') (h' : LineFalls i' i'') :
    LineFalls i i'' where
  orderId := h'.orderId.trans h.orderId
  qty := h'.qty.trans h.qty
  voidedAt hv := (h'.voidedAt (by rw [h.voidedAt hv]; exact hv)).trans (h.voidedAt hv)

/-- A line is voided exactly when nothing of it is left. -/
def VoidedWhenGone (items : Rows OrderItem) : Prop :=
  ∀ k i, items.get? k = some i → (i.voidedAt ≠ none ↔ i.qty = 0)

section

variable {e : LineEdit} {now : Time} {i : OrderItem}

@[simp] theorem LineEdit.apply_orderId : (e.apply now i).orderId = i.orderId := by
  unfold LineEdit.apply
  split
  · rfl
  · rfl

@[simp] theorem LineEdit.apply_qty : (e.apply now i).qty = e.toQty := by
  unfold LineEdit.apply
  split
  · next hzero => exact hzero.symm
  · rfl

/-- A line an edit finds is not voided, and is voided by it when nothing is left. -/
theorem LineEdit.apply_voided {id : Id} (h : e.hits id i = true) :
    (e.apply now i).voidedAt ≠ none ↔ (e.apply now i).qty = 0 := by
  rw [LineEdit.apply_qty]
  unfold LineEdit.apply
  split
  · next hzero => simp [hzero]
  · next hne => simp [hne, (LineEdit.hits_iff.mp h).2.2]

theorem LineEdit.falls {id : Id} (h : e.hits id i = true) (hlt : e.toQty < e.fromQty) :
    LineFalls i (e.apply now i) := by
  obtain ⟨_, hqty, hlive⟩ := LineEdit.hits_iff.mp h
  refine ⟨LineEdit.apply_orderId, ?_, fun hv => absurd hlive hv⟩
  rw [LineEdit.apply_qty, hqty]
  exact Nat.le_of_lt hlt

end

/-- **The line updates of a committed edit**, one after another: the order's lines lose what
the edits say, the other orders' lose nothing, every line falls, and a line is voided exactly
when nothing of it is left. -/
theorem applyEdits_pieces {now : Time} {orderId : Id} {es : List LineEdit}
    {items items' : Rows OrderItem} (h : World.applyEdits now es items = some items')
    (hl : Lowers orderId items es) :
    (∀ id, pieces items' id = pieces items id
        - if id = orderId then (es.map (fun e => (e.fromQty : ℤ) - e.toQty)).sum else 0)
      ∧ (∀ k, items'.get? k = none ↔ items.get? k = none)
      ∧ (∀ k i, items.get? k = some i → ∃ i', items'.get? k = some i' ∧ LineFalls i i')
      ∧ (VoidedWhenGone items → VoidedWhenGone items') := by
  induction es generalizing items with
  | nil =>
    cases h
    exact ⟨fun id => by simp, fun _ => Iff.rfl, fun _ i hi => ⟨i, hi, LineFalls.refl i⟩, id⟩
  | cons e es ih =>
    unfold World.applyEdits at h
    split at h
    · cases h
    · next hcount =>
      obtain ⟨hlt, i, hi, horder⟩ := hl e List.mem_cons_self
      -- the first update finds the line it names
      have hhits : e.hits e.id i = true := by
        obtain ⟨k, j, hj, hsel⟩ := Rows.exists_of_count hcount
        rw [(LineEdit.hits_iff.mp hsel).1, hi] at hj
        rw [(LineEdit.hits_iff.mp hsel).1] at hsel
        cases hj
        exact hsel
      have hget : ∀ k j, items.get? k = some j →
          (items.update e.hits (e.apply now)).get? k
            = some (if e.hits k j then e.apply now j else j) :=
        fun k j hj => Rows.get?_update_of_some hj _ _
      have hfirst : ∀ k j, items.get? k = some j →
          LineFalls j (if e.hits k j then e.apply now j else j) := by
        intro k j _
        split
        · next hsel => exact LineEdit.falls hsel hlt
        · exact LineFalls.refl j
      have hrest : Lowers orderId (items.update e.hits (e.apply now)) es := by
        intro e' he'
        obtain ⟨hlt', j, hj, hjo⟩ := hl e' (List.mem_cons_of_mem _ he')
        exact ⟨hlt', _, hget _ j hj, (hfirst _ j hj).orderId.trans hjo⟩
      obtain ⟨hpieces, hthere, hfalls, hvoid⟩ := ih h hrest
      refine ⟨fun id => ?_, fun k => ?_, fun k j hj => ?_, fun hv => hvoid (fun k j hj => ?_)⟩
      · have hone : pieces (items.update e.hits (e.apply now)) id = pieces items id
            - if id = orderId then (e.fromQty : ℤ) - e.toQty else 0 := by
          unfold pieces
          rw [Rows.total_update_one hi hhits (fun k u hk => (LineEdit.hits_iff.mp hk).1)]
          rw [LineEdit.apply_orderId, LineEdit.apply_qty, horder, (LineEdit.hits_iff.mp hhits).2.1]
          by_cases hid : id = orderId
          · simp only [hid, beq_self_eq_true, if_true]
            omega
          · simp [hid, Ne.symm hid]
        rw [hpieces, hone, List.map_cons, List.sum_cons]
        split
        · omega
        · omega
      · rw [hthere, Rows.get?_update, Option.map_eq_none_iff]
      · obtain ⟨j', hj', hfall⟩ := hfalls k _ (hget k j hj)
        exact ⟨j', hj', (hfirst k j hj).trans hfall⟩
      · rw [Rows.get?_update] at hj
        obtain ⟨j₀, hj₀, rfl⟩ := Option.map_eq_some_iff.mp hj
        split
        · next hsel => exact LineEdit.apply_voided hsel
        · exact hv k j₀ hj₀

/-! ## What an edit plans -/

/-- The history says of each change what its line's update does. -/
theorem collectEdits_taken {o : OrderForEdit} {lines : List EditLine}
    {es : List (LineChange × LineEdit)} (h : collectEdits o lines = some es) :
    (es.map Prod.snd).map (fun e => (e.fromQty : ℤ) - e.toQty)
        = (es.map Prod.fst).map LineChange.taken
      ∧ ∀ e ∈ es.map Prod.snd, e.toQty < e.fromQty := by
  induction lines generalizing es with
  | nil =>
    cases h
    exact ⟨rfl, by simp⟩
  | cons l rest ih =>
    unfold collectEdits at h
    split at h
    · cases h
    · split at h
      · cases h
      · next hle =>
        split at h
        · next hne =>
          obtain ⟨others, hothers, rfl⟩ := Option.map_eq_some_iff.mp h
          obtain ⟨htaken, hlt⟩ := ih hothers
          refine ⟨?_, fun e he => ?_⟩
          · simp only [List.map_cons]
            rw [htaken]
            rfl
          · rcases List.mem_cons.mp he with rfl | he
            · exact Nat.lt_of_le_of_ne (Nat.not_lt.mp hle) hne
            · exact hlt e he
        · exact ih h

/-! ## The protocol -/

/-- **The books**: lines and history rows are of orders there are, and a line is voided
exactly when nothing of it is left. -/
structure BooksInOrder (w : World) : Prop where
  lineRefs : ∀ k i, w.orderItems.get? k = some i → w.orders.get? i.orderId ≠ none
  editRefs : ∀ k e, w.orderEdits.get? k = some e → w.orders.get? e.orderId ≠ none
  voided : VoidedWhenGone w.orderItems

/-- **Orders are only corrected**: they stay, their lines fall and no line joins them, and
what the lines lose the history gains. -/
structure Corrected (w w' : World) : Prop where
  orders : ∀ id, w.orders.get? id ≠ none → w'.orders.get? id ≠ none
  falls : ∀ k i, w.orderItems.get? k = some i →
    ∃ i', w'.orderItems.get? k = some i' ∧ LineFalls i i'
  noneJoins : ∀ k i', w'.orderItems.get? k = some i' → w.orders.get? i'.orderId ≠ none →
    w.orderItems.get? k ≠ none
  balance : ∀ id, w.orders.get? id ≠ none →
    pieces w'.orderItems id + w'.takenOff id = pieces w.orderItems id + w.takenOff id

theorem Corrected.trans {w w' w'' : World} (h : Corrected w w') (h' : Corrected w' w'') :
    Corrected w w'' where
  orders id hid := h'.orders id (h.orders id hid)
  falls k i hi := by
    obtain ⟨i', hi', hfall⟩ := h.falls k i hi
    obtain ⟨i'', hi'', hfall'⟩ := h'.falls k i' hi'
    exact ⟨i'', hi'', hfall.trans hfall'⟩
  noneJoins k i'' hi'' hid := by
    cases hi' : w'.orderItems.get? k with
    | none => exact absurd hi' (h'.noneJoins k i'' hi'' (h.orders _ hid))
    | some i' =>
      obtain ⟨j, hj, hfall⟩ := h'.falls k i' hi'
      rw [hi''] at hj
      cases hj
      rw [hfall.orderId] at hid
      exact h.noneJoins k i' hi' hid
  balance id hid := (h'.balance id (h.orders id hid)).trans (h.balance id hid)

/-- A row of the history was there, or is of an order still editable. -/
def WhileEditable (w w' : World) : Prop :=
  ∀ k e, w'.orderEdits.get? k = some e → w.orderEdits.get? k = some e
    ∨ ∃ o, w.orders.get? e.orderId = some o ∧ o.status ∈ EDITABLE_STATUSES

/-- The lines and the history stay, and so do the orders, whatever is written in them. -/
structure SameLedger (w w' : World) : Prop where
  orderItems : w'.orderItems = w.orderItems
  orderEdits : w'.orderEdits = w.orderEdits
  orders : ∀ id, w'.orders.get? id = none ↔ w.orders.get? id = none

theorem SameLedger.of_eq {w w' : World} (hi : w'.orderItems = w.orderItems)
    (he : w'.orderEdits = w.orderEdits) (ho : w'.orders = w.orders) : SameLedger w w' :=
  ⟨hi, he, fun id => by rw [ho]⟩

theorem SameLedger.corrected {w w' : World} (h : SameLedger w w') : Corrected w w' where
  orders id hid := mt (h.orders id).mp hid
  falls k i hi := ⟨i, by rw [h.orderItems, hi], LineFalls.refl i⟩
  noneJoins k i' hi' _ := by
    rw [← h.orderItems, hi']
    exact Option.some_ne_none i'
  balance id _ := by
    unfold World.takenOff
    rw [h.orderItems, h.orderEdits]

theorem SameLedger.inOrder {w w' : World} (h : SameLedger w w') (hw : BooksInOrder w) :
    BooksInOrder w' where
  lineRefs k i hi := by
    rw [h.orderItems] at hi
    exact mt (h.orders _).mp (hw.lineRefs k i hi)
  editRefs k e he := by
    rw [h.orderEdits] at he
    exact mt (h.orders _).mp (hw.editRefs k e he)
  voided := by
    rw [h.orderItems]
    exact hw.voided

theorem WhileEditable.of_eq {w w' : World} (h : w'.orderEdits = w.orderEdits) :
    WhileEditable w w' := by
  intro k e he
  rw [h] at he
  exact .inl he

/-- Lines and history go together, and the history is of orders still editable. -/
abbrev ledgerProtocol : Protocol ledgerServer where
  Inv := BooksInOrder
  Evolves w w' := Corrected w w' ∧ WhileEditable w w'
  refl _ := ⟨(SameLedger.of_eq rfl rfl rfl).corrected, WhileEditable.of_eq rfl⟩

theorem corrected_of_rely {w w' : World} (h : ledgerProtocol.Rely w w') : Corrected w w' :=
  h.stable (D := fun u : World => Corrected w u) (fun _ _ hstep hu => hu.trans hstep.1)
    (SameLedger.of_eq rfl rfl rfl).corrected

theorem SameLedger.takes {r : LedgerRequest} {v : View api World} {w w' : World} {op : Call}
    (h : SameLedger w w') (hw : BooksInOrder w) : ledgerProtocol.Takes r v ⟨op, w, w'⟩ :=
  ⟨h.inOrder hw, ⟨h.corrected, WhileEditable.of_eq h.orderEdits⟩, trivial⟩

/-! ### Placing -/

/-- **A new order brings its own lines**, and leaves the others' alone. -/
theorem corrected_insertOrder {w : World} (hw : BooksInOrder w) {data : NewOrder}
    {items : List NewOrderItem} (hp : Priced data items) :
    BooksInOrder (w.insertOrder data items) ∧ Corrected w (w.insertOrder data items) := by
  have horders : ∀ id, w.orders.get? id ≠ none → (w.insertOrder data items).orders.get? id ≠ none := by
    intro id hid
    obtain ⟨o, ho⟩ := Option.ne_none_iff_exists'.mp hid
    have hkept : (w.insertOrder data items).orders.get? id = some o := Rows.get?_create_of_some ho
    rw [hkept]
    exact Option.some_ne_none o
  -- a line after the insertion was there, or is one of the new order's
  have hline : ∀ k i, (w.insertOrder data items).orderItems.get? k = some i →
      w.orderItems.get? k = some i ∨ ∃ new ∈ items, i = new.row w.orders.next := by
    intro k i hi
    rcases Rows.get?_createAll hi with hold | hnew
    · exact .inl hold
    · obtain ⟨new, hmem, rfl⟩ := List.mem_map.mp hnew
      exact .inr ⟨new, hmem, rfl⟩
  refine ⟨⟨fun k i hi => ?_, fun k e he => horders _ (hw.editRefs k e he), fun k i hi => ?_⟩,
    horders, fun k i hi => ⟨i, Rows.get?_createAll_of_some hi, LineFalls.refl i⟩,
    fun k i hi hid => ?_, fun id hid => ?_⟩
  · rcases hline k i hi with hold | ⟨new, _, rfl⟩
    · exact horders _ (hw.lineRefs k i hold)
    · show (w.orders.create _).get? w.orders.next ≠ none
      rw [Rows.get?_create_next]
      exact Option.some_ne_none _
  · rcases hline k i hi with hold | ⟨new, hmem, rfl⟩
    · exact hw.voided k i hold
    · have hpos : 1 ≤ new.qty := hp.positive new hmem
      exact iff_of_false (fun hv => hv rfl) (Nat.ne_of_gt hpos)
  · rcases hline k i hi with hold | ⟨new, _, rfl⟩
    · rw [hold]
      exact Option.some_ne_none i
    · exact absurd (Rows.get?_next w.orders) hid
  · have hne : w.orders.next ≠ id := by
      rintro rfl
      exact hid (Rows.get?_next w.orders)
    unfold pieces World.takenOff
    show (w.orderItems.createAll _).total _ + _ = _
    rw [Rows.total_createAll, List.map_map]
    have hzero : (items.map ((fun i : OrderItem => if i.orderId == id then (i.qty : ℤ) else 0)
        ∘ NewOrderItem.row w.orders.next)).sum = 0 := by
      refine List.sum_eq_zero (fun x hx => ?_)
      obtain ⟨new, _, rfl⟩ := List.mem_map.mp hx
      exact if_neg (by simpa [NewOrderItem.row] using hne)
    rw [hzero, add_zero]
    rfl

/-! ### Correcting -/

/-- The transaction of an edit leaves the orders there are, and adds one row of
history. -/
theorem orderEditTransaction_ledger {w w' : World} {orderId : Id} {statuses : List OrderStatus}
    {edits : List LineEdit} {total : ℤ} {entry : NewOrderEdit} {b : Bool}
    (hx : w.orderEditTransaction orderId statuses edits total entry = (w', b)) :
    (w' = w ∧ b = false)
      ∨ b = true ∧ (∃ o, w.orders.get? orderId = some o ∧ o.status ∈ statuses)
        ∧ World.applyEdits w.now edits w.orderItems = some w'.orderItems
        ∧ (∀ id, w'.orders.get? id = none ↔ w.orders.get? id = none)
        ∧ w'.orderEdits = w.orderEdits.create ⟨orderId, entry.staffId, entry.staffName,
          entry.changes, entry.afterPrint, w.now⟩ := by
  rcases orderEditTransaction_cases hx with h | ⟨items, order, rfl, happ, horder, hstatus, hitems,
      horders, _⟩
  · exact .inl h
  · refine .inr ⟨rfl, ⟨order, horder, hstatus⟩, by rw [hitems, happ], fun id => ?_, ?_⟩
    · rw [horders, Rows.get?_update, Option.map_eq_none_iff]
    · unfold World.orderEditTransaction at hx
      rw [happ] at hx
      dsimp only at hx
      split at hx
      · cases hx
      · cases hx
        rfl

/-- **A committed edit takes off its lines what it writes into the history.** -/
theorem corrected_edit {w w₁ w' : World} (hw : BooksInOrder w) (hrely : Corrected w₁ w)
    {orderId venueId : Id} {o : OrderForEdit} {input : OrderEditInput} {plan : EditPlan}
    (ho : w₁.orderForEdit orderId venueId = some o) (hplan : planEdit o input = .ok plan)
    {staffId : Id} {staffName : Text} {order : Order} (horder : w.orders.get? orderId = some order)
    (happ : World.applyEdits w.now plan.edits w.orderItems = some w'.orderItems)
    (horders : ∀ id, w'.orders.get? id = none ↔ w.orders.get? id = none)
    (hedits : w'.orderEdits = w.orderEdits.create ⟨orderId, staffId, staffName, plan.changes,
      plan.afterPrint, w.now⟩) : BooksInOrder w' ∧ Corrected w w' := by
  obtain ⟨_, ⟨changed, hchanged, _, hplanned, hchanges⟩, _⟩ := planEdit_spec hplan
  obtain ⟨htaken, hlt⟩ := collectEdits_taken hchanged
  -- the lines the edit names are the order's, in the world it commits in
  have hlowers : Lowers orderId w.orderItems plan.edits := by
    intro e he
    obtain ⟨l, _, i, hi, _, rfl⟩ := (mem_edits ho hplan).mp he
    obtain ⟨hrow, hio, _⟩ := mem_liveItems.mp hi
    obtain ⟨i', hi', hfall⟩ := hrely.falls _ i hrow
    exact ⟨hlt _ (hplanned ▸ he), i', hi', hfall.orderId.trans hio⟩
  obtain ⟨hpieces, hthere, hfalls, hvoid⟩ := applyEdits_pieces happ hlowers
  have hback : ∀ k i', w'.orderItems.get? k = some i' → ∃ i, w.orderItems.get? k = some i
      ∧ LineFalls i i' := by
    intro k i' hi'
    have hne : w.orderItems.get? k ≠ none := by
      intro hnone
      rw [(hthere k).mpr hnone] at hi'
      cases hi'
    obtain ⟨i, hi⟩ := Option.ne_none_iff_exists'.mp hne
    obtain ⟨j, hj, hfall⟩ := hfalls k i hi
    rw [hi'] at hj
    cases hj
    exact ⟨i, hi, hfall⟩
  refine ⟨⟨fun k i' hi' => ?_, fun k e he => ?_, hvoid hw.voided⟩,
    fun id hid => mt (horders id).mp hid, hfalls, fun k i' hi' _ => ?_, fun id _ => ?_⟩
  · obtain ⟨i, hi, hfall⟩ := hback k i' hi'
    rw [hfall.orderId]
    exact mt (horders _).mp (hw.lineRefs k i hi)
  · rw [hedits, Rows.get?_create] at he
    refine mt (horders _).mp ?_
    split at he
    · cases he
      rw [horder]
      exact Option.some_ne_none order
    · exact hw.editRefs k e he
  · obtain ⟨i, hi, _⟩ := hback k i' hi'
    rw [hi]
    exact Option.some_ne_none i
  · have hgain : w'.takenOff id = w.takenOff id
        + if id = orderId then (plan.changes.map LineChange.taken).sum else 0 := by
      unfold World.takenOff
      rw [hedits, Rows.filter_create, List.map_append, List.sum_append]
      congr 1
      by_cases hid : id = orderId
      · rw [if_pos hid, if_pos (by simp [hid])]
        simp [OrderEdit.taken]
      · rw [if_neg hid, if_neg (by simpa using Ne.symm hid)]
        rfl
    rw [hpieces, hgain, hplanned, hchanges, htaken]
    split
    · omega
    · omega

/-! ## Each handler keeps it -/

/-- A call of a handler that corrects nothing: a change of the orders' rows, a well-priced
insertion, a call of the outbox, or a harmless one. -/
def Call.LedgerWork : Call → Prop
  | .orderUpdate _ _ | .orderUpdateMany _ _ => True
  | op => op.PlaceWork Priced ∨ op.OutboxWork

theorem Call.PlaceWork.ledgerWork {op : Call} (h : op.PlaceWork Priced) : op.LedgerWork := by
  cases op <;> first
    | exact trivial
    | exact Or.inl h

theorem Call.OutboxWork.ledgerWork {op : Call} (h : op.OutboxWork) : op.LedgerWork := by
  cases op <;> first
    | exact trivial
    | exact Or.inr h

/-- Such a call inserts an order, or leaves lines, history and orders where they are. -/
theorem ledgerWork_cases {op : Call} (h : op.LedgerWork) :
    (∃ data items, op = .orderCreate data items ∧ Priced data items)
      ∨ ∀ c w, SameLedger w (World.exec c op w).1 := by
  have hother : op.PlaceWork Priced ∨ op.OutboxWork →
      (∃ data items, op = .orderCreate data items ∧ Priced data items)
        ∨ ∀ c w, SameLedger w (World.exec c op w).1 := by
    rintro (h | h)
    · refine (placeWork_cases h).imp_right (fun hop c w => ?_)
      have hsame := exec_harmless (c := c) hop w
      exact SameLedger.of_eq hsame.orderItems hsame.orderEdits hsame.orders
    · refine .inr (fun c w => ?_)
      obtain ⟨deliveries, heq⟩ := exec_outboxWork (c := c) h w
      rw [heq]
      exact SameLedger.of_eq rfl rfl rfl
  cases op with
  | orderUpdate id data =>
    refine .inr (fun c w => ?_)
    show SameLedger w (w.orderUpdate id data).1
    unfold World.orderUpdate
    split
    · exact SameLedger.of_eq rfl rfl rfl
    · exact ⟨rfl, rfl, fun k => by
        show (w.orders.updateAt id data).get? k = none ↔ _
        rw [Rows.get?_updateAt, Option.map_eq_none_iff]⟩
  | orderUpdateMany cond data =>
    refine .inr (fun c w => ⟨rfl, rfl, fun k => ?_⟩)
    show (w.orders.update cond data).get? k = none ↔ _
    rw [Rows.get?_update, Option.map_eq_none_iff]
  | _ => exact hother h

theorem ledgerWork_takes {r : LedgerRequest} {v : View api World} {c : Choice} {op : Call}
    (h : op.LedgerWork) {w : World} (hw : BooksInOrder w) :
    ledgerProtocol.Takes r v ⟨op, w, (World.exec c op w).1⟩ := by
  rcases ledgerWork_cases h with ⟨data, items, rfl, hp⟩ | hsame
  · show ledgerProtocol.Takes r v ⟨_, w, (w.orderCreate c data items).1⟩
    rcases orderCreate_world c w data items with hx | hx
    · rw [hx]
      exact (SameLedger.of_eq rfl rfl rfl).takes hw
    · obtain ⟨hinv, hcorrected⟩ := corrected_insertOrder hw hp
      rw [hx]
      exact ⟨hinv, ⟨hcorrected, WhileEditable.of_eq rfl⟩, trivial⟩
  · exact (hsame c w).takes hw

section

variable {r : LedgerRequest} {v : View api World}

/-- Such handlers keep the books, whatever fails. -/
theorem ok_ledgerWork {α : Type} {B : α → Prop} {p : Api α} (hp : p.Calls Call.LedgerWork B) :
    ledgerProtocol.Ok r (fun _ _ => True) v p := by
  refine Protocol.ok_mono (Protocol.ok_of_calls hp (fun v w c op hop hw _ => ?_))
    (fun _ _ _ => trivial)
  dsimp only [server]
  split
  · exact (SameLedger.of_eq rfl rfl rfl).takes hw
  · exact ledgerWork_takes hop hw

theorem patchOrder_calls (staff : Option StaffClaims) (id : Id) (body : PatchBody) :
    (patchOrder staff id body).Calls Call.LedgerWork (fun _ => True) := by
  unfold patchOrder
  cases staff with
  | none => exact trivial
  | some staff =>
    refine Prog.calls_bind (Prog.calls_perform (S := api) (Or.inl trivial)) (fun found _ => ?_)
    split
    · exact trivial
    · split
      · exact trivial
      · split
        · exact trivial
        · refine Prog.calls_bind (Prog.calls_perform (S := api) trivial) (fun updated _ => ?_)
          split
          · exact Prog.calls_bind (Prog.calls_perform (S := api) (Or.inl trivial)) (fun _ _ =>
              Prog.calls_bind (Prog.calls_perform (S := api) (Or.inl trivial)) (fun _ _ => trivial))
          · exact Prog.calls_bind (Prog.calls_perform (S := api) (Or.inl trivial)) (fun _ _ => trivial)

theorem cancelOrder_calls (cookie : Option ℕ) (caller : Caller) (id : Id) :
    (cancelOrder cookie caller id).Calls Call.LedgerWork (fun _ => True) := by
  have hharmless : ∀ op : Call, op.Harmless → op.LedgerWork :=
    fun _ h => (Call.Harmless.placeWork h).ledgerWork
  unfold cancelOrder
  refine Prog.calls_bind (Prog.calls_mono (getActiveSession_calls cookie none) hharmless
    (fun _ h => h)) (fun session _ => ?_)
  split
  · exact trivial
  · refine Prog.calls_bind (Prog.calls_perform (S := api) (Or.inl trivial)) (fun found _ => ?_)
    split
    · exact trivial
    · split
      · exact trivial
      · refine Prog.calls_bind (Prog.calls_perform (S := api) trivial) (fun count _ => ?_)
        dsimp only
        split
        · exact trivial
        · exact Prog.calls_bind (Prog.calls_mono (logAttempt_calls _ _ _) hharmless (fun _ h => h))
            (fun _ _ => Prog.calls_bind (Prog.calls_perform (S := api) (Or.inl trivial)) (fun _ _ => trivial))

/-- **What an edit's answer promises**: it is ok, or nothing was written. -/
def editPost (v : View api World) (x : Except DbError (Except EditError EditOk)) : Prop :=
  (∃ done, x = .ok (.ok done)) ∨ ∀ e ∈ v.past, WroteNothing e.before e.after

/-- **A correction keeps the books**, and writes nothing unless it is answered ok. -/
theorem editOrder_ledger {w₀ : World} (orderId venueId staffId : Id) (staffName : Text)
    (input : OrderEditInput) : ledgerProtocol.Ok r editPost ⟨w₀, []⟩
      (editOrder orderId venueId staffId staffName input) := by
  -- a call that left the world as it was
  have hidle : ∀ (v : View api World) (op : Call) (w : World),
      (∀ e ∈ v.past, WroteNothing e.before e.after) →
      ∀ e ∈ (v.push ⟨op, w, w⟩).past, WroteNothing e.before e.after := by
    intro v op w hv e he
    rcases List.mem_cons.mp he with rfl | he
    · exact ⟨rfl, rfl, rfl⟩
    · exact hv e he
  have hnil : ∀ e ∈ (⟨w₀, []⟩ : View api World).past, WroteNothing e.before e.after := by
    intro e he
    cases he
  unfold editOrder
  refine ok_any_query (fun r v w q hw => (SameLedger.of_eq rfl rfl rfl).takes hw) _
    (fun w₁ _ _ => ?_) (fun w => .inr (hidle _ _ w hnil))
  split
  · exact .inr (hidle _ _ w₁ hnil)
  · next o ho =>
    split
    · exact .inr (hidle _ _ w₁ hnil)
    · next plan hplan =>
      refine ok_any (fun w c w' x hw hrely _ hx => ?_)
      rcases hx with hx | ⟨_, rfl, rfl⟩
      · obtain ⟨b, rfl, hcommit⟩ := exec_orderEditTransaction hx
        rcases orderEditTransaction_ledger hcommit with ⟨rfl, rfl⟩ | ⟨rfl, ⟨order, horder, hstatus⟩, happ,
            horders, hedits⟩
        · exact ⟨(SameLedger.of_eq rfl rfl rfl).takes hw, .inr (hidle _ _ _ (hidle _ _ w₁ hnil))⟩
        · obtain ⟨hinv, hcorrected⟩ := corrected_edit hw (corrected_of_rely hrely) ho hplan horder
            happ horders hedits
          refine ⟨⟨hinv, ⟨hcorrected, fun k e he => ?_⟩, trivial⟩, ?_⟩
          · rw [hedits, Rows.get?_create] at he
            split at he
            · cases he
              exact .inr ⟨order, horder, hstatus⟩
            · exact .inl he
          · -- the event is the process's own business, and does not fail
            intro u c' hu _ _
            rw [show ledgerServer.exec c' (.publish _) u = World.exec c' (.publish _) u from
              if_neg (by simp [Call.onDatabase])]
            exact ⟨ledgerWork_takes (show Call.LedgerWork (.publish _) from Or.inl trivial) hu, .inl ⟨_, rfl⟩⟩
      · exact ⟨(SameLedger.of_eq rfl rfl rfl).takes hw, .inr (hidle _ _ _ (hidle _ _ w₁ hnil))⟩

end

/-- What each answer promises. -/
def ledgerPost : LedgerRequest → View api World → Except DbError LedgerAnswer → Prop
  | .edit .., v, x =>
    (∃ done, x = .ok (.edited (.ok done))) ∨ ∀ e ∈ v.past, WroteNothing e.before e.after
  | _, _, _ => True

theorem ledgerSound : ledgerProtocol.Sound ledgerPost where
  env e w hw := by
    cases e with
    | tick ms =>
      have hsame : SameLedger w { w with now := w.now + ms } := SameLedger.of_eq rfl rfl rfl
      exact ⟨hsame.inOrder hw, hsame.corrected, WhileEditable.of_eq rfl⟩
    | crash => exact ⟨hw, ledgerProtocol.refl w⟩
  entry r w _ := by
    cases r with
    | place req =>
      exact Protocol.ok_map (ok_ledgerWork (Prog.calls_mono (postOrder_calls req)
        (fun _ h => h.ledgerWork) (fun _ h => h)))
    | edit orderId venueId staffId staffName input =>
      refine Protocol.ok_map (Protocol.ok_mono
        (editOrder_ledger orderId venueId staffId staffName input) (fun v x hx => ?_))
      rcases hx with ⟨done, rfl⟩ | hx
      · exact .inl ⟨done, rfl⟩
      · exact .inr hx
    | patch staff id body => exact Protocol.ok_map (ok_ledgerWork (patchOrder_calls staff id body))
    | cancel cookie caller id =>
      exact Protocol.ok_map (ok_ledgerWork (cancelOrder_calls cookie caller id))
    | enqueue job =>
      exact Protocol.ok_map (ok_ledgerWork (Prog.calls_mono (enqueuePosDelivery_calls _ _)
        (fun _ h => h.ledgerWork) (fun _ h => h)))

/-! ## The law -/

/-- The first world that has an order is one of the run's; the world before it, if there is
one, has not. -/
theorem asOrdered_spec (orderId : Id) (p : ledgerServer.Pool) (acts : List ledgerServer.Action) :
    ∃ pre post, acts = pre ++ post ∧ asOrdered orderId p acts = (p.run pre).world
      ∧ ((p.run pre).world.orders.get? orderId = none → post = [])
      ∧ (pre = [] ∨ ∃ before a, pre = before ++ [a]
        ∧ (p.run before).world.orders.get? orderId = none) := by
  induction acts generalizing p with
  | nil => exact ⟨[], [], rfl, rfl, fun _ => rfl, .inl rfl⟩
  | cons a as ih =>
    unfold asOrdered
    split
    · next hsome =>
      refine ⟨[], a :: as, rfl, rfl, fun hnone => ?_, .inl rfl⟩
      rw [show p.world.orders.get? orderId = none from hnone] at hsome
      cases hsome
    · next hnone =>
      rw [Option.not_isSome_iff_eq_none] at hnone
      obtain ⟨pre, post, rfl, hworld, hpost, hbefore⟩ := ih (p.act a)
      refine ⟨a :: pre, post, rfl, hworld, hpost, .inr ?_⟩
      rcases hbefore with rfl | ⟨before, b, rfl, hb⟩
      · exact ⟨[], a, rfl, hnone⟩
      · exact ⟨a :: before, b, rfl, hb⟩

/-- An order that is not there has no lines and no history. -/
theorem BooksInOrder.absent {w : World} (h : BooksInOrder w) {orderId : Id}
    (hnone : w.orders.get? orderId = none) : w.allLines orderId = [] ∧ w.takenOff orderId = 0 := by
  constructor
  · refine List.eq_nil_iff_forall_not_mem.mpr (fun r hr => ?_)
    obtain ⟨hrow, horder⟩ := Rows.mem_filter.mp hr
    exact h.lineRefs r.1 r.2 hrow ((beq_iff_eq.mp horder).symm ▸ hnone)
  · refine List.sum_eq_zero (fun x hx => ?_)
    obtain ⟨r, hr, rfl⟩ := List.mem_map.mp hx
    obtain ⟨hrow, horder⟩ := Rows.mem_filter.mp hr
    exact absurd ((beq_iff_eq.mp horder).symm ▸ hnone) (h.editRefs r.1 r.2 hrow)

/-- **What the lines lose the history gains**, from the world an order was first in. -/
theorem Corrected.explained {w w' : World} (h : Corrected w w') {orderId : Id}
    (hid : w.orders.get? orderId ≠ none) (hzero : w.takenOff orderId = 0) :
    ((w'.allLines orderId).map (fun r => w.qtyOf r.1 - (r.2.qty : ℤ))).sum
      = w'.takenOff orderId := by
  -- the lines of the order are the same ones
  have hkeys : (w'.allLines orderId).map Prod.fst = (w.allLines orderId).map Prod.fst := by
    refine Rows.filter_keys_eq (fun k => ⟨fun ⟨i', hi', ho'⟩ => ?_, fun ⟨i, hi, ho⟩ => ?_⟩)
    · obtain ⟨i, hi⟩ := Option.ne_none_iff_exists'.mp
        (h.noneJoins k i' hi' (by rw [beq_iff_eq.mp ho']; exact hid))
      obtain ⟨j, hj, hfall⟩ := h.falls k i hi
      rw [hi'] at hj
      cases hj
      exact ⟨i, hi, by rw [← hfall.orderId]; exact ho'⟩
    · obtain ⟨i', hi', hfall⟩ := h.falls k i hi
      exact ⟨i', hi', by rw [hfall.orderId]; exact ho⟩
  have hpieces : ∀ u : World, ((u.allLines orderId).map (fun r => (r.2.qty : ℤ))).sum
      = pieces u.orderItems orderId := by
    intro u
    exact Rows.sum_filter u.orderItems (fun _ i => i.orderId == orderId) (fun _ i => (i.qty : ℤ))
  have hbefore : ((w'.allLines orderId).map (fun r => w.qtyOf r.1)).sum
      = pieces w.orderItems orderId := by
    rw [← hpieces w, show (w'.allLines orderId).map (fun r => w.qtyOf r.1)
      = ((w'.allLines orderId).map Prod.fst).map w.qtyOf by rw [List.map_map]; rfl, hkeys,
      List.map_map]
    refine congrArg List.sum (List.map_congr_left (fun r hr => ?_))
    show ((w.orderItems.get? r.1).map _).getD 0 = _
    rw [(Rows.mem_filter.mp hr).1]
    rfl
  have hsplit : ∀ l : List (Id × OrderItem), (l.map (fun r => w.qtyOf r.1 - (r.2.qty : ℤ))).sum
      = (l.map (fun r => w.qtyOf r.1)).sum - (l.map (fun r => (r.2.qty : ℤ))).sum := by
    intro l
    induction l with
    | nil => rfl
    | cons r rs ih =>
      simp only [List.map_cons, List.sum_cons, ih]
      omega
  have hbalance := h.balance orderId hid
  rw [hsplit, hbefore, hpieces w']
  omega

/-- **The history explains every quantity**, in every run from a database whose orders are as
they were ordered. -/
theorem ledger_explains (w₀ : World) (acts : List ledgerServer.Action) (h₀ : AsPlaced w₀) :
    LedgerLaw w₀ acts := by
  have hinv₀ : BooksInOrder w₀ := by
    refine ⟨fun k i hi => ?_, fun k e he => ?_, fun k i hi => ?_⟩
    · obtain ⟨o, ho⟩ := h₀.refs k i hi
      rw [ho]
      exact Option.some_ne_none o
    · rw [h₀.uncorrected k] at he
      cases he
    · obtain ⟨hlive, hqty⟩ := h₀.live k i hi
      exact iff_of_false (fun hv => hv hlive) (Nat.ne_of_gt hqty)
  -- the protocol assumes nothing of the steps
  have hmeets : ∀ as : List ledgerServer.Action,
      (Sys.Pool.init w₀ : ledgerServer.Pool).Meets ledgerProtocol.cond as = true :=
    fun as => ledgerProtocol.meets_cond (fun _ _ _ _ _ => rfl) _ as
  have hok : ∀ as, ledgerProtocol.PoolOk ledgerPost w₀ (ledgerRun w₀ as) :=
    fun as => ledgerSound.run hinv₀ (hmeets as)
  have hwhile : ∀ pre a, WhileEditable (ledgerRun w₀ pre).world (ledgerRun w₀ (pre ++ [a])).world :=
    fun pre a => (ledgerSound.run_step hinv₀ (hmeets (pre ++ a :: []))).2
  have hlater : ∀ pre post, acts = pre ++ post →
      Corrected (ledgerRun w₀ pre).world (ledgerRun w₀ acts).world := by
    rintro pre post rfl
    exact corrected_of_rely (ledgerSound.run_rely hinv₀ (hmeets _))
  refine ⟨fun orderId => ?_, fun pre post hacts k i hi => ?_, (hok acts).inv.voided,
    fun pre a post hacts k e he hnone => ?_, fun t ht orderId venueId staffId staffName input x hreq
      hx hnot => ?_⟩
  · obtain ⟨pre, post, hacts, hworld, hpost, hbefore⟩ :=
      asOrdered_spec orderId (Sys.Pool.init w₀) acts
    rw [hworld]
    show ((World.allLines _ orderId).map (fun r => (ledgerRun w₀ pre).world.qtyOf r.1 - _)).sum = _
    by_cases hthere : (ledgerRun w₀ pre).world.orders.get? orderId = none
    · -- the run has no such order
      obtain rfl := hpost hthere
      rw [List.append_nil] at hacts
      subst hacts
      obtain ⟨hlines, htaken⟩ := (hok acts).inv.absent hthere
      rw [hlines, htaken]
      rfl
    · refine (hlater pre post hacts).explained hthere ?_
      refine List.sum_eq_zero (fun x hx => ?_)
      obtain ⟨r, hr, rfl⟩ := List.mem_map.mp hx
      obtain ⟨hrow, horder⟩ := Rows.mem_filter.mp hr
      exfalso
      rcases hbefore with rfl | ⟨before, a, rfl, hnone⟩
      · rw [show (ledgerRun w₀ []).world.orderEdits.get? r.1 = none from h₀.uncorrected r.1] at hrow
        cases hrow
      · rw [← beq_iff_eq.mp horder] at hnone
        rcases hwhile before a r.1 r.2 hrow with hold | ⟨o, ho, _⟩
        · exact (hok before).inv.editRefs r.1 r.2 hold hnone
        · rw [show (ledgerRun w₀ before).world.orders.get? r.2.orderId = some o from ho] at hnone
          cases hnone
  · obtain ⟨i', hi', hfall⟩ := (hlater pre post hacts).falls k i hi
    exact ⟨i', hi', hfall.qty, hfall.voidedAt⟩
  · rcases hwhile pre a k e he with hold | heditable
    · rw [hold] at hnone
      cases hnone
    · exact heditable
  · have hpost := (hok acts).post ht hx
    rw [hreq] at hpost
    rcases hpost with ⟨done, rfl⟩ | huntouched
    · exact absurd rfl (hnot done)
    · exact huntouched

/-- An order of two of a dish, placed, and corrected to one. -/
def correctedRun : List ledgerServer.Action :=
  [.arrive (.place twoDishes)] ++ List.replicate 9 (.step 0 plain)
    ++ [.arrive (.edit 0 0 0 [] lowered), .step 1 plain, .step 1 plain, .step 1 plain]

example : (ledgerRun kitchenOpen correctedRun).world.takenOff 0 = 1 := by decide

/-- The law on a run of an order and its correction. -/
theorem ledger_explains_lowered : LedgerLaw kitchenOpen correctedRun :=
  ledger_explains kitchenOpen correctedRun
    ⟨fun _ => rfl, fun _ _ h => (by cases h), fun _ _ h => (by cases h)⟩

end Masadan
