import Masadan.Replay

/-!
# The caps on a customer's orders

A session may place five orders in ten minutes, and a table may have ten orders in
the kitchen. The route counts both when a submission comes in; the menu is read and
the dishes are priced, and then the order is inserted, without another look.

`order_caps` is what holds when no insertion finds a cap reached that its submission
had found open: the caps hold, of every session in every window and of every table. No
insertion does in a run in which no order comes between a submission's counts and its
insertion (`caps_open_of_counted`). `order_caps_fails` is a phone that submits six times at once.
-/

namespace Masadan

/-! ## The caps -/

/-- The orders of a session created after `start` and within one window of it. -/
def World.ordersInWindow (w : World) (sessionId : Id) (start : Time) : ℕ :=
  w.orders.count (fun _ o => o.sessionId == sessionId
    && (decide (start < o.createdAt) && decide (o.createdAt ≤ start + SESSION_WINDOW_MS)))

/-- **The caps hold**, and no order is of a later time. -/
structure Capped (w : World) : Prop where
  /-- Of every session, in every window. -/
  session : ∀ sessionId start,
    w.ordersInWindow sessionId start ≤ MAX_ORDERS_PER_SESSION_WINDOW
  /-- Of every table. -/
  table : ∀ tableId, w.openOrders tableId ≤ MAX_OPEN_ORDERS_PER_TABLE
  past : ∀ id o, w.orders.get? id = some o → o.createdAt ≤ w.now

/-- **The check, made again at the insertion**, passes. -/
def stillBelow (op : Call) (w : World) : Bool :=
  match op with
  | .orderCreate data _ => decide (w.recentOrders data.sessionId < MAX_ORDERS_PER_SESSION_WINDOW)
    && decide (w.openOrders data.tableId < MAX_OPEN_ORDERS_PER_TABLE)
  | _ => true

/-- The caps hold, given that the check would pass again. -/
abbrev capProtocol : Protocol orderServer where
  Inv := Capped
  Evolves _ _ := True
  refl _ := trivial
  Guard _ _ _ op w := stillBelow op w

theorem Capped.congr {w w' : World} (h : Capped w) (ho : w'.orders = w.orders)
    (hnow : w.now ≤ w'.now) : Capped w' where
  session sessionId start := by
    unfold World.ordersInWindow
    rw [ho]
    exact h.session sessionId start
  table tableId := by
    unfold World.openOrders
    rw [ho]
    exact h.table tableId
  past id o hid := by
    rw [ho] at hid
    exact (h.past id o hid).trans hnow

theorem cap_allows : AllowsHarmless capProtocol :=
  fun _ _ _ _ _ _ h hw => ⟨hw.congr h.orders h.now.ge, trivial, trivial⟩

/-- A window that reaches the present has no more in it than the last one. -/
theorem ordersInWindow_le {w : World} {sessionId : Id} {start : Time}
    (h : w.now ≤ start + SESSION_WINDOW_MS) :
    w.ordersInWindow sessionId start ≤ w.recentOrders sessionId := by
  unfold World.ordersInWindow World.recentOrders
  refine Rows.count_mono (fun id o _ hp => ?_)
  rw [Bool.and_eq_true, Bool.and_eq_true, decide_eq_true_eq, decide_eq_true_eq] at hp
  rw [Bool.and_eq_true, decide_eq_true_eq]
  exact ⟨hp.1, (Int.sub_right_le_of_le_add h).trans_lt hp.2.1⟩

/-- **An insertion below the caps.** -/
theorem Capped.insertOrder {w : World} (h : Capped w) {data : NewOrder} {items : List NewOrderItem}
    (hbelow : stillBelow (.orderCreate data items) w = true) :
    Capped (w.insertOrder data items) := by
  obtain ⟨hsession, htable⟩ := Bool.and_eq_true_iff.mp hbelow
  rw [decide_eq_true_eq] at hsession htable
  refine ⟨fun sessionId start => ?_, fun tableId => ?_, fun id o hid => ?_⟩
  · have hold := h.session sessionId start
    unfold World.ordersInWindow at hold ⊢
    show (w.orders.create _).count _ ≤ _
    rw [Rows.count_create]
    split
    · next hnew =>
      -- the window holds the present, and what it holds was recent
      rw [Bool.and_eq_true, Bool.and_eq_true, beq_iff_eq, decide_eq_true_eq,
        decide_eq_true_eq] at hnew
      obtain ⟨rfl, _, hreach⟩ := hnew
      have hle : w.ordersInWindow data.sessionId start ≤ w.recentOrders data.sessionId :=
        ordersInWindow_le hreach
      unfold World.ordersInWindow at hle
      exact Nat.succ_le_of_lt (lt_of_le_of_lt hle hsession)
    · exact hold
  · have hold := h.table tableId
    unfold World.openOrders at hold ⊢
    show (w.orders.create _).count _ ≤ _
    rw [Rows.count_create]
    split
    · next hnew =>
      rw [Bool.and_eq_true, beq_iff_eq] at hnew
      obtain ⟨rfl, _⟩ := hnew
      exact Nat.succ_le_of_lt htable
    · exact hold
  · have hget : (w.orders.create _).get? id = some o := hid
    rw [Rows.get?_create] at hget
    split at hget
    · cases hget
      exact le_refl _
    · exact h.past id o hget

theorem postOrder_capped (req : OrderRequest) (v : View api World) :
    capProtocol.Ok req (fun _ _ => True) v (postOrder req) := by
  refine Protocol.ok_mono (Protocol.ok_of_calls (postOrder_calls req)
    (fun v w c op hop hw hg => ?_)) (fun _ _ _ => trivial)
  rcases placeWork_cases hop with ⟨data, items, rfl, _⟩ | hop
  · refine ⟨?_, trivial, trivial⟩
    show Capped (w.orderCreate c data items).1
    rcases orderCreate_world c w data items with h | h
    · rw [h]
      exact hw
    · rw [h]
      exact hw.insertOrder hg
  · exact cap_allows.exec hop c hw

theorem capSound : capProtocol.Sound (fun _ _ _ => True) where
  env e w hw := by
    cases e with
    | tick ms => exact ⟨hw.congr rfl (Int.le_add_of_nonneg_right (Int.natCast_nonneg ms)), trivial⟩
    | crash => exact ⟨hw, trivial⟩
  entry r w _ := postOrder_capped r ⟨w, []⟩

/-- **The caps hold**, in every run in which each insertion finds them open. -/
theorem order_caps (w₀ : World) (h₀ : Capped w₀) (acts : List orderServer.Action)
    (h : Sys.Pool.Meets capProtocol.cond (Sys.Pool.init w₀) acts = true) :
    Capped (orderRun w₀ acts).world :=
  (capSound.run h₀ h).inv

/-! ## The check of the submission itself -/

/-- What is asked of an insertion: its submission has counted, and found the caps open. -/
abbrev countProtocol : Protocol orderServer :=
  .checking (fun _ v op => ∀ data items, op = .orderCreate data items →
    CountedOpen data.sessionId data.tableId v.past)

theorem count_allows : AllowsHarmless countProtocol := by
  intro r v w w' op hop _ _
  refine ⟨trivial, trivial, fun data items h => ?_⟩
  subst h
  exact hop.elim

/-- **No submission inserts uncounted.** -/
theorem countSound : countProtocol.Sound (fun _ _ _ => True) where
  env _ _ _ := ⟨trivial, trivial⟩
  entry req w _ := by
    refine Protocol.ok_mono (postOrder_acknowledged count_allows
      (fun v session body totalKurus items hadmits => ?_)) (fun _ _ _ => trivial)
    intro v' w c number w' x hpast _ _ _ _ _
    refine ⟨trivial, trivial, fun data items h => ?_⟩
    cases h
    exact hadmits.counted.extend hpast

/-- **No order comes between** the counts of a submission and its insertion: as it inserts, the
orders are those that it has counted. -/
def NoneSinceCounted (_ : OrderRequest) (v : View api World) (op : Call) (w : World) : Prop :=
  ∀ data items, op = .orderCreate data items → ∀ e ∈ v.past,
    (e.op = .query (fun w => w.recentOrders data.sessionId)
      ∨ e.op = .query (fun w => w.openOrders data.tableId)) →
    w.orders = e.before.orders ∧ e.before.now ≤ w.now

/-- **Where no order comes between, each insertion finds the caps open.** -/
theorem caps_open_of_counted (w₀ : World) (acts : List orderServer.Action)
    (h : Protocol.Finds NoneSinceCounted (Sys.Pool.init w₀) acts) :
    Sys.Pool.Meets capProtocol.cond (Sys.Pool.init w₀) acts = true := by
  refine countSound.meets_of_finds trivial (fun _ _ _ _ _ => rfl) ?_ h
  intro r v c op w htakes hnone
  show stillBelow op w = true
  unfold stillBelow
  split
  · next data items =>
    obtain ⟨⟨e₁, he₁, hop₁, hrecent⟩, e₂, he₂, hop₂, hopen⟩ := htakes.here data items rfl
    obtain ⟨horders₁, hnow⟩ := hnone data items rfl e₁ he₁ (.inl hop₁)
    obtain ⟨horders₂, _⟩ := hnone data items rfl e₂ he₂ (.inr hop₂)
    rw [Bool.and_eq_true, decide_eq_true_eq, decide_eq_true_eq]
    constructor
    · -- the window has only moved on
      refine lt_of_le_of_lt ?_ hrecent
      unfold World.recentOrders
      rw [horders₁]
      refine Rows.count_mono (fun id o _ hp => ?_)
      rw [Bool.and_eq_true, decide_eq_true_eq] at hp ⊢
      exact ⟨hp.1, lt_of_le_of_lt (Int.sub_le_sub_right hnow _) hp.2⟩
    · unfold World.openOrders
      rw [horders₂]
      exact hopen
  · rfl

/-! ## Six at once -/

theorem capped_kitchenOpen : Capped kitchenOpen where
  session _ _ := Nat.zero_le _
  table _ := Nat.zero_le _
  past _ _ h := by cases h

/-- Six submissions of one phone are counted before the first is inserted. -/
def sixTaps : List orderServer.Action :=
  List.replicate 6 (.arrive twoDishes)
    ++ (List.range 6).flatMap (fun i => List.replicate 5 (.step i plain))
    ++ (List.range 6).flatMap (fun i => List.replicate 2 (.step i plain))

/-- **A session can place six orders in a moment.** -/
theorem order_caps_fails : ¬ ∀ (w₀ : World) (acts : List orderServer.Action),
    Capped w₀ → Capped (orderRun w₀ acts).world := by
  intro h
  have hsix := (h kitchenOpen sixTaps capped_kitchenOpen).session 0 (-1)
  exact absurd hsix (by decide +kernel)

/-- One submission after the other. -/
theorem order_caps_in_turn :
    Capped (orderRun kitchenOpen
      ((List.range 2).flatMap (fun i => .arrive twoDishes :: List.replicate 9 (.step i plain)))).world :=
  order_caps kitchenOpen capped_kitchenOpen _ (by decide +kernel)

end Masadan
