import Mathlib.Data.Prod.Lex
import Masadan.DeskOrders
import Masadan.OrderedMap
import Masadan.Server

/-!
# The desk board

`GET /api/desk/orders`: the orders on the desk's board, those in the kitchen or all of the last
day, with their live lines, the state of the last ticket, and the corrections. The first order
of a session gets a flag, for the staff to look who is ordering.

The flag is found from the orders on the board alone. An order that has left it, because it was
served or because it is a day old, is not seen any more, and the session's next order on the
board is flagged in its place (`new_session_truthful_fails`). The flag is right exactly on a
board that shows the first order of every session it shows an order of (`new_session_truthful`).
-/

namespace Masadan

/-! ## The route -/

/-- How far back the board goes when it shows all orders: a day. -/
def BOARD_WINDOW_MS : ℤ := 24 * 60 * 60 * 1000

/-- A line as the board shows it. The id is what an edit targets. -/
structure DeskItem where
  id : Id
  name : Text
  qty : ℕ
  note : Text
  modifiers : List Text
  deriving DecidableEq, Repr

structure DeskEdit where
  staffName : Text
  afterPrint : Bool
  changes : List LineChange
  deriving DecidableEq, Repr

/-- An order as the board shows it. -/
structure DeskOrder where
  id : Id
  number : ℕ
  status : OrderStatus
  rejectReason : Option Text
  totalKurus : ℤ
  createdAt : Time
  tableName : Text
  tableId : Id
  newSession : Bool
  posStatus : Option DeliveryStatus
  items : List DeskItem
  edits : List DeskEdit
  deriving DecidableEq, Repr

/-- What the board shows, besides the venue: an order of the last day, or one that is in the
kitchen. -/
def World.onBoard (w : World) (all : Bool) (o : Order) : Bool :=
  if all then decide (w.now - BOARD_WINDOW_MS < o.createdAt)
  else IN_FLIGHT_STATUSES.contains o.status

/-- The orders on the board, by time. -/
def World.boardRows (w : World) (venueId : Id) (all : Bool) : List (Id × Order) :=
  orderBy (fun o => o.2.createdAt)
    (w.orders.filter (fun _ o => o.venueId == venueId && w.onBoard all o))

/-- `sessionFirstOrder`: the first order of each session. -/
def sessionFirstOrder (rows : List (Id × Order)) : List (Id × Id) :=
  OrderedMap.firsts (fun o => o.2.sessionId) Prod.fst rows

def OrderItem.deskItem (i : Id × OrderItem) : DeskItem where
  id := i.1
  name := i.2.nameSnapshot
  qty := i.2.qty
  note := i.2.note
  modifiers := i.2.modifiers.map Prod.fst

/-- What the board shows of an order. -/
def World.deskOrder (w : World) (first : List (Id × Id)) (o : Id × Order) : DeskOrder where
  id := o.1
  number := o.2.number
  status := o.2.status
  rejectReason := o.2.rejectReason
  totalKurus := o.2.totalKurus
  createdAt := o.2.createdAt
  tableName := ((w.tables.get? o.2.tableId).map (fun t => t.name)).getD []
  tableId := o.2.tableId
  newSession := first.lookup o.2.sessionId == some o.1
  posStatus := (orderByDesc (fun d => d.2.createdAt)
    (w.posDeliveries.filter (fun _ d => d.orderId == o.1))).head?.map (fun d => d.2.status)
  items := (w.liveItems o.1).map OrderItem.deskItem
  edits := (orderBy (fun e => e.2.createdAt)
    (w.orderEdits.filter (fun _ e => e.orderId == o.1))).map
      (fun e => ⟨e.2.staffName, e.2.afterPrint, e.2.changes⟩)

/-- **The board.** -/
def World.deskOrders (w : World) (venueId : Id) (all : Bool) : List DeskOrder :=
  let rows := w.boardRows venueId all
  rows.map (w.deskOrder (sessionFirstOrder rows))

inductive DeskAnswer where
  | unauthorized
  | ok (orders : List DeskOrder)
  deriving DecidableEq, Repr

/-- The HTTP status of an answer. -/
def DeskAnswer.status : DeskAnswer → ℕ
  | .unauthorized => 401
  | .ok _ => 200

/-- **`GET /api/desk/orders`.** `all` is the query parameter. -/
def getDeskOrders (staff : Option StaffClaims) (all : Option Text) : Api DeskAnswer := do
  match staff with
  | none => return .unauthorized
  | some staff =>
    let orders ← query (fun w => w.deskOrders staff.venueId (all == some (text "1")))
    return .ok orders

/-- The route answers with the board as it is. -/
theorem getDeskOrders_board (w : World) (staff : StaffClaims) (all : Option Text) :
    Alone (fun w' x => w' = w
        ∧ x = .ok (.ok (w.deskOrders staff.venueId (all == some (text "1")))))
      (getDeskOrders (some staff) all) w := by
  unfold getDeskOrders
  exact alone_query ⟨rfl, rfl⟩

/-! ## Who was first -/

/-- When an order was placed: its time and, where that is the same, its id. -/
def placedKey (r : Id × Order) : Time ×ₗ Id := toLex (r.2.createdAt, r.1)

/-- **The flag is truthful**: an order on the board is flagged exactly when no earlier order of
its session exists. -/
def NewSessionsTrue (w : World) (venueId : Id) (all : Bool) : Prop :=
  ∀ row ∈ w.deskOrders venueId all, ∀ o, w.orders.get? row.id = some o →
    (row.newSession = true ↔ ¬ ∃ k o', w.orders.get? k = some o' ∧ o'.venueId = venueId
      ∧ o'.sessionId = o.sessionId ∧ placedKey (k, o') < placedKey (row.id, o))

/-- **The board shows the first order of every session it shows an order of.** -/
def FirstsShown (w : World) (venueId : Id) (all : Bool) : Prop :=
  ∀ k o, w.orders.get? k = some o → o.venueId = venueId → w.onBoard all o = true →
    ∀ k' o', w.orders.get? k' = some o' → o'.venueId = venueId → o'.sessionId = o.sessionId →
      (∀ k'' o'', w.orders.get? k'' = some o'' → o''.venueId = venueId →
        o''.sessionId = o.sessionId → placedKey (k', o') ≤ placedKey (k'', o'')) →
      w.onBoard all o' = true

/-! ### Orders by time -/

theorem orderedInsert_stable {α : Type} (key : α → ℤ) {R : α → α → Prop} {a : α} {l : List α}
    (hl : l.Pairwise (fun b c => key b < key c ∨ key b = key c ∧ R b c)) (ha : ∀ b ∈ l, R a b) :
    (l.orderedInsert (fun b c => key b ≤ key c) a).Pairwise
      (fun b c => key b < key c ∨ key b = key c ∧ R b c) := by
  induction l with
  | nil => exact List.pairwise_singleton _ _
  | cons b l ih =>
    obtain ⟨hb, hrest⟩ := List.pairwise_cons.mp hl
    rw [List.orderedInsert_cons]
    split
    · next hle =>
      refine List.pairwise_cons.mpr ⟨fun c hc => ?_, hl⟩
      have hbc : key b ≤ key c := by
        rcases List.mem_cons.mp hc with rfl | hc
        · exact le_refl _
        · exact (hb c hc).elim le_of_lt (fun h => h.1.le)
      rcases (hle.trans hbc).lt_or_eq with hlt | heq
      · exact .inl hlt
      · exact .inr ⟨heq, ha c hc⟩
    · next hgt =>
      refine List.pairwise_cons.mpr ⟨fun c hc => ?_,
        ih hrest (fun c hc => ha c (List.mem_cons_of_mem _ hc))⟩
      rcases (List.mem_orderedInsert _).mp hc with rfl | hc
      · exact .inl (not_le.mp hgt)
      · exact hb c hc

/-- **Rows with equal keys stay as they were.** -/
theorem orderBy_stable {α : Type} (key : α → ℤ) {R : α → α → Prop} {l : List α}
    (hl : l.Pairwise R) :
    (orderBy key l).Pairwise (fun b c => key b < key c ∨ key b = key c ∧ R b c) := by
  induction l with
  | nil => exact List.Pairwise.nil
  | cons a l ih =>
    obtain ⟨ha, hrest⟩ := List.pairwise_cons.mp hl
    exact orderedInsert_stable key (ih hrest)
      (fun b hb => ha b ((orderBy_perm key l).mem_iff.mp hb))

/-- What is found in a list is before what is found later. -/
theorem find?_least {α : Type} {R : α → α → Prop} {l : List α} {p : α → Bool} {a b : α}
    (hl : l.Pairwise R) (ha : l.find? p = some a) (hb : b ∈ l) (hp : p b = true) :
    b = a ∨ R a b := by
  obtain ⟨_, before, after, rfl, hbefore⟩ := List.find?_eq_some_iff_append.mp ha
  rcases List.mem_append.mp hb with hb | hb
  · have hnot := hbefore b hb
    rw [hp] at hnot
    cases hnot
  · rcases List.mem_cons.mp hb with rfl | hb
    · exact .inl rfl
    · exact .inr ((List.pairwise_cons.mp (List.pairwise_append.mp hl).2.1).1 b hb)

section

variable {w : World} {venueId : Id} {all : Bool} {r : Id × Order}

/-- The selected orders by time, in the order in which they were placed. -/
theorem placed_in_order (t : Rows Order) (p : Id → Order → Bool) :
    (orderBy (fun o => o.2.createdAt) (t.filter p)).Pairwise
      (fun r r' => placedKey r < placedKey r') :=
  (orderBy_stable _ (t.sorted.filter _)).imp (fun h => Prod.Lex.toLex_lt_toLex.mpr h)

/-- The first of the selected orders of a session. -/
theorem first_placed (t : Rows Order) (p : Id → Order → Bool) (hr : t.get? r.1 = some r.2)
    (hp : p r.1 r.2 = true) : ∃ r₀,
      (orderBy (fun o => o.2.createdAt) (t.filter p)).find?
          (fun o => o.2.sessionId = r.2.sessionId) = some r₀
        ∧ t.get? r₀.1 = some r₀.2 ∧ p r₀.1 r₀.2 = true ∧ r₀.2.sessionId = r.2.sessionId
        ∧ ∀ r', t.get? r'.1 = some r'.2 → p r'.1 r'.2 = true → r'.2.sessionId = r.2.sessionId →
          placedKey r₀ ≤ placedKey r' := by
  have hmem : ∀ r', r' ∈ orderBy (fun o => o.2.createdAt) (t.filter p)
      ↔ t.get? r'.1 = some r'.2 ∧ p r'.1 r'.2 = true :=
    fun r' => (orderBy_perm _ _).mem_iff.trans Rows.mem_filter
  cases hfind : (orderBy (fun o => o.2.createdAt) (t.filter p)).find?
      (fun o => o.2.sessionId = r.2.sessionId) with
  | none =>
    exact absurd (List.find?_eq_none.mp hfind r ((hmem r).mpr ⟨hr, hp⟩)) (by simp)
  | some r₀ =>
    obtain ⟨hget, hp₀⟩ := (hmem r₀).mp (List.mem_of_find?_eq_some hfind)
    refine ⟨r₀, rfl, hget, hp₀, by simpa using List.find?_some hfind, fun r' hr' hp' hs => ?_⟩
    rcases find?_least (placed_in_order t p) hfind ((hmem r').mpr ⟨hr', hp'⟩)
      (decide_eq_true hs) with rfl | hlt
    · exact le_refl _
    · exact hlt.le

/-- What the board's query selects. -/
theorem selected_iff {o : Order} : (o.venueId == venueId && w.onBoard all o) = true
    ↔ o.venueId = venueId ∧ w.onBoard all o = true := by
  rw [Bool.and_eq_true, beq_iff_eq]

theorem mem_boardRows : r ∈ w.boardRows venueId all
    ↔ w.orders.get? r.1 = some r.2 ∧ r.2.venueId = venueId ∧ w.onBoard all r.2 = true := by
  unfold World.boardRows
  rw [(orderBy_perm _ _).mem_iff, Rows.mem_filter, selected_iff]

/-- The first order of a session on the board, where the board shows one. -/
theorem first_on_board (hr : r ∈ w.boardRows venueId all) : ∃ r₀,
    (w.boardRows venueId all).find? (fun o => o.2.sessionId = r.2.sessionId) = some r₀
      ∧ r₀ ∈ w.boardRows venueId all ∧ r₀.2.sessionId = r.2.sessionId
      ∧ ∀ r' ∈ w.boardRows venueId all, r'.2.sessionId = r.2.sessionId →
        placedKey r₀ ≤ placedKey r' := by
  obtain ⟨hget, hselected⟩ := mem_boardRows.mp hr
  obtain ⟨r₀, hfind, hget₀, hp₀, hs₀, hleast⟩ := first_placed w.orders
    (fun _ o => o.venueId == venueId && w.onBoard all o) hget (selected_iff.mpr hselected)
  refine ⟨r₀, hfind, mem_boardRows.mpr ⟨hget₀, selected_iff.mp hp₀⟩, hs₀, fun r' hr' hs => ?_⟩
  obtain ⟨hget', hselected'⟩ := mem_boardRows.mp hr'
  exact hleast r' hget' (selected_iff.mpr hselected') hs

/-- **An order is flagged when it is the first of its session on the board.** -/
theorem newSession_iff (hr : r ∈ w.boardRows venueId all) :
    (w.deskOrder (sessionFirstOrder (w.boardRows venueId all)) r).newSession = true
      ↔ ∀ r' ∈ w.boardRows venueId all, r'.2.sessionId = r.2.sessionId →
        placedKey r ≤ placedKey r' := by
  obtain ⟨r₀, hfind, hr₀, hs₀, hleast⟩ := first_on_board hr
  have hflag : (w.deskOrder (sessionFirstOrder (w.boardRows venueId all)) r).newSession = true
      ↔ r₀.1 = r.1 := by
    show ((sessionFirstOrder _).lookup r.2.sessionId == some r.1) = true ↔ _
    unfold sessionFirstOrder
    rw [OrderedMap.lookup_firsts, hfind, beq_iff_eq]
    exact Option.some_inj
  rw [hflag]
  constructor
  · intro hid
    have hget₀ := (mem_boardRows.mp hr₀).1
    rw [hid, (mem_boardRows.mp hr).1] at hget₀
    obtain rfl : r₀ = r := Prod.ext hid (Option.some.inj hget₀).symm
    exact hleast
  · intro h
    exact congrArg (fun k : Time ×ₗ Id => (ofLex k).2)
      (le_antisymm (hleast r hr rfl) (h r₀ hr₀ hs₀))

end

/-- **The flag is truthful exactly on a board that shows the first order of every session it
shows an order of.** -/
theorem new_session_truthful (w : World) (venueId : Id) (all : Bool) :
    NewSessionsTrue w venueId all ↔ FirstsShown w venueId all := by
  constructor
  · intro h k o ho hvenue hboard k' o' ho' hvenue' hs' hfirst
    -- the first on the board is flagged, so it is the first of all
    obtain ⟨r₀, _, hr₀, hs₀, hleast⟩ :=
      first_on_board (r := (k, o)) (mem_boardRows.mpr ⟨ho, hvenue, hboard⟩)
    obtain ⟨hget₀, hvenue₀, hboard₀⟩ := mem_boardRows.mp hr₀
    have hflag := (newSession_iff hr₀).mpr (fun r' hr' hs => hleast r' hr' (hs.trans hs₀))
    have hnone := (h _ (List.mem_map_of_mem hr₀) r₀.2 hget₀).mp hflag
    have hle : placedKey r₀ ≤ placedKey (k', o') := by
      by_contra hlt
      exact hnone ⟨k', o', ho', hvenue', hs'.trans hs₀.symm, not_le.mp hlt⟩
    have heq := le_antisymm hle (hfirst r₀.1 r₀.2 hget₀ hvenue₀ hs₀)
    have hid : r₀.1 = k' := congrArg (fun k : Time ×ₗ Id => (ofLex k).2) heq
    rw [hid, ho'] at hget₀
    rw [Option.some.inj hget₀]
    exact hboard₀
  · intro h row hrow o ho
    obtain ⟨r, hr, rfl⟩ := List.mem_map.mp hrow
    obtain ⟨hget, hvenue, hboard⟩ := mem_boardRows.mp hr
    obtain rfl : r.2 = o := Option.some.inj (hget.symm.trans ho)
    rw [newSession_iff hr]
    constructor
    · rintro hleast ⟨k₁, o₁, ho₁, hvenue₁, hs₁, hlt⟩
      -- the first of all is on the board
      obtain ⟨r₀, _, hget₀, hp₀, hs₀, hfirst⟩ := first_placed w.orders
        (fun _ o => o.venueId == venueId) hget (beq_iff_eq.mpr hvenue)
      have hfirst' : ∀ k o', w.orders.get? k = some o' → o'.venueId = venueId →
          o'.sessionId = r.2.sessionId → placedKey r₀ ≤ placedKey (k, o') :=
        fun k o' ho' hv hs => hfirst (k, o') ho' (beq_iff_eq.mpr hv) hs
      have hboard₀ := h r.1 r.2 hget hvenue hboard r₀.1 r₀.2 hget₀ (beq_iff_eq.mp hp₀) hs₀ hfirst'
      have hle := hleast r₀ (mem_boardRows.mpr ⟨hget₀, beq_iff_eq.mp hp₀, hboard₀⟩) hs₀
      exact absurd hlt (not_lt.mpr (hle.trans (hfirst' k₁ o₁ ho₁ hvenue₁ hs₁)))
    · intro hnone r' hr' hs
      obtain ⟨hget', hvenue', _⟩ := mem_boardRows.mp hr'
      by_contra hlt
      exact hnone ⟨r'.1, r'.2, hget', hvenue', hs, not_le.mp hlt⟩

/-- A session's two orders: one that was served, and a later one. -/
def secondOrder : World :=
  { World.blank (BOARD_WINDOW_MS + 2) with
    orders := Rows.ofList [⟨0, 0, 3, none, 1, .served, none, 100, .unpaid, none, none, 1⟩,
      ⟨0, 0, 3, none, 2, .received, none, 100, .unpaid, none, none, 3600000⟩] }

/-- **A later order can be flagged**, on either board: the first one is not in the kitchen any
more, or more than a day old. -/
theorem new_session_truthful_fails : (¬ ∀ w venueId, NewSessionsTrue w venueId false)
    ∧ ¬ ∀ w venueId, NewSessionsTrue w venueId true := by
  have hfails : ∀ all, (∀ w venueId, NewSessionsTrue w venueId all) → False := by
    intro all h
    have hrow : secondOrder.deskOrders 0 all = [⟨1, 2, .received, none, 100, 3600000, [], 0, true,
        none, [], []⟩] := by
      cases all <;> decide
    refine (h secondOrder 0 _ (by rw [hrow]; exact List.mem_cons_self)
      ⟨0, 0, 3, none, 2, .received, none, 100, .unpaid, none, none, 3600000⟩ (by decide)).mp rfl
      ⟨0, ⟨0, 0, 3, none, 1, .served, none, 100, .unpaid, none, none, 1⟩, by decide, rfl, rfl, ?_⟩
    exact Prod.Lex.toLex_lt_toLex.mpr (.inl (by decide))
  exact ⟨hfails false, hfails true⟩

end Masadan
