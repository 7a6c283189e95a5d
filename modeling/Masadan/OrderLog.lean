import Mathlib.Data.Prod.Lex
import Masadan.DeskOrders
import Masadan.Pagination
import Masadan.Paging
import Masadan.Server

/-!
# The order log

`src/app/api/admin/orders/route.ts`: the orders of a venue in a range of days up to now,
page by page, and `OrdersTab.tsx`, which asks for one page after another.

A page is a page of the log as it is when it is asked for (`ordersPage_spec`), so the walk
of `Masadan.Paging` says what the pages come to. New orders do not disturb it. But each
request computes its range anew from the clock: an order that has fallen out of the range
by the time its page is asked for is not in any page (`order_log_fails`). All others are,
once each and in order (`order_log`).
-/

namespace Masadan

/-! ## `GET /api/admin/orders` -/

def MAX_DAYS : ℚ := 365

/-- The days that are asked for, a week if that is no number of days. -/
def logDays (raw : Option Text) : ℚ :=
  match JsNumber.ofParam raw with
  | .finite requested => if 0 < requested then min requested MAX_DAYS else 7
  | _ => 7

/-- `new Date(Date.now() - days * 86400000)`. A date is in whole milliseconds. -/
def logSince (days : ℚ) (now : Time) : Time :=
  let t := JsNumber.nearest (now - JsNumber.nearest (days * 86400000))
  t.num.tdiv t.den

/-- An order as the log shows it. -/
structure LogOrder where
  id : Id
  number : ℕ
  status : OrderStatus
  paymentStatus : PaymentStatus
  paymentMethod : Option PaymentMethod
  totalKurus : ℤ
  createdAt : Time
  tableName : Text
  items : List (Text × ℕ)

structure OrdersPage where
  days : ℚ
  nextCursor : Option Id
  orders : List LogOrder

/-- The `where` of the log: the venue's orders that are younger than so. -/
def World.logRows (w : World) (venueId : Id) (since : Time) : List (Id × Order) :=
  w.orders.filter (fun _ o => o.venueId == venueId && decide (since < o.createdAt))

/-- What the log shows of an order. -/
def World.logOrder (w : World) (r : Id × Order) : LogOrder where
  id := r.1
  number := r.2.number
  status := r.2.status
  paymentStatus := r.2.paymentStatus
  paymentMethod := (r.2.visitId.bind w.tableVisits.get?).bind (fun v => v.paymentMethod)
  totalKurus := r.2.totalKurus
  createdAt := r.2.createdAt
  tableName := ((w.tables.get? r.2.tableId).map (fun t => t.name)).getD []
  items := (w.orderItems.filter (fun _ i => i.orderId == r.1)).map
    (fun i => (i.2.nameSnapshot, i.2.qty))

section

variable {ι : Type} [LinearOrder ι] (name : Id → ι)

/-- Where an order stands in the log: by its time and, where that is the same, by its id as
the database compares ids. -/
def logKey (createdAt : Time) (id : Id) : Time ×ₗ ι := toLex (createdAt, name id)

def rowKey (r : Id × Order) : Time ×ₗ ι := logKey name r.2.createdAt r.1

def LogOrder.key (o : LogOrder) : Time ×ₗ ι := logKey name o.createdAt o.id

/-- `findMany`: the rows in descending order, from a cursor strictly after its row, so many
of them. A cursor that names no row finds none. -/
def World.findOrders (w : World) (venueId : Id) (since : Time) (cursor : Option Id) (take : ℤ) :
    List (Id × Order) :=
  let rows := (w.logRows venueId since).insertionSort (fun a b => rowKey name b ≤ rowKey name a)
  let rows := match cursor with
    | none => rows
    | some id =>
      match w.orders.get? id with
      | none => []
      | some o => rows.filter (fun r => decide (rowKey name r < logKey name o.createdAt id))
  rows.take take.toNat

/-- The page of a request, at its time. One row more than the page is asked for. -/
def World.ordersPage (w : World) (now : Time) (venueId : Id) (days : ℚ) (limit : ℤ)
    (cursor : Option Id) : Except TypeError OrdersPage := do
  let rows := w.findOrders name venueId (logSince days now) cursor (limit + 1)
  let page ← splitPage Prod.fst rows limit
  return ⟨days, page.nextCursor, page.items.map w.logOrder⟩

inductive LogAnswer where
  | unauthorized
  /-- The handler threw. -/
  | failed
  | page (page : OrdersPage)

/-- The HTTP status of an answer. -/
def LogAnswer.status : LogAnswer → ℕ
  | .unauthorized => 401
  | .failed => 500
  | .page _ => 200

/-- **`GET /api/admin/orders`.** -/
def getOrders (staff : Option StaffClaims) (days limit : Option Text) (cursor : Option Id) :
    Api LogAnswer := do
  match staff with
  | none => return .unauthorized
  | some staff =>
    let now ← query (fun w => w.now)
    let page ← query (fun w =>
      w.ordersPage name now staff.venueId (logDays days) (pageLimit limit) cursor)
    match page with
    | .ok page => return .page page
    | .error _ => return .failed

/-- Undisturbed, the route answers with the page at its time. -/
theorem getOrders_page {w : World} {staff : StaffClaims} {days limit : Option Text}
    {cursor : Option Id} {page : OrdersPage}
    (h : w.ordersPage name w.now staff.venueId (logDays days) (pageLimit limit) cursor = .ok page) :
    Alone (fun w' x => w' = w ∧ x = .ok (.page page))
      (getOrders name (some staff) days limit cursor) w := by
  unfold getOrders
  refine alone_query (alone_query ?_)
  rw [h]
  exact ⟨rfl, rfl⟩

/-! ## `OrdersTab` -/

/-- The cursor of the next page to ask for, none after the last. The first page has no
cursor. -/
def pageKey (index : ℕ) (previous : Option OrdersPage) : Option (Option Id) :=
  let nextCursor := previous.bind (fun p => p.nextCursor)
  if index > 0 ∧ nextCursor = none then none
  else some (if index = 0 then none else nextCursor)

/-- **The pages after so many requests**, each at its time and with the log as it is
then. -/
def logPages (W : ℕ → World) (clock : ℕ → Time) (venueId : Id) (days : ℚ) (limit : ℤ) :
    ℕ → List OrdersPage
  | 0 => []
  | n + 1 =>
    let pages := logPages W clock venueId days limit n
    match pageKey pages.length pages.getLast? with
    | none => pages
    | some cursor =>
      match (W n).ordersPage name (clock n) venueId days limit cursor with
      | .ok page => pages ++ [page]
      | .error _ => pages

/-- There is no next page to ask for. -/
def Ended (pages : List OrdersPage) : Prop := pageKey pages.length pages.getLast? = none

/-! ## Orders come -/

/-- **What happens between two requests**: the orders stay, and those that come are newer
than all there were. -/
structure LogGrows (w w' : World) : Prop where
  stays : ∀ id o, w.orders.get? id = some o →
    ∃ o', w'.orders.get? id = some o' ∧ o'.venueId = o.venueId ∧ o'.createdAt = o.createdAt
  newer : ∀ id o, w.orders.get? id = none → w'.orders.get? id = some o →
    ∀ id₀ o₀, w.orders.get? id₀ = some o₀ →
      logKey name o₀.createdAt id₀ < logKey name o.createdAt id

variable {name}

theorem LogGrows.refl (w : World) : LogGrows name w w where
  stays id o ho := ⟨o, ho, rfl, rfl⟩
  newer id o hnone ho := by cases hnone.symm.trans ho

theorem LogGrows.trans {w w' w'' : World} (h : LogGrows name w w') (h' : LogGrows name w' w'') :
    LogGrows name w w'' where
  stays id o ho := by
    obtain ⟨o', ho', hvenue, htime⟩ := h.stays id o ho
    obtain ⟨o'', ho'', hvenue', htime'⟩ := h'.stays id o' ho'
    exact ⟨o'', ho'', hvenue'.trans hvenue, htime'.trans htime⟩
  newer id o hnone ho id₀ o₀ ho₀ := by
    cases hmid : w'.orders.get? id with
    | some o' =>
      obtain ⟨o'', ho'', _, htime⟩ := h'.stays id o' hmid
      cases ho.symm.trans ho''
      rw [htime]
      exact h.newer id o' hnone hmid id₀ o₀ ho₀
    | none =>
      obtain ⟨o', ho', _, htime⟩ := h.stays id₀ o₀ ho₀
      rw [← htime]
      exact h'.newer id o hmid ho id₀ o' ho'

/-- Where ids ascend, an order that is placed is newer than all. -/
theorem LogGrows.insertOrder {w : World} (hname : StrictMono name)
    (hnow : ∀ id o, w.orders.get? id = some o → o.createdAt ≤ w.now) (data : NewOrder)
    (items : List NewOrderItem) : LogGrows name w (w.insertOrder data items) where
  stays id o ho := ⟨o, Rows.get?_create_of_some ho, rfl, rfl⟩
  newer id o hnone ho id₀ o₀ ho₀ := by
    replace ho : (w.orders.create _).get? id = some o := ho
    rw [Rows.get?_create] at ho
    split at ho
    · next hid =>
      cases ho
      refine Prod.Lex.toLex_lt_toLex.mpr ?_
      rcases lt_or_eq_of_le (hnow id₀ o₀ ho₀) with hlt | heq
      · exact .inl hlt
      · refine .inr ⟨heq, hname ?_⟩
        rw [hid]
        exact Rows.lt_next_of_get? ho₀
    · cases hnone.symm.trans ho

/-! ## A page is a page -/

/-- The keys of the orders in the range, which are the log. -/
def World.logKeys (name : Id → ι) (w : World) (venueId : Id) (since : Time) : List (Time ×ₗ ι) :=
  (w.logRows venueId since).map (rowKey name)

omit [LinearOrder ι] in
theorem rowKey_injective (hname : Function.Injective name) {r r' : Id × Order}
    (h : rowKey name r = rowKey name r') : r.1 = r'.1 :=
  hname (congrArg (fun k => (ofLex k).2) h)

omit [LinearOrder ι] in
theorem nodup_keys_of_filter (hname : Function.Injective name) (w : World)
    (p : Id → Order → Bool) : ((w.orders.filter p).map (rowKey name)).Nodup := by
  have hids : ((w.orders.filter p).map Prod.fst).Nodup :=
    w.orders.nodup_keys.sublist (List.filter_sublist.map _)
  have hrows : (w.orders.filter p).Nodup := List.Nodup.of_map _ hids
  refine hrows.map_on (fun r hr r' hr' hkey => ?_)
  have hget := (Rows.mem_filter.mp hr).1
  have hid := rowKey_injective hname hkey
  rw [hid, (Rows.mem_filter.mp hr').1] at hget
  exact Prod.ext hid (Option.some.inj hget).symm

omit [LinearOrder ι] in
theorem mem_logKeys {w : World} {venueId : Id} {since : Time} {k : Time ×ₗ ι} :
    k ∈ w.logKeys name venueId since ↔ ∃ id o, w.orders.get? id = some o ∧ o.venueId = venueId
      ∧ since < o.createdAt ∧ logKey name o.createdAt id = k := by
  unfold World.logKeys World.logRows
  rw [List.mem_map]
  constructor
  · rintro ⟨⟨id, o⟩, hr, rfl⟩
    obtain ⟨hget, hrange⟩ := Rows.mem_filter.mp hr
    rw [Bool.and_eq_true, beq_iff_eq, decide_eq_true_iff] at hrange
    exact ⟨id, o, hget, hrange.1, hrange.2, rfl⟩
  · rintro ⟨id, o, hget, hvenue, hsince, rfl⟩
    refine ⟨(id, o), Rows.mem_filter.mpr ⟨hget, ?_⟩, rfl⟩
    rw [Bool.and_eq_true, beq_iff_eq, decide_eq_true_iff]
    exact ⟨hvenue, hsince⟩

/-- The cursor names an order, which stands there in the log. -/
def CursorAt (name : Id → ι) (w : World) : Option Id → Option (Time ×ₗ ι) → Prop
  | none, k => k = none
  | some id, k => ∃ o, w.orders.get? id = some o ∧ k = some (logKey name o.createdAt id)

theorem CursorAt.grows {w w' : World} (h : LogGrows name w w') {cursor : Option Id}
    {k : Option (Time ×ₗ ι)} (hc : CursorAt name w cursor k) : CursorAt name w' cursor k := by
  cases cursor with
  | none => exact hc
  | some id =>
    obtain ⟨o, ho, rfl⟩ := hc
    obtain ⟨o', ho', _, htime⟩ := h.stays id o ho
    exact ⟨o', ho', by rw [htime]⟩

/-- What is found follows the cursor in the log. -/
theorem findOrders_keys (w : World) (venueId : Id) (since : Time) {cursor : Option Id}
    {k : Option (Time ×ₗ ι)} (hc : CursorAt name w cursor k) (take : ℤ) :
    (w.findOrders name venueId since cursor take).map (rowKey name)
      = (Paging.following (w.logKeys name venueId since) k).take take.toNat := by
  have hsort : ((w.logRows venueId since).insertionSort
      (fun a b => rowKey name b ≤ rowKey name a)).map (rowKey name)
        = (w.logKeys name venueId since).insertionSort (· ≥ ·) :=
    List.map_insertionSort _ _ _ _ (fun _ _ _ _ => Iff.rfl)
  unfold World.findOrders Paging.following
  dsimp only
  cases cursor with
  | none =>
    obtain rfl : k = none := hc
    rw [List.map_take, hsort]
    refine congrArg (List.take _) (List.filter_eq_self.mpr (fun _ _ => rfl)).symm
  | some id =>
    obtain ⟨o, ho, rfl⟩ := hc
    dsimp only
    rw [ho]
    dsimp only
    rw [List.map_take, ← hsort, List.filter_map]
    rfl

/-- What is found is in the table. -/
theorem get?_of_findOrders {w : World} {venueId : Id} {since : Time} {cursor : Option Id} {take : ℤ}
    {r : Id × Order} (h : r ∈ w.findOrders name venueId since cursor take) :
    w.orders.get? r.1 = some r.2 := by
  unfold World.findOrders at h
  have hrow : r ∈ (w.logRows venueId since).insertionSort
      (fun a b => rowKey name b ≤ rowKey name a) := by
    have hfound := List.mem_of_mem_take h
    split at hfound
    · exact hfound
    · split at hfound
      · exact absurd hfound List.not_mem_nil
      · exact List.mem_of_mem_filter hfound
  exact (Rows.mem_filter.mp (List.mem_insertionSort _ |>.mp hrow)).1

/-- **A page is a page of the log** as it is then. -/
theorem ordersPage_spec {w : World} (now : Time) (venueId : Id) (days : ℚ) {limit : ℤ}
    (hlimit : 1 ≤ limit) {cursor : Option Id} {k : Option (Time ×ₗ ι)}
    (hc : CursorAt name w cursor k) : ∃ page,
      w.ordersPage name now venueId days limit cursor = .ok page
        ∧ page.orders.map (LogOrder.key name)
          = (Paging.page limit.toNat (w.logKeys name venueId (logSince days now)) k).1
        ∧ CursorAt name w page.nextCursor
          (Paging.page limit.toNat (w.logKeys name venueId (logSince days now)) k).2 := by
  have hkeys := findOrders_keys w venueId (logSince days now) hc (limit + 1)
  have hmem : ∀ r ∈ w.findOrders name venueId (logSince days now) cursor (limit + 1),
      w.orders.get? r.1 = some r.2 := fun r hr => get?_of_findOrders hr
  unfold World.ordersPage Paging.page
  dsimp only
  generalize Paging.following (w.logKeys name venueId (logSince days now)) k = rest at hkeys ⊢
  generalize w.findOrders name venueId (logSince days now) cursor (limit + 1) = rows at hkeys hmem ⊢
  obtain ⟨next, hsplit, hnext⟩ := splitPage_spec Prod.fst rows hlimit
  have hlength : rows.length = min (limit + 1).toNat rest.length := by
    rw [← List.length_map (rowKey name), hkeys, List.length_take]
  have hitems : (rows.take limit.toNat).map (rowKey name) = rest.take limit.toNat := by
    rw [List.map_take, hkeys, List.take_take]
    exact congrArg (List.take · rest) (by omega)
  rw [hsplit]
  refine ⟨_, rfl, ?_, ?_⟩
  · show ((rows.take limit.toNat).map w.logOrder).map (LogOrder.key name) = _
    rw [List.map_map]
    refine Eq.trans (show _ = (rows.take limit.toNat).map (rowKey name) from rfl) ?_
    rw [hitems]
    split
    · next hfew => exact List.take_of_length_le hfew
    · rfl
  · show CursorAt name w next _
    rcases hnext with ⟨rfl, hfew⟩ | ⟨hmore, r, hr, rfl⟩
    · rw [if_pos (by omega)]
      rfl
    · rw [if_neg (by omega)]
      refine ⟨r.2, hmem r (List.mem_of_mem_take (List.mem_of_getLast? hr)), ?_⟩
      dsimp only
      rw [← hitems, List.getLast?_map, hr]
      rfl

/-! ## All pages are the walk -/

variable {W : ℕ → World} {clock : ℕ → Time} {venueId : Id} {days : ℚ} {limit : ℤ}

/-- The log at each request. -/
abbrev logsAt (name : Id → ι) (W : ℕ → World) (clock : ℕ → Time) (venueId : Id) (days : ℚ)
    (n : ℕ) : List (Time ×ₗ ι) :=
  (W n).logKeys name venueId (logSince days (clock n))

/-- After a page the tab asks on from its cursor. -/
theorem pageKey_next {index : ℕ} (h : index ≠ 0) (page : OrdersPage) :
    pageKey index (some page) = page.nextCursor.map some := by
  unfold pageKey
  dsimp only [Option.bind_some]
  rw [if_neg h]
  cases page.nextCursor with
  | none => exact if_pos ⟨Nat.pos_of_ne_zero h, rfl⟩
  | some id => exact if_neg (fun hnone => nomatch hnone.2)

/-- **The pages are the walk's**, order by order, and the tab asks on as the walk does. -/
theorem logPages_walk (clock : ℕ → Time) (venueId : Id) (days : ℚ) (hlimit : 1 ≤ limit)
    (hW : ∀ n, LogGrows name (W n) (W (n + 1))) (n : ℕ) :
    ((logPages name W clock venueId days limit n).flatMap (fun p => p.orders)).map
        (LogOrder.key name)
      = (Paging.walk limit.toNat (logsAt name W clock venueId days) n).seen
    ∧ (Ended (logPages name W clock venueId days limit n)
        ∧ (Paging.walk limit.toNat (logsAt name W clock venueId days) n).next = none
      ∨ ∃ cursor k, pageKey (logPages name W clock venueId days limit n).length
          (logPages name W clock venueId days limit n).getLast? = some cursor
        ∧ (Paging.walk limit.toNat (logsAt name W clock venueId days) n).next = some k
        ∧ CursorAt name (W n) cursor k) := by
  induction n with
  | zero => exact ⟨rfl, .inr ⟨none, none, rfl, rfl, rfl⟩⟩
  | succ n ih =>
    obtain ⟨hseen, hnext⟩ := ih
    rw [logPages, Paging.walk, Paging.Walk.step]
    dsimp only
    rcases hnext with ⟨hended, hnone⟩ | ⟨cursor, k, hkey, hk, hat⟩
    · rw [hnone, show pageKey _ _ = none from hended]
      exact ⟨hseen, .inl ⟨hended, hnone⟩⟩
    · obtain ⟨page, hpage, horders, hcursor⟩ :=
        ordersPage_spec (clock n) venueId days hlimit hat
      rw [hkey, hk]
      dsimp only
      rw [hpage]
      dsimp only
      refine ⟨?_, ?_⟩
      · rw [List.flatMap_append, List.map_append, hseen, List.flatMap_singleton, horders]
      · have hlast : (logPages name W clock venueId days limit n ++ [page]).getLast? = some page :=
          List.getLast?_concat
        have hlength : (logPages name W clock venueId days limit n ++ [page]).length ≠ 0 := by simp
        unfold Ended
        rw [hlast, pageKey_next hlength]
        cases hc : page.nextCursor with
        | none =>
          rw [hc] at hcursor
          left
          exact ⟨rfl, congrArg (Option.map some) hcursor⟩
        | some id =>
          have hgrown := hcursor.grows (hW n)
          rw [hc] at hgrown
          obtain ⟨o, ho, hk'⟩ := hgrown
          exact .inr ⟨some id, _, rfl, congrArg (Option.map some) hk', o, ho, rfl⟩

/-! ## The law -/

theorem LogGrows.of_le (hW : ∀ n, LogGrows name (W n) (W (n + 1))) {i j : ℕ} (h : i ≤ j) :
    LogGrows name (W i) (W j) := by
  induction h with
  | refl => exact .refl _
  | step _ ih => exact ih.trans (hW _)

/-- An order has one time. -/
theorem createdAt_eq (hW : ∀ n, LogGrows name (W n) (W (n + 1))) {i j : ℕ} {id : Id} {o o' : Order}
    (ho : (W i).orders.get? id = some o) (ho' : (W j).orders.get? id = some o') :
    o.createdAt = o'.createdAt := by
  have hle : ∀ {i j : ℕ} {o o' : Order}, i ≤ j → (W i).orders.get? id = some o →
      (W j).orders.get? id = some o' → o.createdAt = o'.createdAt := by
    intro i j o o' hij ho ho'
    obtain ⟨o'', ho'', _, htime⟩ := (LogGrows.of_le hW hij).stays id o ho
    cases ho'.symm.trans ho''
    exact htime.symm
  rcases Nat.le_total i j with hij | hji
  · exact hle hij ho ho'
  · exact (hle hji ho' ho).symm

/-- **The log has been read**: in order and nothing twice, each order from the log at some
request, and every order that was there at the first and in the range at each. -/
structure LogRead (name : Id → ι) (W : ℕ → World) (clock : ℕ → Time) (venueId : Id) (days : ℚ)
    (n : ℕ) (log : List LogOrder) : Prop where
  sorted : log.Pairwise (fun a b => b.key name < a.key name)
  once : (log.map (fun r => r.id)).Nodup
  drawn : ∀ r ∈ log, ∃ i < n, ∃ o, (W i).orders.get? r.id = some o ∧ o.venueId = venueId
    ∧ logSince days (clock i) < o.createdAt ∧ r.createdAt = o.createdAt
  whole : ∀ id o, (W 0).orders.get? id = some o → o.venueId = venueId →
    (∀ i < n, logSince days (clock i) < o.createdAt) → id ∈ log.map (fun r => r.id)

/-- What the pages come to when the last is reached. -/
theorem logPages_read (hname : Function.Injective name) (hlimit : 1 ≤ limit)
    (hW : ∀ n, LogGrows name (W n) (W (n + 1))) {n : ℕ}
    (hended : Ended (logPages name W clock venueId days limit n)) :
    LogRead name W clock venueId days n
      ((logPages name W clock venueId days limit n).flatMap (fun p => p.orders)) := by
  obtain ⟨hseen, hnext⟩ := logPages_walk clock venueId days hlimit hW n
  have hnone : (Paging.walk limit.toNat (logsAt name W clock venueId days) n).next = none := by
    rcases hnext with ⟨_, hnone⟩ | ⟨cursor, k, hkey, _⟩
    · exact hnone
    · cases hkey.symm.trans hended
  have hwalk : (Paging.walk limit.toNat (logsAt name W clock venueId days) n).Ok
      (logsAt name W clock venueId days) n :=
    Paging.walk_ok (by omega) (fun n => nodup_keys_of_filter hname _ _) n
  generalize (logPages name W clock venueId days limit n).flatMap (fun p => p.orders) = log
    at hseen ⊢
  have hsorted : log.Pairwise (fun a b => b.key name < a.key name) := by
    have hkeys := hwalk.sorted
    rw [← hseen, List.pairwise_map] at hkeys
    exact hkeys
  have hdrawn : ∀ r ∈ log, ∃ i < n, ∃ o, (W i).orders.get? r.id = some o ∧ o.venueId = venueId
      ∧ logSince days (clock i) < o.createdAt ∧ r.createdAt = o.createdAt := by
    intro r hr
    obtain ⟨i, hi, hlog⟩ := hwalk.drawn (r.key name) (hseen ▸ List.mem_map_of_mem hr)
    obtain ⟨id, o, ho, hvenue, hsince, hkey⟩ := mem_logKeys.mp hlog
    obtain rfl : id = r.id := hname (congrArg (fun k => (ofLex k).2) hkey)
    exact ⟨i, hi, o, ho, hvenue, hsince, (congrArg (fun k => (ofLex k).1) hkey).symm⟩
  refine ⟨hsorted, ?_, hdrawn, fun id o ho hvenue hrange => ?_⟩
  · -- an order that is there twice would be there under two keys
    refine List.pairwise_map.mpr (List.Pairwise.imp_of_mem (fun {a b} ha hb hlt hid => ?_) hsorted)
    obtain ⟨i, _, o, ho, _, _, htime⟩ := hdrawn a ha
    obtain ⟨j, _, o', ho', _, _, htime'⟩ := hdrawn b hb
    rw [← hid] at ho'
    have hkey : b.key name = a.key name := by
      unfold LogOrder.key
      rw [htime, htime', createdAt_eq hW ho ho', hid]
    exact absurd hlt (by rw [hkey]; exact lt_irrefl _)
  · have hthere : ∀ i < n, logKey name o.createdAt id ∈ logsAt name W clock venueId days i := by
      intro i hi
      obtain ⟨o', ho', hvenue', htime⟩ := (LogGrows.of_le hW (Nat.zero_le i)).stays id o ho
      refine mem_logKeys.mpr ⟨id, o', ho', hvenue'.trans hvenue, ?_, by rw [htime]⟩
      rw [htime]
      exact hrange i hi
    rcases hwalk.covers _ hthere with hread | ⟨cursor, hcursor, _⟩
    · rw [← hseen] at hread
      obtain ⟨r, hr, hkey⟩ := List.mem_map.mp hread
      exact List.mem_map.mpr ⟨r, hr, hname (congrArg (fun k => (ofLex k).2) hkey)⟩
    · cases hnone.symm.trans hcursor

/-- The last page is reached, after the orders there were at the first request. -/
theorem logPages_ends (hname : Function.Injective name) (hlimit : 1 ≤ limit)
    (hW : ∀ n, LogGrows name (W n) (W (n + 1))) :
    Ended (logPages name W clock venueId days limit
      ((W 0).orders.count (fun _ o => o.venueId == venueId) / limit.toNat + 1)) := by
  have hlength : (((W 0).orders.filter (fun _ o => o.venueId == venueId)).map
      (rowKey name)).length = (W 0).orders.count (fun _ o => o.venueId == venueId) :=
    List.length_map _
  have hbase : ∀ n, ∀ k ∈ logsAt name W clock venueId days n,
      k ∈ ((W 0).orders.filter (fun _ o => o.venueId == venueId)).map (rowKey name)
        ∨ ∀ k' ∈ ((W 0).orders.filter (fun _ o => o.venueId == venueId)).map (rowKey name),
          k' < k := by
    intro n k hk
    obtain ⟨id, o, ho, hvenue, _, rfl⟩ := mem_logKeys.mp hk
    have hgrows := LogGrows.of_le hW (Nat.zero_le n)
    cases hold : (W 0).orders.get? id with
    | some o₀ =>
      obtain ⟨o', ho', hvenue', htime⟩ := hgrows.stays id o₀ hold
      cases ho.symm.trans ho'
      refine .inl (List.mem_map.mpr ⟨(id, o₀), Rows.mem_filter.mpr ⟨hold, ?_⟩, ?_⟩)
      · exact beq_iff_eq.mpr (hvenue'.symm.trans hvenue)
      · unfold rowKey
        rw [htime]
    | none =>
      refine .inr (fun k' hk' => ?_)
      obtain ⟨r, hr, rfl⟩ := List.mem_map.mp hk'
      exact hgrows.newer id o hold ho r.1 r.2 (Rows.mem_filter.mp hr).1
  have hfirst : ∀ k ∈ logsAt name W clock venueId days 0,
      k ∈ ((W 0).orders.filter (fun _ o => o.venueId == venueId)).map (rowKey name) := by
    intro k hk
    obtain ⟨id, o, ho, hvenue, _, rfl⟩ := mem_logKeys.mp hk
    exact List.mem_map.mpr ⟨(id, o), Rows.mem_filter.mpr ⟨ho, beq_iff_eq.mpr hvenue⟩, rfl⟩
  have hends : (Paging.walk limit.toNat (logsAt name W clock venueId days)
      ((W 0).orders.count (fun _ o => o.venueId == venueId) / limit.toNat + 1)).next = none := by
    rw [← hlength]
    exact Paging.walk_ends (by omega) (fun n => nodup_keys_of_filter hname _ _) hfirst hbase
  obtain ⟨_, hended | ⟨_, k, _, hk, _⟩⟩ := logPages_walk clock venueId days hlimit hW
    ((W 0).orders.count (fun _ o => o.venueId == venueId) / limit.toNat + 1)
  · exact hended.1
  · cases hends.symm.trans hk

end

/-- **The order log pages completely**: whatever orders come meanwhile, the tab reaches the
last page, and has then read each order once and in order that was there at the first
request and is in the range at every one. -/
theorem order_log {ι : Type} [LinearOrder ι] (name : Id → ι) (hname : Function.Injective name)
    (W : ℕ → World) (hW : ∀ n, LogGrows name (W n) (W (n + 1))) (clock : ℕ → Time) (venueId : Id)
    (days : ℚ) (limit : ℤ) (hlimit : 1 ≤ limit) :
    ∃ n, n ≤ (W 0).orders.count (fun _ o => o.venueId == venueId) / limit.toNat + 1
      ∧ (∀ m < n, ¬ Ended (logPages name W clock venueId days limit m))
      ∧ Ended (logPages name W clock venueId days limit n)
      ∧ LogRead name W clock venueId days n
        ((logPages name W clock venueId days limit n).flatMap (fun p => p.orders)) := by
  classical
  have hends : Ended (logPages name W clock venueId days limit
      ((W 0).orders.count (fun _ o => o.venueId == venueId) / limit.toNat + 1)) :=
    logPages_ends hname hlimit hW
  have hexists : ∃ n, Ended (logPages name W clock venueId days limit n) := ⟨_, hends⟩
  have hended := Nat.find_spec hexists
  exact ⟨Nat.find hexists, Nat.find_le hends, fun m hm => Nat.find_min hexists hm, hended,
    logPages_read hname hlimit hW hended⟩

/-- Two orders of a day, of which the elder is about to be a day old. -/
def twoOrders : World :=
  { World.blank 86400000 with
    orders := Rows.ofList [⟨0, 0, 0, none, 1, .served, none, 100, .unpaid, none, none, 1⟩,
      ⟨0, 0, 0, none, 2, .served, none, 200, .unpaid, none, none, 2⟩] }

/-- A third order comes after the first request. -/
def thirdComes : ℕ → World
  | 0 => twoOrders
  | _ + 1 => twoOrders.insertOrder ⟨0, 0, 0, none, 3, 300, none⟩ []

theorem thirdComes_grows (n : ℕ) : LogGrows (fun id => id) (thirdComes n) (thirdComes (n + 1)) := by
  have hnow : ∀ id o, twoOrders.orders.get? id = some o → o.createdAt ≤ twoOrders.now := by
    intro id o ho
    have hall : ∀ r ∈ twoOrders.orders.rows, r.2.createdAt ≤ twoOrders.now := by decide +kernel
    exact hall (id, o) (Rows.get?_eq_some_iff.mp ho)
  cases n with
  | zero => exact LogGrows.insertOrder strictMono_id hnow _ _
  | succ n => exact .refl _

/-- **The range moves on**: with a page of one, the elder order is a day old when the second
page is asked for, a millisecond after the first. -/
theorem order_log_fails :
    ¬ ∀ (W : ℕ → World), (∀ n, LogGrows (fun id => id) (W n) (W (n + 1))) →
      ∀ (clock : ℕ → Time) (venueId : Id) (days : ℚ) (limit : ℤ), 1 ≤ limit →
      ∀ n, Ended (logPages (fun id => id) W clock venueId days limit n) →
      ∀ id o, (W 0).orders.get? id = some o → o.venueId = venueId →
        logSince days (clock 0) < o.createdAt →
        id ∈ ((logPages (fun id => id) W clock venueId days limit n).flatMap
          (fun p => p.orders)).map (fun r => r.id) := by
  intro h
  have hread := h thirdComes thirdComes_grows (fun n => 86400000 + n) 0 1 1 le_rfl 2
    (by unfold Ended; decide +kernel) 0 _ rfl rfl (by decide +kernel)
  revert hread
  decide +kernel

/-- Within one millisecond both orders are read. -/
theorem order_log_two :
    ∃ n, n ≤ 3 ∧ (∀ m < n, ¬ Ended (logPages (fun id => id) thirdComes (fun _ => 86400000) 0 1 1 m))
      ∧ Ended (logPages (fun id => id) thirdComes (fun _ => 86400000) 0 1 1 n)
      ∧ LogRead (fun id => id) thirdComes (fun _ => 86400000) 0 1 n
        ((logPages (fun id => id) thirdComes (fun _ => 86400000) 0 1 1 n).flatMap
          (fun p => p.orders)) :=
  order_log (fun id => id) Function.injective_id thirdComes thirdComes_grows (fun _ => 86400000) 0 1
    1 le_rfl

end Masadan
