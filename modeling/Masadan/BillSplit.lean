import Masadan.Amounts
import Masadan.OrderedMap

/-!
# The split of a bill

A bill lists its lines and, for parties that pay separately, what each phone ordered. One loop
makes both, over the visit's orders in the order of their times: it appends the lines of an
order to the list and adds what they come to under the order's session (`buildBill_loop`).

The second is a tally, so each session that ordered has one share, the shares are numbered in
the order of the sessions' first orders, and they add up to the bill (`split_adds_up`).
-/

namespace Masadan

/-! ## The loop -/

/-- A phone's entry: phones are labelled by the order they first appeared. -/
def phoneEntry (i : ℕ) (p : Id × ℤ) : BillPhone := ⟨p.1, text s!"Telefon {i + 1}", p.2⟩

/-- The inner loop: one line more, and the order's total with it. -/
def billItem (acc : List BillLine × ℤ) (item : Id × OrderItem) : List BillLine × ℤ :=
  (acc.1 ++ [item.2.billLine], acc.2 + item.2.lineTotal)

/-- **The loop of `buildBill`**: the lines, and what there is per phone. -/
def World.billOrder (w : World) (acc : List BillLine × List (Id × ℤ)) (order : Id × Order) :
    List BillLine × List (Id × ℤ) :=
  let r := (w.liveItems order.1).foldl billItem (acc.1, 0)
  (r.1, addTo acc.2 order.2.sessionId r.2)

/-- A visit's orders that are neither refused nor withdrawn, by time. -/
def World.billOrders (w : World) (visitId : Id) : List (Id × Order) :=
  orderBy (fun o => o.2.createdAt) (w.billedOrders visitId)

theorem foldl_billItem (items : List (Id × OrderItem)) (acc : List BillLine × ℤ) :
    items.foldl billItem acc = (acc.1 ++ items.map (fun i => i.2.billLine),
      acc.2 + (items.map (fun i => i.2.lineTotal)).sum) := by
  induction items generalizing acc with
  | nil =>
    rw [List.map_nil, List.map_nil, List.append_nil, List.sum_nil, add_zero]
    rfl
  | cons item items ih =>
    rw [List.foldl_cons, ih]
    unfold billItem
    rw [List.map_cons, List.map_cons, List.sum_cons, List.append_assoc, List.singleton_append,
      add_assoc]

/-- **A bill says what the loop leaves.** -/
theorem buildBill_loop {w : World} {visitId : Id} {bill : Bill}
    (h : w.buildBill visitId = some bill) :
    ((w.billOrders visitId).foldl w.billOrder ([], [])).1 = bill.lines
      ∧ ((w.billOrders visitId).foldl w.billOrder ([], [])).2.mapIdx phoneEntry
        = bill.phones := by
  have hloop : ∀ (orders : List (Id × Order)) (acc : List BillLine × List (Id × ℤ)),
      orders.foldl w.billOrder acc
        = (acc.1 ++ orders.flatMap (fun o => (w.liveItems o.1).map (fun i => i.2.billLine)),
          orders.foldl (fun m o => addTo m o.2.sessionId (w.liveTotal o.1)) acc.2) := by
    intro orders
    induction orders with
    | nil => exact fun acc => Prod.ext (List.append_nil _).symm rfl
    | cons o orders ih =>
      intro acc
      rw [List.foldl_cons, ih, List.flatMap_cons, List.foldl_cons]
      unfold World.billOrder World.liveTotal
      rw [foldl_billItem, List.append_assoc, zero_add]
  unfold World.buildBill at h
  split at h
  · cases h
  · cases h
    rw [hloop]
    exact ⟨List.nil_append _, rfl⟩

/-! ## The shares -/

/-- A session's orders on the bill. -/
def World.sharedOrders (w : World) (visitId sessionId : Id) : List (Id × Order) :=
  (w.billOrders visitId).filter (fun o => o.2.sessionId = sessionId)

/-- **The split adds up.** -/
structure SplitAddsUp (w : World) (visitId : Id) (bill : Bill) : Prop where
  /-- The bill is of the visit's orders that are neither refused nor withdrawn. -/
  covers : (w.billOrders visitId).Perm (w.billedOrders visitId)
  /-- In the order of their times. -/
  inTime : (w.billOrders visitId).Pairwise (fun o o' => o.2.createdAt ≤ o'.2.createdAt)
  orderIds : bill.orderIds = (w.billOrders visitId).map Prod.fst
  /-- One phone for each session among them. -/
  sessions : ∀ sessionId, sessionId ∈ bill.phones.map (fun p => p.sessionId)
    ↔ ∃ o ∈ w.billedOrders visitId, o.2.sessionId = sessionId
  once : (bill.phones.map (fun p => p.sessionId)).Nodup
  /-- Numbered from one on. -/
  labels : bill.phones.map (fun p => p.label)
    = (List.range bill.phones.length).map (fun i => text s!"Telefon {i + 1}")
  /-- In the order of the sessions' first orders. -/
  inOrder : (bill.phones.map (fun p => p.sessionId)).Pairwise (fun s s' =>
    ((w.billOrders visitId).map (fun o => o.2.sessionId)).idxOf s
      < ((w.billOrders visitId).map (fun o => o.2.sessionId)).idxOf s')
  /-- What a session's live lines come to. -/
  share : ∀ p ∈ bill.phones, p.totalKurus
    = (((w.sharedOrders visitId p.sessionId).flatMap (fun o => w.liveItems o.1)).map
        (fun i => i.2.lineTotal)).sum
  adds : (bill.phones.map (fun p => p.totalKurus)).sum = bill.totalKurus
  /-- What all live lines come to. -/
  total : bill.totalKurus = ((bill.orderIds.flatMap w.liveItems).map
    (fun i => i.2.unitPriceKurus * (i.2.qty : ℤ))).sum

/-- What is added to is tallied. -/
theorem addTo_eq (perPhone : List (Id × ℤ)) (id : Id) (amount : ℤ) :
    addTo perPhone id amount = OrderedMap.add perPhone id amount := by
  unfold OrderedMap.add
  induction perPhone with
  | nil => rfl
  | cons e rest ih =>
    obtain ⟨k, total⟩ := e
    unfold addTo OrderedMap.set
    rw [OrderedMap.lookup_cons]
    by_cases hk : k = id
    · rw [if_pos hk, if_pos hk, if_pos hk.symm]
      rfl
    · rw [if_neg hk, if_neg hk, if_neg (fun h => hk h.symm), ih]

/-- The tally of a bill. -/
def World.perPhone (w : World) (visitId : Id) : List (Id × ℤ) :=
  OrderedMap.tally (fun o : Id × Order => o.2.sessionId) (fun o => w.liveTotal o.1)
    (w.billOrders visitId)

theorem buildBill_phones {w : World} {visitId : Id} {bill : Bill}
    (h : w.buildBill visitId = some bill) :
    bill.phones = (w.perPhone visitId).mapIdx phoneEntry := by
  unfold World.buildBill at h
  split at h
  · cases h
  · cases h
    simp only [addTo_eq]
    rfl

/-- What is read of an entry without its number. -/
theorem map_phoneEntry {γ : Type} (m : List (Id × ℤ)) {g : BillPhone → γ} {h : Id × ℤ → γ}
    (hg : ∀ i p, g (phoneEntry i p) = h p) : (m.mapIdx phoneEntry).map g = m.map h := by
  refine List.ext_getElem? (fun i => ?_)
  rw [List.getElem?_map, List.getElem?_mapIdx, Option.map_map, List.getElem?_map]
  exact congrArg (fun k => Option.map k m[i]?) (funext (hg i))

theorem label_phoneEntry (m : List (Id × ℤ)) : (m.mapIdx phoneEntry).map (fun p => p.label)
    = (List.range (m.mapIdx phoneEntry).length).map (fun i => text s!"Telefon {i + 1}") := by
  refine List.ext_getElem ?_ (fun i _ _ => ?_)
  · rw [List.length_map, List.length_map, List.length_range]
  · rw [List.getElem_map, List.getElem_mapIdx, List.getElem_map, List.getElem_range]
    rfl

theorem sum_liveTotal (w : World) (orders : List (Id × Order)) :
    (orders.map (fun o => w.liveTotal o.1)).sum
      = ((orders.flatMap (fun o => w.liveItems o.1)).map (fun i => i.2.lineTotal)).sum :=
  (sum_flatMap orders (fun o => w.liveItems o.1) (fun i => i.2.lineTotal)).symm

/-- **The split of a bill adds up**, for every visit. -/
theorem split_adds_up {w : World} {visitId : Id} {v : TableVisit}
    (h : w.tableVisits.get? visitId = some v) :
    ∃ bill, w.buildBill visitId = some bill ∧ SplitAddsUp w visitId bill := by
  obtain ⟨bill, hbill⟩ := buildBill_isSome h
  have hperm : (w.billOrders visitId).Perm (w.billedOrders visitId) := orderBy_perm _ _
  have hids : bill.orderIds = (w.billOrders visitId).map Prod.fst := by
    unfold World.buildBill at hbill
    rw [h] at hbill
    cases hbill
    rfl
  have hphones := buildBill_phones hbill
  have hkeys : bill.phones.map (fun p => p.sessionId)
      = ((w.billOrders visitId).map (fun o => o.2.sessionId)).eraseDups := by
    rw [hphones, map_phoneEntry _ (h := Prod.fst) (fun _ _ => rfl)]
    exact OrderedMap.keys_tally _ _ _
  have htotal : bill.totalKurus
      = ((w.billOrders visitId).map (fun o => w.liveTotal o.1)).sum := by
    rw [buildBill_total hbill]
    exact (hperm.map _).sum_eq.symm
  refine ⟨bill, hbill, ?_⟩
  constructor
  case covers => exact hperm
  case inTime => exact List.pairwise_insertionSort _ _
  case orderIds => exact hids
  case sessions =>
    intro sessionId
    rw [hkeys, List.mem_eraseDups, List.mem_map]
    exact exists_congr (fun o => and_congr_left (fun _ => hperm.mem_iff))
  case once =>
    rw [hkeys]
    exact OrderedMap.nodup_eraseDups _
  case labels =>
    rw [hphones]
    exact label_phoneEntry _
  case inOrder =>
    rw [hkeys]
    exact OrderedMap.eraseDups_inOrder _
  case share =>
    intro p hp
    rw [hphones] at hp
    obtain ⟨i, hi, rfl⟩ := List.mem_mapIdx.mp hp
    rw [← sum_liveTotal]
    exact OrderedMap.mem_tally (List.getElem_mem hi)
  case adds =>
    rw [hphones, map_phoneEntry _ (h := Prod.snd) (fun _ _ => rfl), htotal]
    exact OrderedMap.sum_tally _ _ _
  case total =>
    rw [htotal, sum_liveTotal, hids, List.flatMap_map]
    rfl

/-- Two phones at a table. The first orders twice, the second in between; a third one's order is
refused, and a line of the first order has been voided. -/
def twoPhones : World :=
  { World.blank 0 with
    tables := Rows.ofList [⟨0, [], [], 1, true⟩]
    tableVisits := Rows.ofList [⟨0, 0, .opened, 0, none, none, none, none, none, none, none⟩]
    orders := Rows.ofList [⟨0, 0, 5, some 0, 1, .served, none, 300, .unpaid, none, none, 1⟩,
      ⟨0, 0, 4, some 0, 2, .ready, none, 500, .unpaid, none, none, 2⟩,
      ⟨0, 0, 5, some 0, 3, .received, none, 100, .unpaid, none, none, 3⟩,
      ⟨0, 0, 6, some 0, 4, .rejected, none, 900, .unpaid, none, none, 4⟩]
    orderItems := Rows.ofList [⟨0, none, [], 150, 2, [], [], none⟩,
      ⟨0, none, [], 700, 0, [], [], some 2⟩, ⟨1, none, [], 500, 1, [], [], none⟩,
      ⟨2, none, [], 100, 1, [], [], none⟩, ⟨3, none, [], 900, 1, [], [], none⟩] }

theorem split_adds_up_two :
    ∃ bill, twoPhones.buildBill 0 = some bill ∧ SplitAddsUp twoPhones 0 bill :=
  split_adds_up (v := ⟨0, 0, .opened, 0, none, none, none, none, none, none, none⟩) (by decide)

example : (twoPhones.buildBill 0).map (fun b => (b.phones, b.totalKurus))
    = some ([⟨5, text "Telefon 1", 400⟩, ⟨4, text "Telefon 2", 500⟩], 900) := by
  decide

end Masadan
