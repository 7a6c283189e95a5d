import Masadan.Orderable

/-!
# The range of the prices

The columns of an order hold amounts up to `2147483647`. `itemSchema` bounds a price from
below and nothing else, so whether an order's amounts are in range depends on what it asks
for (`money_in_range`). What bounds an order is `orderSchema`: of no dish more than thirty
lines of twenty; so every order of a menu is in range exactly if no choice of options makes
a dish cost less than nothing or more than a six-hundredth of the range.
-/

namespace Masadan

/-- The largest amount of an `INTEGER` column. -/
def INTEGER_MAX : ℤ := 2147483647

def Fits (kurus : ℤ) : Prop := 0 ≤ kurus ∧ kurus ≤ INTEGER_MAX

/-- **The amounts of an order fit their columns**: of each line its unit price and what it
comes to, and the total. -/
structure InRange (totalKurus : ℤ) (items : List NewOrderItem) : Prop where
  units : ∀ i ∈ items, Fits i.unitPriceKurus
  lines : ∀ i ∈ items, Fits i.lineTotal
  total : Fits totalKurus

/-! ## What the schema bounds -/

/-- What `orderSchema` lets through: thirty lines, of twenty each, with twenty options. -/
theorem orderSchema_bounds {zod : Zod} {raw : RawOrder} {body : OrderBody}
    (h : orderSchema zod raw = some body) :
    body.items.length ≤ 30
      ∧ ∀ line ∈ body.items, 1 ≤ line.qty ∧ line.qty ≤ 20 ∧ line.optionIds.length ≤ 20 := by
  unfold orderSchema at h
  split at h
  · next hlen =>
    obtain ⟨items, hitems, rfl⟩ := Option.map_eq_some_iff.mp h
    refine ⟨?_, mapM_forall (fun r line hr => RawLine.parse_bounds hr) hitems⟩
    have hsame := mapM_length hitems
    dsimp only
    omega
  · cases h

/-! ## What the loop adds up -/

section

variable {w : World} {db : MenuDb} {venueId : Id} {itemIds : List Id}

/-- A line that is priced costs what its dish does with its options. -/
theorem priceLine_unit (hserves : w.Serves db) {line : OrderLine} {item : NewOrderItem}
    (h : priceLine (w.menuFor venueId itemIds) line = .ok item) :
    item.unitPriceKurus = db.unitPrice line.itemId line.optionIds
      ∧ item.lineTotal = db.unitPrice line.itemId line.optionIds * line.qty := by
  -- the line as a line of a cart
  have hcart : priceLine (w.menuFor venueId itemIds)
      (⟨(0, 0), line.itemId, line.qty, line.note, line.optionIds⟩ : CartLine).parsed = .ok item := h
  obtain ⟨hunit, hqty, _⟩ := priceLine_cart hserves hcart
  refine ⟨hunit, ?_⟩
  unfold NewOrderItem.lineTotal
  rw [hunit, hqty]
  rfl

/-- **The amounts of an order**, line by line. -/
theorem priceLines_amounts (hserves : w.Serves db) {lines : List OrderLine} {total : ℤ}
    {items : List NewOrderItem}
    (h : priceLines (w.menuFor venueId itemIds) lines 0 [] = .ok (total, items)) :
    items.map (fun i => i.unitPriceKurus)
        = lines.map (fun l => db.unitPrice l.itemId l.optionIds)
      ∧ items.map NewOrderItem.lineTotal
        = lines.map (fun l => db.unitPrice l.itemId l.optionIds * l.qty)
      ∧ total = (lines.map (fun l => db.unitPrice l.itemId l.optionIds * l.qty)).sum := by
  obtain ⟨new, hnew, htotal, heach⟩ := priceLines_spec h
  rw [List.nil_append] at hnew
  subst hnew
  have hlines : lines.map (fun l => db.unitPrice l.itemId l.optionIds * l.qty)
      = items.map NewOrderItem.lineTotal :=
    map_eq_of_forall₂ (heach.imp (fun l i hi => (priceLine_unit hserves hi).2.symm))
  refine ⟨?_, hlines.symm, ?_⟩
  · exact (map_eq_of_forall₂ (heach.imp (fun l i hi => (priceLine_unit hserves hi).1.symm))).symm
  · rw [htotal, hlines, zero_add]

/-- **An order is in range** if none of its lines costs less than nothing, and all of them no
more than there is room for. -/
theorem inRange_iff (hserves : w.Serves db) {lines : List OrderLine} {total : ℤ}
    {items : List NewOrderItem} (hqty : ∀ line ∈ lines, 1 ≤ line.qty)
    (h : priceLines (w.menuFor venueId itemIds) lines 0 [] = .ok (total, items)) :
    InRange total items ↔ (∀ l ∈ lines, 0 ≤ db.unitPrice l.itemId l.optionIds)
      ∧ (lines.map (fun l => db.unitPrice l.itemId l.optionIds * l.qty)).sum ≤ INTEGER_MAX := by
  obtain ⟨hunits, hlines, htotal⟩ := priceLines_amounts hserves h
  constructor
  · intro hrange
    refine ⟨fun l hl => ?_, htotal ▸ hrange.total.2⟩
    have hmem : db.unitPrice l.itemId l.optionIds ∈ items.map (fun i => i.unitPriceKurus) :=
      hunits ▸ List.mem_map_of_mem hl
    obtain ⟨i, hi, hsame⟩ := List.mem_map.mp hmem
    exact hsame ▸ (hrange.units i hi).1
  · rintro ⟨hpositive, hsum⟩
    have hnonneg : ∀ x ∈ lines.map (fun l => db.unitPrice l.itemId l.optionIds * l.qty), 0 ≤ x := by
      intro x hx
      obtain ⟨l, hl, rfl⟩ := List.mem_map.mp hx
      exact Int.mul_nonneg (hpositive l hl) (Int.natCast_nonneg _)
    -- no line comes to more than the total, and no dish costs more than its line
    have hline : ∀ l ∈ lines, Fits (db.unitPrice l.itemId l.optionIds * l.qty)
        ∧ Fits (db.unitPrice l.itemId l.optionIds) := by
      intro l hl
      have hle := List.single_le_sum hnonneg _ (List.mem_map_of_mem hl)
      have hunit := Int.mul_le_mul_of_nonneg_left (Int.ofNat_le.mpr (hqty l hl)) (hpositive l hl)
      rw [Int.natCast_one, mul_one] at hunit
      exact ⟨⟨hnonneg _ (List.mem_map_of_mem hl), hle.trans hsum⟩,
        hpositive l hl, hunit.trans (hle.trans hsum)⟩
    refine ⟨fun i hi => ?_, fun i hi => ?_, htotal ▸ ⟨List.sum_nonneg hnonneg, hsum⟩⟩
    · have hmem : i.unitPriceKurus ∈ lines.map (fun l => db.unitPrice l.itemId l.optionIds) :=
        hunits ▸ List.mem_map_of_mem hi
      obtain ⟨l, hl, hsame⟩ := List.mem_map.mp hmem
      exact hsame ▸ (hline l hl).2
    · have hmem : i.lineTotal ∈ lines.map (fun l => db.unitPrice l.itemId l.optionIds * l.qty) :=
        hlines ▸ List.mem_map_of_mem hi
      obtain ⟨l, hl, hsame⟩ := List.mem_map.mp hmem
      exact hsame ▸ (hline l hl).1

end

/-! ## The law -/

/-- What a dish may cost for thirty lines of twenty of it to fit. -/
def UNIT_MAX : ℤ := 3579139

/-- **No choice of options takes a dish of the venue out of bounds.** -/
def MenuDb.PricedWithin (db : MenuDb) (venueId : Id) : Prop :=
  ∀ id dish, db.menuItems.get? id = some dish → dish.venueId = venueId → dish.available = true →
    ∀ ids : List Id, ids.length ≤ 20 → (db.orderable (id, dish)).passes ids = true →
      0 ≤ db.unitPrice id ids ∧ db.unitPrice id ids ≤ UNIT_MAX

/-- The largest order of a dish: thirty lines of twenty. -/
def largestOrder (id : Id) (ids : List Id) : RawOrder :=
  ⟨List.replicate 30 ⟨id, 20, none, some ids⟩, none⟩

theorem orderSchema_largest (zod : Zod) {id : Id} {ids : List Id} (h : ids.length ≤ 20) :
    orderSchema zod (largestOrder id ids)
      = some ⟨List.replicate 30 ⟨id, 20, [], ids⟩, none⟩ := by
  have hnote : zod.length [] ≤ 200 := (zod.length_le []).trans (Nat.zero_le 200)
  have hline : RawLine.parse zod ⟨id, 20, none, some ids⟩ = some ⟨id, 20, [], ids⟩ :=
    if_pos ⟨(by decide : (1 : ℤ) ≤ 20), (by decide : (20 : ℤ) ≤ 20), hnote, h⟩
  have hall : ∀ n, (List.replicate n (⟨id, 20, none, some ids⟩ : RawLine)).mapM
      (RawLine.parse zod) = some (List.replicate n ⟨id, 20, [], ids⟩) := by
    intro n
    induction n with
    | zero => rfl
    | succ n ih =>
      rw [List.replicate_succ, List.mapM_cons, hline, ih]
      rfl
  unfold orderSchema largestOrder
  dsimp only
  rw [if_pos (by rw [List.length_replicate]; exact ⟨by decide, by decide, rfl⟩), hall]
  rfl

section

variable {w : World} {db : MenuDb} {venueId : Id}

/-- Orders that are all in range bound what a dish costs. -/
theorem pricedWithin_of_inRange (zod : Zod) (hserves : w.Serves db)
    (h : ∀ raw body total items, orderSchema zod raw = some body →
      priceLines (w.menuFor venueId (body.items.map (fun i => i.itemId))) body.items 0 []
        = .ok (total, items) → InRange total items) : db.PricedWithin venueId := by
  intro id dish hdish hvenue havailable ids hids hpasses
  have hfound : w.menuFor venueId ((List.replicate 30 (⟨id, 20, [], ids⟩ : OrderLine)).map
      (fun i => i.itemId)) id = some (db.orderable (id, dish)) := by
    unfold World.menuFor
    rw [List.map_replicate, if_pos (List.contains_iff_mem.mpr (List.mem_replicate.mpr
      ⟨by decide, rfl⟩)), hserves, hdish]
    exact if_pos (beq_iff_eq.mpr hvenue)
  have heach : ∀ line ∈ List.replicate 30 (⟨id, 20, [], ids⟩ : OrderLine), ∃ item,
      priceLine (w.menuFor venueId ((List.replicate 30 (⟨id, 20, [], ids⟩ : OrderLine)).map
        (fun i => i.itemId))) line = .ok item := by
    intro line hline
    rw [List.eq_of_mem_replicate hline]
    exact priceLine_of_passes hfound havailable hpasses
  obtain ⟨⟨total, items⟩, hpriced⟩ := priceLines_of_each heach 0 []
  have hrange := h _ _ total items (orderSchema_largest zod hids) hpriced
  have hqty : ∀ line ∈ List.replicate 30 (⟨id, 20, [], ids⟩ : OrderLine), 1 ≤ line.qty := by
    intro line hline
    rw [List.eq_of_mem_replicate hline]
    exact Nat.succ_pos 19
  rw [inRange_iff hserves hqty hpriced] at hrange
  obtain ⟨hunit, hsum⟩ := hrange
  have hline : (⟨id, 20, [], ids⟩ : OrderLine) ∈ List.replicate 30 ⟨id, 20, [], ids⟩ :=
    List.mem_replicate.mpr ⟨by decide, rfl⟩
  have hfirst := hunit _ hline
  refine ⟨hfirst, ?_⟩
  rw [List.map_replicate, List.sum_replicate, nsmul_eq_mul] at hsum
  unfold INTEGER_MAX at hsum
  unfold UNIT_MAX
  push_cast at hsum
  omega

/-- Bounds on what the dishes cost keep every order in range. -/
theorem inRange_of_pricedWithin {zod : Zod} (hserves : w.Serves db) (h : db.PricedWithin venueId)
    {raw : RawOrder} {body : OrderBody} {total : ℤ} {items : List NewOrderItem}
    (hbody : orderSchema zod raw = some body)
    (hpriced : priceLines (w.menuFor venueId (body.items.map (fun i => i.itemId))) body.items 0 []
      = .ok (total, items)) : InRange total items := by
  obtain ⟨hlen, hlines⟩ := orderSchema_bounds hbody
  have hunit : ∀ l ∈ body.items, 0 ≤ db.unitPrice l.itemId l.optionIds
      ∧ db.unitPrice l.itemId l.optionIds ≤ UNIT_MAX := by
    intro l hl
    obtain ⟨item, hitem⟩ := priceLines_each hpriced l hl
    obtain ⟨_, hfor, havailable, hpasses⟩ := priceLine_passes hitem
    obtain ⟨dish, hdish, rfl, hvenue⟩ := hserves.menuFor hfor
    exact h _ dish hdish hvenue havailable _ (hlines l hl).2.2 hpasses
  refine (inRange_iff hserves (fun l hl => (hlines l hl).1) hpriced).mpr
    ⟨fun l hl => (hunit l hl).1, ?_⟩
  have hline : ∀ x ∈ body.items.map (fun l => db.unitPrice l.itemId l.optionIds * (l.qty : ℤ)),
      x ≤ UNIT_MAX * 20 := by
    intro x hx
    obtain ⟨l, hl, rfl⟩ := List.mem_map.mp hx
    exact Int.mul_le_mul (hunit l hl).2 (by have := (hlines l hl).2.1; omega) (by omega) (by decide)
  have hsum := List.sum_le_card_nsmul _ _ hline
  rw [List.length_map, nsmul_eq_mul] at hsum
  unfold UNIT_MAX at hsum
  unfold INTEGER_MAX
  push_cast at hsum
  omega

end

/-- **Money stays in range**, for an order: if none of its lines costs less than nothing and
all of them come to no more than there is room for; and for a menu: all its orders are in
range exactly if no choice of options makes a dish cost less than nothing or more than a
six-hundredth of the room. -/
theorem money_in_range (zod : Zod) (w : World) (db : MenuDb) (hserves : w.Serves db) (venueId : Id) :
    (∀ raw body total items, orderSchema zod raw = some body →
      priceLines (w.menuFor venueId (body.items.map (fun i => i.itemId))) body.items 0 []
        = .ok (total, items) →
      (InRange total items ↔ (∀ l ∈ body.items, 0 ≤ db.unitPrice l.itemId l.optionIds)
        ∧ (body.items.map (fun l => db.unitPrice l.itemId l.optionIds * l.qty)).sum ≤ INTEGER_MAX))
    ∧ ((∀ raw body total items, orderSchema zod raw = some body →
      priceLines (w.menuFor venueId (body.items.map (fun i => i.itemId))) body.items 0 []
        = .ok (total, items) → InRange total items) ↔ db.PricedWithin venueId) := by
  constructor
  · intro raw body total items hbody hpriced
    exact inRange_iff hserves (fun l hl => ((orderSchema_bounds hbody).2 l hl).1) hpriced
  · refine ⟨pricedWithin_of_inRange zod hserves, fun h raw body total items hbody hpriced => ?_⟩
    exact inRange_of_pricedWithin hserves h hbody hpriced

/-- A soup of 50 with an extra that takes 60 off it. -/
def rebatedSoup : RawItem :=
  { categoryId := 0, nameTr := text "Çorba", nameEn := none, descTr := none, descEn := none,
    priceKurus := 5000, photoUrl := none, tags := none, available := none, sortOrder := none,
    modifierGroups := some [⟨text "İndirim", none, none, none,
      [⟨text "Personel", none, some (-6000)⟩]⟩] }

/-- The admin saves it. -/
def rebatedMenu : MenuDb :=
  ((postItem (some ⟨0, 0, []⟩) (some rebatedSoup)).runAlone MenuDb.exec oneCategory).1

/-- The kitchen that serves it. -/
def rebatedKitchen : World :=
  { kitchenOpen with menuItems := Rows.ofList ((rebatedMenu.menuItems.rows.map rebatedMenu.orderable)) }

theorem rebatedKitchen_serves : rebatedKitchen.Serves rebatedMenu := by
  intro id
  cases id with
  | zero => rfl
  | succ n => rfl

/-- **The soup is saved, and ordered for less than nothing.** -/
theorem money_in_range_fails :
    ¬ ∀ (zod : Zod) (w : World) (db : MenuDb), w.Serves db →
      (∀ id dish, db.menuItems.get? id = some dish →
        ∃ staff raw, oneCategory.Saves staff raw id db) →
      ∀ raw body total items, orderSchema zod raw = some body →
        priceLines (w.menuFor 0 (body.items.map (fun i => i.itemId))) body.items 0 []
          = .ok (total, items) → InRange total items := by
  intro h
  have hsaved : ∀ id dish, rebatedMenu.menuItems.get? id = some dish →
      ∃ staff raw, oneCategory.Saves staff raw id rebatedMenu := by
    intro id dish hdish
    cases id with
    | zero => exact ⟨some ⟨0, 0, []⟩, rebatedSoup, .inl rfl⟩
    | succ n => cases hdish
  have hrange := h .plain rebatedKitchen rebatedMenu rebatedKitchen_serves hsaved
    ⟨[⟨0, 1, none, some [0]⟩], none⟩ ⟨[⟨0, 1, [], [0]⟩], none⟩ (-1000) _ rfl rfl
  exact absurd hrange.total.1 (by decide)

/-- Of the two soups with both extras every order is in range. -/
theorem money_in_range_soup : InRange 260 soupLines :=
  ((money_in_range .plain soupKitchen (soupMenu true) (soupKitchen_serves true) 0).1
    (orderBody soupCart (text "cart-0001")) _ 260 soupLines rfl rfl).mpr (by decide)

end Masadan
