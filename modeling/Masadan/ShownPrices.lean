import Masadan.OrderTotals
import Masadan.PhoneServer

/-!
# What the phone shows and what is charged

The phone prices its cart from the menu it is shown, which lists the dishes of the active
categories; the server prices a submission from the dishes of the venue, whatever their
categories. The two add up differently written sums of the same prices: the phone goes
through the dish's options and takes those the line names, the server through the options
the line names and looks each up.

So the two agree on a line exactly when its dish is listed, or costs nothing with what is
chosen of it (`shown_prices`). A dish whose category was closed is shown as nothing and
charged in full (`shown_prices_fails`).
-/

namespace Masadan

/-! ## Prices in the tables -/

namespace MenuDb

/-- What a dish costs with the options chosen of it. -/
def unitPrice (w : MenuDb) (itemId : Id) (optionIds : List Id) : ℤ :=
  ((w.menuItems.get? itemId).map (fun d => d.priceKurus)).getD 0
    + (optionIds.map (fun id =>
      ((w.modifierOptions.get? id).map (fun o => o.priceDeltaKurus)).getD 0)).sum

/-- The dish is in an active category of the venue. -/
def listed (w : MenuDb) (venueId itemId : Id) : Bool :=
  ((w.menuItems.get? itemId).bind (fun d => w.categories.get? d.categoryId)).any
    (fun c => c.venueId == venueId && c.active)

section

variable {w : MenuDb}

theorem listed_iff {venueId itemId : Id} : w.listed venueId itemId = true ↔
    ∃ d c, w.menuItems.get? itemId = some d ∧ (d.categoryId, c) ∈ w.categoriesOf venueId := by
  unfold listed
  rw [Option.any_eq_true]
  constructor
  · rintro ⟨c, hc, hactive⟩
    obtain ⟨d, hd, hcategory⟩ := Option.bind_eq_some_iff.mp hc
    rw [Bool.and_eq_true, beq_iff_eq] at hactive
    exact ⟨d, c, hd, mem_categoriesOf.mpr ⟨hcategory, hactive⟩⟩
  · rintro ⟨d, c, hd, hc⟩
    obtain ⟨hcategory, hvenue, hactive⟩ := mem_categoriesOf.mp hc
    refine ⟨c, Option.bind_eq_some_iff.mpr ⟨d, hd, hcategory⟩, ?_⟩
    rw [hvenue, hactive, beq_self_eq_true]
    rfl

/-- **What the phone finds under a dish's id**: the dish, if it is listed. -/
theorem itemById_loaded {venueId : Id} {menu : VenueMenu} (h : w.loadVenueMenu venueId = some menu)
    (id : Id) : menu.itemById id = if w.listed venueId id
      then (w.menuItems.get? id).map (fun d => w.itemView (id, d)) else none := by
  obtain ⟨venue, _, rfl⟩ := Option.map_eq_some_iff.mp h
  have hmem : ∀ i : MenuItemView,
      i ∈ ((w.categoriesOf venueId).map w.categoryView).flatMap (fun c => c.items) ↔
        ∃ d c, w.menuItems.get? i.id = some d ∧ (d.categoryId, c) ∈ w.categoriesOf venueId
          ∧ i = w.itemView (i.id, d) := by
    intro i
    rw [List.mem_flatMap]
    constructor
    · rintro ⟨view, hview, hi⟩
      obtain ⟨⟨k, c⟩, hc, rfl⟩ := List.mem_map.mp hview
      obtain ⟨⟨j, d⟩, hd, rfl⟩ := List.mem_map.mp hi
      obtain ⟨hget, rfl⟩ := mem_itemsOf.mp hd
      exact ⟨d, c, hget, hc, rfl⟩
    · rintro ⟨d, c, hd, hc, hi⟩
      refine ⟨_, List.mem_map_of_mem hc, ?_⟩
      rw [hi]
      exact List.mem_map_of_mem (mem_itemsOf.mpr ⟨hd, rfl⟩)
  unfold VenueMenu.itemById
  dsimp only
  cases hfind : ((((w.categoriesOf venueId).map w.categoryView).flatMap
      (fun c => c.items)).reverse).find? (fun i => i.id == id) with
  | none =>
    split
    · next hlisted =>
      obtain ⟨d, c, hd, hc⟩ := listed_iff.mp hlisted
      have hthere := (hmem (w.itemView (id, d))).mpr ⟨d, c, hd, hc, rfl⟩
      have hnot := List.find?_eq_none.mp hfind _ (List.mem_reverse.mpr hthere)
      exact absurd (beq_iff_eq.mpr rfl) hnot
    · rfl
  | some i =>
    have hid := List.find?_some hfind
    obtain rfl : i.id = id := beq_iff_eq.mp hid
    obtain ⟨d, c, hd, hc, hi⟩ :=
      (hmem i).mp (List.mem_reverse.mp (List.mem_of_find?_eq_some hfind))
    rw [if_pos (listed_iff.mpr ⟨d, c, hd, hc⟩), hd]
    exact congrArg some hi

/-! ## The options of a dish -/

/-- The options of a dish, group by group. -/
def optionsOfDish (w : MenuDb) (itemId : Id) : List (Id × DishOption) :=
  (w.groupsOf itemId).flatMap (fun g => w.optionsOf g.1)

theorem mem_optionsOfDish {itemId : Id} {o : Id × DishOption} : o ∈ w.optionsOfDish itemId ↔
    w.modifierOptions.get? o.1 = some o.2
      ∧ ∃ g, w.modifierGroups.get? o.2.groupId = some g ∧ g.itemId = itemId := by
  unfold optionsOfDish
  rw [List.mem_flatMap]
  constructor
  · rintro ⟨⟨k, g⟩, hg, ho⟩
    obtain ⟨hget, rfl⟩ := mem_optionsOf.mp ho
    exact ⟨hget, g, mem_groupsOf.mp hg⟩
  · rintro ⟨hget, g, hg⟩
    exact ⟨(o.2.groupId, g), mem_groupsOf.mpr hg, mem_optionsOf.mpr ⟨hget, rfl⟩⟩

/-- No option is there twice. -/
theorem nodup_optionsOfDish (w : MenuDb) (itemId : Id) :
    ((w.optionsOfDish itemId).map Prod.fst).Nodup := by
  have hrows : ∀ {δ : Type} (t : Rows δ) (p : ℕ → δ → Bool), (t.filter p).Nodup :=
    fun t p => (List.Nodup.of_map _ t.nodup_keys).filter _
  have hdistinct : (w.optionsOfDish itemId).Nodup := by
    refine List.nodup_flatMap.mpr ⟨fun g _ => (orderBy_perm _ _).nodup_iff.mpr (hrows _ _), ?_⟩
    have hgroups : (w.groupsOf itemId).Nodup := (orderBy_perm _ _).nodup_iff.mpr (hrows _ _)
    refine hgroups.pairwise_of_forall_ne (fun g hg g' hg' hne => ?_)
    intro o ho ho'
    -- an option of two groups would make them one
    have hsame : g.1 = g'.1 := (mem_optionsOf.mp ho).2.symm.trans (mem_optionsOf.mp ho').2
    have hget := (mem_groupsOf.mp hg).1
    rw [hsame, (mem_groupsOf.mp hg').1] at hget
    exact hne (Prod.ext hsame (Option.some.inj hget).symm)
  refine hdistinct.map_on (fun o ho o' ho' hid => ?_)
  have hget := (mem_optionsOfDish.mp ho).1
  rw [hid, (mem_optionsOfDish.mp ho').1] at hget
  exact Prod.ext hid (Option.some.inj hget).symm

/-- **The phone's sum**: through the dish's options, those that are named. -/
theorem phone_options {itemId : Id} {ids : List Id} (hids : ids.Nodup)
    (hthere : ∀ id ∈ ids, ∃ o, (id, o) ∈ w.optionsOfDish itemId) :
    (((w.optionsOfDish itemId).filter (fun o => ids.contains o.1)).map
      (fun o => o.2.priceDeltaKurus)).sum
      = (ids.map (fun id =>
        ((w.modifierOptions.get? id).map (fun o => o.priceDeltaKurus)).getD 0)).sum := by
  have hperm : (((w.optionsOfDish itemId).filter (fun o => ids.contains o.1)).map Prod.fst).Perm
      ids := by
    refine (List.perm_ext_iff_of_nodup ?_ hids).mpr (fun id => ?_)
    · exact (w.nodup_optionsOfDish itemId).sublist (List.filter_sublist.map _)
    · rw [List.mem_map]
      constructor
      · rintro ⟨o, ho, rfl⟩
        exact List.contains_iff_mem.mp (List.mem_filter.mp ho).2
      · intro hid
        obtain ⟨o, ho⟩ := hthere id hid
        exact ⟨(id, o), List.mem_filter.mpr ⟨ho, List.contains_iff_mem.mpr hid⟩, rfl⟩
  rw [← (hperm.map _).sum_eq, List.map_map]
  refine congrArg List.sum (List.map_congr_left (fun o ho => ?_))
  have hget := (mem_optionsOfDish.mp (List.mem_filter.mp ho).1).1
  show _ = ((w.modifierOptions.get? o.1).map _).getD 0
  rw [hget]
  rfl

/-- What the server finds under an option's id is the option, of the dish. -/
theorem option?_orderable {d : Id × Dish} {id : Id} {o : ModifierOption × Id}
    (h : (w.orderable d).option? id = some o) :
    ∃ row, (id, row) ∈ w.optionsOfDish d.1 ∧ o.1.priceDeltaKurus = row.priceDeltaKurus := by
  unfold MenuItem.option? at h
  have hid := List.find?_some h
  obtain rfl : o.1.id = id := beq_iff_eq.mp hid
  have hmem := List.mem_reverse.mp (List.mem_of_find?_eq_some h)
  obtain ⟨g, hg, ho⟩ := List.mem_flatMap.mp hmem
  obtain ⟨⟨k, row⟩, hrow, rfl⟩ := List.mem_map.mp hg
  obtain ⟨p, hp, rfl⟩ := List.mem_map.mp ho
  obtain ⟨⟨j, option⟩, hoption, rfl⟩ := List.mem_map.mp hp
  obtain ⟨hget, hof⟩ := Rows.mem_filter.mp hoption
  obtain ⟨hgroup, hitem⟩ := Rows.mem_filter.mp hrow
  rw [beq_iff_eq] at hof hitem
  refine ⟨option, mem_optionsOfDish.mpr ⟨hget, row, ?_, hitem⟩, rfl⟩
  rw [hof]
  exact hgroup

/-- **The server's sum**: through the options that are named, each looked up. -/
theorem server_options {d : Id × Dish} {ids : List Id} {chosen : List (ModifierOption × Id)}
    (h : List.Forall₂ (fun id o => (w.orderable d).option? id = some o) ids chosen) :
    (chosen.map (fun o => o.1.priceDeltaKurus)).sum
        = (ids.map (fun id =>
          ((w.modifierOptions.get? id).map (fun o => o.priceDeltaKurus)).getD 0)).sum
      ∧ ∀ id ∈ ids, ∃ o, (id, o) ∈ w.optionsOfDish d.1 := by
  induction h with
  | nil => exact ⟨rfl, fun _ hid => absurd hid List.not_mem_nil⟩
  | cons ho _ ih =>
    obtain ⟨row, hrow, hdelta⟩ := option?_orderable ho
    have hget := (mem_optionsOfDish.mp hrow).1
    refine ⟨?_, List.forall_mem_cons.mpr ⟨⟨row, hrow⟩, ih.2⟩⟩
    rw [List.map_cons, List.sum_cons, List.map_cons, List.sum_cons, ih.1, hdelta, hget]
    rfl

end

end MenuDb

/-! ## A line on either side -/

/-- The server's dishes are those of the menu's tables. -/
def World.Serves (w : World) (db : MenuDb) : Prop :=
  ∀ id, w.menuItems.get? id = (db.menuItems.get? id).map (fun d => db.orderable (id, d))

section

variable {db : MenuDb} {line : CartLine}

/-- **What the server charges for a line** that it accepts, and of whose options. -/
theorem priceLine_cart {w : World} (hserves : w.Serves db) {venueId : Id} {itemIds : List Id}
    {item : NewOrderItem} (h : priceLine (w.menuFor venueId itemIds) line.parsed = .ok item) :
    item.unitPriceKurus = db.unitPrice line.itemId line.optionIds
      ∧ item.qty = line.qty.toNat
      ∧ ∀ id ∈ line.optionIds, ∃ o, (id, o) ∈ db.optionsOfDish line.itemId := by
  obtain ⟨dish, chosen, hfor, _, hchosen, rfl⟩ := priceLine_ok h
  unfold World.menuFor at hfor
  split at hfor
  · obtain ⟨hget, _⟩ := Option.filter_eq_some_iff.mp hfor
    rw [hserves] at hget
    obtain ⟨d, hd, rfl⟩ := Option.map_eq_some_iff.mp hget
    have hdish : db.menuItems.get? line.itemId = some d := hd
    obtain ⟨hsum, hthere⟩ := MenuDb.server_options hchosen
    refine ⟨?_, rfl, hthere⟩
    unfold MenuDb.unitPrice
    rw [hdish]
    exact congrArg (d.priceKurus + ·) hsum
  · cases hfor

/-- The options on the phone's menu are the dish's. -/
theorem itemView_options (db : MenuDb) (d : Id × Dish) :
    (db.itemView d).modifierGroups.flatMap (fun g => g.options)
      = (db.optionsOfDish d.1).map
        (fun o => ⟨o.1, o.2.nameTr, o.2.nameEn, o.2.priceDeltaKurus⟩) := by
  unfold MenuDb.itemView MenuDb.optionsOfDish
  dsimp only
  rw [List.flatMap_map, List.map_flatMap]
  rfl

/-- **What the phone shows for a line** of options the dish has. -/
theorem lineTotal_cart {venueId : Id} {menu : VenueMenu}
    (hmenu : db.loadVenueMenu venueId = some menu) (hids : line.optionIds.Nodup)
    (hthere : ∀ id ∈ line.optionIds, ∃ o, (id, o) ∈ db.optionsOfDish line.itemId) :
    menu.lineTotal line = if db.listed venueId line.itemId
      then db.unitPrice line.itemId line.optionIds * line.qty else 0 := by
  unfold VenueMenu.lineTotal
  rw [MenuDb.itemById_loaded hmenu]
  by_cases hlisted : db.listed venueId line.itemId = true
  · obtain ⟨d, _, hd, _⟩ := MenuDb.listed_iff.mp hlisted
    rw [if_pos hlisted, if_pos hlisted, hd]
    dsimp only [Option.map_some]
    rw [itemView_options, List.filter_map, List.map_map]
    refine congrArg (· * line.qty) ?_
    unfold MenuDb.unitPrice
    rw [hd]
    exact congrArg (d.priceKurus + ·) (MenuDb.phone_options hids hthere)
  · rw [if_neg hlisted, if_neg hlisted]

end

/-! ## The law -/

/-- **The program has placed the order**: it has inserted the row with its lines. -/
def HasPlaced {hmac : Hmac} (t : (phoneServer hmac).Thread) (data : NewOrder)
    (items : List NewOrderItem) : Prop :=
  ∃ e ∈ t.view.past, e.op = .orderCreate data items ∧ e.after = e.before.insertOrder data items

/-- **The customer is charged what the phone shows**, in all and for each line. -/
structure ShownRight (menu : VenueMenu) (cart : List CartLine) (data : NewOrder)
    (items : List NewOrderItem) : Prop where
  total : data.totalKurus = menu.cartTotal cart
  lines : items.map NewOrderItem.lineTotal = cart.map menu.lineTotal

/-- **A placed order was priced**: its body passed the schema, and the loop, over the dishes
of the menu. -/
theorem placed_priced {hmac : Hmac} {w₀ : World} {db : MenuDb} (hserves : w₀.Serves db)
    {acts : List (phoneServer hmac).Action} {t : (phoneServer hmac).Thread}
    (ht : t ∈ (phoneRun hmac w₀ acts).threads) {req : OrderRequest} (hreq : t.req = .order req)
    {data : NewOrder} {items : List NewOrderItem} (hplaced : HasPlaced t data items) :
    ∃ (w : World) (body : OrderBody), w.Serves db ∧ req.body.bind (orderSchema req.zod) = some body
      ∧ priceLines (w.menuFor data.venueId (body.items.map (fun i => i.itemId))) body.items 0 []
        = .ok (data.totalKurus, items) := by
  obtain ⟨e, he, hop, hafter⟩ := hplaced
  obtain ⟨_, htakes⟩ := placingSound.takes_past ⟨rfl, id⟩ (placing_meets acts) ht he
  have hmenu : e.before.menuItems = w₀.menuItems :=
    ((placing_run hmac w₀ acts).made t ht e he).inv.1
  have hserves' : e.before.Serves db := fun id => by
    rw [hmenu]
    exact hserves id
  rcases htakes.here with hnone | ⟨req', data', items', hreq', hins⟩
  · have hnext := hnone.next
    rw [hafter] at hnext
    exact absurd hnext (Nat.succ_ne_self _)
  · rw [hreq] at hreq'
    cases hreq'
    have hsame := hop.symm.trans hins.op
    cases hsame
    obtain ⟨body, hparsed, _, hpriced⟩ := hins.priced
    exact ⟨e.before, body, hserves', hparsed, hpriced⟩

/-- What a placed order is charged: its lines, each at its price. -/
theorem placed_lines {hmac : Hmac} {w₀ : World} {db : MenuDb} (hserves : w₀.Serves db)
    {acts : List (phoneServer hmac).Action} {t : (phoneServer hmac).Thread}
    (ht : t ∈ (phoneRun hmac w₀ acts).threads) {req : OrderRequest} (hreq : t.req = .order req)
    {cart : List CartLine} {key : Text} (hbody : req.body = some (orderBody cart key))
    {data : NewOrder} {items : List NewOrderItem} (hplaced : HasPlaced t data items) :
    data.totalKurus = (items.map NewOrderItem.lineTotal).sum
      ∧ (∀ l ∈ cart, 1 ≤ l.qty ∧ ∀ id ∈ l.optionIds, ∃ o, (id, o) ∈ db.optionsOfDish l.itemId)
      ∧ items.map NewOrderItem.lineTotal
        = cart.map (fun l => db.unitPrice l.itemId l.optionIds * l.qty) := by
  obtain ⟨w, body, hserves', hparsed, hpriced⟩ := placed_priced hserves ht hreq hplaced
  rw [hbody, Option.bind_some] at hparsed
  obtain ⟨rfl, hqty⟩ := orderSchema_cart hparsed
  obtain ⟨new, hnew, htotal, heach⟩ := priceLines_spec hpriced
  rw [List.nil_append] at hnew
  subst hnew
  rw [zero_add] at htotal
  replace heach := (List.forall₂_and_left _ _).mpr ⟨hqty, List.forall₂_map_left_iff.mp heach⟩
  refine ⟨htotal, ((List.forall₂_and_left _ _).mp (heach.imp (fun l item h =>
    ⟨⟨h.1, (priceLine_cart hserves' h.2).2.2⟩, h⟩))).1, (map_eq_of_forall₂ ?_).symm⟩
  refine heach.imp (fun l item h => ?_)
  obtain ⟨hunit, hcount, _⟩ := priceLine_cart hserves' h.2
  unfold NewOrderItem.lineTotal
  rw [hunit, hcount, Int.toNat_of_nonneg (zero_le_one.trans h.1)]

/-- **The customer is charged what the phone shows exactly when** every line's dish is in
an active category of the venue, or costs nothing with what is chosen of it. -/
theorem shown_prices (hmac : Hmac) (w₀ : World) (db : MenuDb) (hserves : w₀.Serves db)
    (acts : List (phoneServer hmac).Action) (t : (phoneServer hmac).Thread)
    (ht : t ∈ (phoneRun hmac w₀ acts).threads) (req : OrderRequest) (hreq : t.req = .order req)
    (cart : List CartLine) (hbuilt : CartBuilt cart) (key : Text)
    (hbody : req.body = some (orderBody cart key)) (data : NewOrder) (items : List NewOrderItem)
    (hplaced : HasPlaced t data items) (menu : VenueMenu)
    (hmenu : db.loadVenueMenu data.venueId = some menu) :
    ShownRight menu cart data items ↔ ∀ l ∈ cart,
      db.listed data.venueId l.itemId = true ∨ db.unitPrice l.itemId l.optionIds = 0 := by
  obtain ⟨htotal, hlines, hcharged⟩ := placed_lines hserves ht hreq hbody hplaced
  have hshown : ∀ l ∈ cart, menu.lineTotal l = if db.listed data.venueId l.itemId
      then db.unitPrice l.itemId l.optionIds * l.qty else 0 :=
    fun l hl => lineTotal_cart hmenu (hbuilt.nodup l hl) (hlines l hl).2
  have hsame : items.map NewOrderItem.lineTotal = cart.map menu.lineTotal ↔
      ∀ l ∈ cart, db.listed data.venueId l.itemId = true
        ∨ db.unitPrice l.itemId l.optionIds = 0 := by
    rw [hcharged, List.map_inj_left]
    refine forall₂_congr (fun l hl => ?_)
    have hqty : l.qty ≠ 0 := (zero_lt_one.trans_le (hlines l hl).1).ne'
    rw [hshown l hl]
    by_cases hlisted : db.listed data.venueId l.itemId = true
    · rw [if_pos hlisted]
      exact iff_of_true rfl (.inl hlisted)
    · rw [if_neg hlisted, mul_eq_zero, or_iff_left hqty, or_iff_right hlisted]
  rw [← hsame]
  refine ⟨fun h => h.lines, fun h => ⟨?_, h⟩⟩
  unfold VenueMenu.cartTotal
  rw [htotal, h]

/-! ### A category that was closed -/

/-- A soup, with two extras. -/
def soup : Dish := ⟨0, 0, [], [], [], [], 100, none, [], true, 0⟩

/-- A menu of the soup alone, in a category that is active or not. -/
def soupMenu (active : Bool) : MenuDb where
  venues := Rows.ofList [⟨[], [], []⟩]
  categories := Rows.ofList [⟨0, [], [], 0, active⟩]
  menuItems := Rows.ofList [soup]
  modifierGroups := Rows.ofList [⟨0, [], [], 0, 2, 0⟩]
  modifierOptions := Rows.ofList [⟨0, [], [], 10, 0⟩, ⟨0, [], [], 20, 1⟩]
  ordered := []
  changed := []

/-- The kitchen that serves it. -/
def soupKitchen : World :=
  { kitchenOpen with menuItems := Rows.ofList [(soupMenu true).orderable (0, soup)] }

/-- Both extras, and a second soup. -/
def soupTaps : List SheetTap :=
  let group : GroupView := ⟨0, [], [], 0, 2, [⟨0, [], [], 10⟩, ⟨1, [], [], 20⟩]⟩
  [.toggle group ⟨1, [], [], 20⟩, .toggle group ⟨0, [], [], 10⟩, .more]

/-- A cart of two soups with both extras, put together while the category was active. -/
def soupCart : List CartLine :=
  [(soupTaps.foldl ItemSheet.tap (.ofItem ((soupMenu true).itemView (0, soup)))).line 0]

/-- The cart, sent. -/
def soupOrder : OrderRequest :=
  ⟨some 7, ⟨[], []⟩, some (orderBody soupCart (text "cart-0001")), .plain, true⟩

/-- A hash. -/
def plainHmac : Hmac := fun secret message => secret ++ message

/-- The submission, alone. -/
def soupRun : List (phoneServer plainHmac).Action :=
  .arrive (.order soupOrder) :: List.replicate 10 (.step 0 plain)

example : soupCart = [⟨(0, 0), 0, 2, [], [1, 0]⟩] := by decide

theorem soupKitchen_serves (active : Bool) : soupKitchen.Serves (soupMenu active) := by
  intro id
  cases id with
  | zero => rfl
  | succ n => rfl

theorem soupCart_built : CartBuilt soupCart :=
  CartBuilt.add .empty ((soupMenu true).itemView (0, soup)) soupTaps 0 (by decide)

/-- What the order is charged: two soups of `130`. -/
def soupLines : List NewOrderItem := [⟨0, [], 130, 2, [], [([], 20), ([], 10)]⟩]

theorem soupRun_places : ∃ t ∈ (phoneRun plainHmac soupKitchen soupRun).threads,
    t.req = .order soupOrder
      ∧ HasPlaced t ⟨0, 0, 0, some 0, 1, 260, some (text "cart-0001")⟩ soupLines :=
  ⟨_, List.mem_of_getElem? (i := 0) rfl, rfl, _, List.mem_of_getElem? (i := 2) rfl, rfl, rfl⟩

/-- **A dish whose category was closed is charged in full**, and shown as nothing. -/
theorem shown_prices_fails :
    ¬ ∀ (hmac : Hmac) (w₀ : World) (db : MenuDb), w₀.Serves db →
      ∀ (acts : List (phoneServer hmac).Action), ∀ t ∈ (phoneRun hmac w₀ acts).threads,
      ∀ (req : OrderRequest), t.req = .order req → ∀ (cart : List CartLine), CartBuilt cart →
      ∀ (key : Text), req.body = some (orderBody cart key) →
      ∀ (data : NewOrder) (items : List NewOrderItem), HasPlaced t data items →
      ∀ menu, db.loadVenueMenu data.venueId = some menu → ShownRight menu cart data items := by
  intro h
  obtain ⟨t, ht, hreq, hplaced⟩ := soupRun_places
  have hshown := h plainHmac soupKitchen (soupMenu false) (soupKitchen_serves false) soupRun t ht
    soupOrder hreq soupCart soupCart_built _ rfl _ _ hplaced _ rfl
  exact absurd hshown.total (by decide)

/-- In an active category the soups are charged as shown. -/
theorem shown_prices_soup : ∃ menu, (soupMenu true).loadVenueMenu 0 = some menu
    ∧ ShownRight menu soupCart ⟨0, 0, 0, some 0, 1, 260, some (text "cart-0001")⟩ soupLines := by
  obtain ⟨t, ht, hreq, hplaced⟩ := soupRun_places
  have hiff := shown_prices plainHmac soupKitchen (soupMenu true) (soupKitchen_serves true) soupRun
    t ht soupOrder hreq soupCart soupCart_built _ rfl _ _ hplaced _ rfl
  exact ⟨_, rfl, hiff.mpr (by decide)⟩

end Masadan
