import Masadan.Orderable

/-!
# What the phone lets one build and what the server takes

The sheet of a dish and the sheet of the cart keep what `orderSchema` asks of a line's
quantity and note, and what the pricing loop asks of its options. They count neither the
lines of the cart nor the options of a line, which the schema bounds by thirty and by
twenty. So a cart is taken exactly if it is within these two (`cart_taken`).
-/

namespace Masadan

/-- The dishes on the menu. -/
def VenueMenu.items (menu : VenueMenu) : List MenuItemView :=
  menu.categories.flatMap (fun c => c.items)

/-- **A cart as the customer makes it on a menu.** -/
inductive VenueMenu.CartOn (menu : VenueMenu) : List CartLine → Prop where
  | empty : menu.CartOn []
  | add {cart : List CartLine} (h : menu.CartOn cart) (item : MenuItemView)
      (hitem : item ∈ menu.items) (taps : List SheetTap) (now : Time)
      (hvalid : (taps.foldl ItemSheet.tap (.ofItem item)).valid = true) :
      menu.CartOn (cart ++ [(taps.foldl ItemSheet.tap (.ofItem item)).line now])
  | less {cart : List CartLine} (h : menu.CartOn cart) (key : Id × Time) :
      menu.CartOn (lessOf key cart)
  | more {cart : List CartLine} (h : menu.CartOn cart) (key : Id × Time) :
      menu.CartOn (moreOf key cart)

/-! ## The sheets -/

/-- **What holds on the sheet of a dish**, whatever is tapped. -/
structure ItemSheet.Kept (item : MenuItemView) (s : ItemSheet) : Prop where
  same : s.item = item
  qty : 1 ≤ s.qty ∧ s.qty ≤ 20
  note : s.note.length ≤ 200
  distinct : s.optionIds.Nodup
  own : ∀ id ∈ s.optionIds, ∃ g ∈ item.modifierGroups, ∃ o ∈ g.options, o.id = id

/-- **What the phone promises of a line**: of a dish of the menu, with what its groups ask
for. -/
structure VenueMenu.Promises (menu : VenueMenu) (l : CartLine) : Prop where
  qty : 1 ≤ l.qty ∧ l.qty ≤ 20
  note : l.note.length ≤ 200
  distinct : l.optionIds.Nodup
  dish : ∃ item ∈ menu.items, item.id = l.itemId
    ∧ (∀ id ∈ l.optionIds, ∃ g ∈ item.modifierGroups, ∃ o ∈ g.options, o.id = id)
    ∧ ∀ g ∈ item.modifierGroups,
      g.minSelect ≤ (g.options.filter (fun o => l.optionIds.contains o.id)).length
        ∧ (g.options.filter (fun o => l.optionIds.contains o.id)).length ≤ g.maxSelect

section

variable {item : MenuItemView} {s : ItemSheet} {menu : VenueMenu} {cart : List CartLine}

theorem mem_toggle {group : GroupView} {opt : OptionView} {ids : List Id} {id : Id}
    (h : id ∈ toggle group opt ids) : id ∈ ids ∨ id = opt.id := by
  have happend : ∀ {l : List Id}, (∀ x ∈ l, x ∈ ids) → id ∈ l ++ [opt.id] →
      id ∈ ids ∨ id = opt.id := by
    intro l hl hid
    rcases List.mem_append.mp hid with hid | hid
    · exact .inl (hl id hid)
    · exact .inr (List.mem_singleton.mp hid)
  unfold toggle at h
  dsimp only at h
  split at h
  · split at h
    · exact .inl (List.mem_of_mem_filter h)
    · exact happend (fun x hx => List.mem_of_mem_filter hx) h
  · split at h
    · exact .inl (List.mem_of_mem_filter h)
    · split at h
      · exact .inl h
      · exact happend (fun _ hx => hx) h

theorem length_trim_le (t : Text) : t.trim.length ≤ t.length := by
  unfold Text.trim
  exact ((List.rdropWhile_prefix _ _).length_le).trans (List.dropWhile_suffix _).length_le

/-- A tap. -/
theorem ItemSheet.Kept.tap (h : s.Kept item) (t : SheetTap) : (s.tap t).Kept item := by
  cases t with
  | toggle group opt =>
    show (if _ then _ else s : ItemSheet).Kept item
    split
    · next hmem =>
      refine ⟨h.same, h.qty, h.note, nodup_toggle hmem.2 h.distinct, fun id hid => ?_⟩
      rcases mem_toggle hid with hid | rfl
      · exact h.own id hid
      · exact ⟨group, h.same ▸ hmem.1, opt, hmem.2, rfl⟩
    · exact h
  | less =>
    obtain ⟨hlow, hhigh⟩ := h.qty
    refine ⟨h.same, ?_, h.note, h.distinct, h.own⟩
    show 1 ≤ max 1 (s.qty - 1) ∧ max 1 (s.qty - 1) ≤ 20
    omega
  | more =>
    obtain ⟨hlow, hhigh⟩ := h.qty
    refine ⟨h.same, ?_, h.note, h.distinct, h.own⟩
    show 1 ≤ min 20 (s.qty + 1) ∧ min 20 (s.qty + 1) ≤ 20
    omega
  | note value => exact ⟨h.same, h.qty, List.length_take_le 200 value, h.distinct, h.own⟩

/-- And any number of taps. -/
theorem ItemSheet.kept_taps (item : MenuItemView) (taps : List SheetTap) :
    (taps.foldl ItemSheet.tap (.ofItem item)).Kept item := by
  have hnew : (ItemSheet.ofItem item).Kept item :=
    ⟨rfl, ⟨le_rfl, (by decide : (1 : ℤ) ≤ 20)⟩, Nat.zero_le _, List.nodup_nil,
      fun _ hid => absurd hid List.not_mem_nil⟩
  exact List.foldlRecOn taps ItemSheet.tap (motive := fun s => s.Kept item) hnew
    (fun s hs t _ => hs.tap t)

/-- **Every line of a cart keeps the phone's promise.** -/
theorem VenueMenu.CartOn.promises (h : menu.CartOn cart) : ∀ l ∈ cart, menu.Promises l := by
  induction h with
  | empty => exact fun _ hl => absurd hl List.not_mem_nil
  | add h item hitem taps now hvalid ih =>
    intro l hl
    rcases List.mem_append.mp hl with hl | hl
    · exact ih l hl
    · obtain rfl := List.mem_singleton.mp hl
      have hkept := ItemSheet.kept_taps item taps
      refine ⟨hkept.qty, (length_trim_le _).trans hkept.note, hkept.distinct, item, hitem,
        congrArg MenuItemView.id hkept.same.symm, hkept.own, fun g hg => ?_⟩
      unfold ItemSheet.valid at hvalid
      rw [hkept.same, List.all_eq_true] at hvalid
      have hg := hvalid g hg
      rw [Bool.and_eq_true, decide_eq_true_iff, decide_eq_true_iff] at hg
      exact hg
  | less h key ih =>
    intro l hl
    obtain ⟨hmap, hpositive⟩ := List.mem_filter.mp hl
    obtain ⟨k, hk, rfl⟩ := List.mem_map.mp hmap
    have hp := ih k hk
    replace hpositive := of_decide_eq_true hpositive
    split at hpositive
    · next hkey =>
      rw [if_pos hkey]
      have hqty := hp.qty
      refine ⟨?_, hp.note, hp.distinct, hp.dish⟩
      dsimp only at hpositive ⊢
      omega
    · next hkey =>
      rw [if_neg hkey]
      exact hp
  | more h key ih =>
    intro l hl
    obtain ⟨k, hk, rfl⟩ := List.mem_map.mp hl
    have hp := ih k hk
    split
    · have hqty := hp.qty
      refine ⟨?_, hp.note, hp.distinct, hp.dish⟩
      dsimp only
      omega
    · exact hp

end

/-! ## The server's checks -/

section

variable {db : MenuDb} {venueId : Id} {menu : VenueMenu} {l : CartLine}

/-- The dishes of the menu are stored. -/
theorem mem_items (hmenu : db.loadVenueMenu venueId = some menu) {item : MenuItemView}
    (h : item ∈ menu.items) : ∃ d, db.menuItems.get? item.id = some d
      ∧ item = db.itemView (item.id, d) := by
  obtain ⟨venue, _, rfl⟩ := Option.map_eq_some_iff.mp hmenu
  obtain ⟨view, hview, hitem⟩ := List.mem_flatMap.mp h
  obtain ⟨c, _, rfl⟩ := List.mem_map.mp hview
  obtain ⟨⟨k, d⟩, hd, rfl⟩ := List.mem_map.mp hitem
  exact ⟨d, (MenuDb.mem_itemsOf.mp hd).1, rfl⟩

/-- The group of a dish as the phone has it, and as the server has it. -/
theorem group_orderable {d : Id × Dish} {g : ModifierGroup}
    (hg : g ∈ (db.orderable d).modifierGroups) : ∃ g' ∈ (db.itemView d).modifierGroups,
      g'.minSelect = g.minSelect ∧ g'.maxSelect = g.maxSelect
        ∧ (g'.options.map (fun o => o.id)).Perm (g.options.map (fun o => o.id)) := by
  obtain ⟨row, hrow, rfl⟩ := List.mem_map.mp hg
  refine ⟨db.groupView row, List.mem_map_of_mem ((orderBy_perm _ _).mem_iff.mpr hrow), rfl, rfl, ?_⟩
  unfold MenuDb.groupView MenuDb.optionsOf
  dsimp only
  rw [List.map_map, List.map_map]
  exact (orderBy_perm _ _).map _

/-- What is on the phone's sheet is of the dish. -/
theorem option_orderable {d : Id × Dish} {id : Id}
    (h : ∃ g ∈ (db.itemView d).modifierGroups, ∃ o ∈ g.options, o.id = id) :
    id ∈ (db.orderable d).optionIds := by
  obtain ⟨g, hg, o, ho, rfl⟩ := h
  obtain ⟨row, hrow, rfl⟩ := List.mem_map.mp hg
  obtain ⟨option, hoption, rfl⟩ := List.mem_map.mp ho
  refine MenuItem.mem_optionIds.mpr
    ⟨_, List.mem_map_of_mem ((orderBy_perm _ _).mem_iff.mp hrow), ?_⟩
  dsimp only
  rw [List.map_map]
  exact List.mem_map_of_mem (f := fun o : Id × DishOption => o.1)
    ((orderBy_perm _ _).mem_iff.mp hoption)

/-- **What the phone promises passes the checks of the loop.** -/
theorem VenueMenu.Promises.passes (hmenu : db.loadVenueMenu venueId = some menu)
    (h : menu.Promises l) : ∃ d, db.menuItems.get? l.itemId = some d
      ∧ (db.orderable (l.itemId, d)).passes l.optionIds = true := by
  obtain ⟨item, hitem, hid, hown, hbounds⟩ := h.dish
  obtain ⟨d, hd, hview⟩ := mem_items hmenu hitem
  rw [hid] at hd hview
  rw [hview] at hown hbounds
  have hproper := orderable_proper db (l.itemId, d)
  refine ⟨d, hd, hproper.passes_iff.mpr ⟨fun id hid => option_orderable (hown id hid),
    fun g hg => ?_⟩⟩
  obtain ⟨g', hg', hmin, hmax, hperm⟩ := group_orderable hg
  have htaken : (g'.options.filter (fun o => l.optionIds.contains o.id)).length
      = g.taken l.optionIds := by
    unfold ModifierGroup.taken
    rw [← hperm.countP_eq, List.countP_map, List.countP_eq_length_filter]
    rfl
  rw [hproper.named_eq_taken hg h.distinct, ← htaken, ← hmin, ← hmax]
  exact hbounds g' hg'

/-- The loop stops at a promised line only if its dish is not to be had. -/
theorem VenueMenu.Promises.priceLine {w : World} (hserves : w.Serves db)
    (hmenu : db.loadVenueMenu venueId = some menu) (h : menu.Promises l) {venue : Id}
    {itemIds : List Id} {e : PriceRefusal}
    (he : Masadan.priceLine (w.menuFor venue itemIds) l.parsed = .error e) :
    e = .item_unavailable l.itemId := by
  obtain ⟨d, hd, hpasses⟩ := h.passes hmenu
  cases hfor : (w.menuFor venue itemIds l.itemId).filter (fun item => item.available) with
  | none =>
    unfold Masadan.priceLine at he
    rw [show l.parsed.itemId = l.itemId from rfl, hfor] at he
    cases he
    rfl
  | some dish =>
    obtain ⟨hfound, havailable⟩ := Option.filter_eq_some_iff.mp hfor
    obtain ⟨d', hd', rfl, _⟩ := hserves.menuFor hfound
    obtain rfl : d = d' := Option.some.inj (hd.symm.trans hd')
    have hpriced : ∃ item, Masadan.priceLine (w.menuFor venue itemIds) l.parsed = .ok item :=
      priceLine_of_passes hfound havailable hpasses
    obtain ⟨item, hitem⟩ := hpriced
    rw [hitem] at he
    cases he

end

/-! ## The schema -/

/-- **The server's two bounds that the phone does not keep.** -/
structure CartFits (cart : List CartLine) : Prop where
  nonempty : cart ≠ []
  lines : cart.length ≤ 30
  options : ∀ l ∈ cart, l.optionIds.length ≤ 20

section

variable {menu : VenueMenu} {cart : List CartLine} {l : CartLine}

/-- A promised line passes the schema with up to twenty options. -/
theorem VenueMenu.Promises.parse (zod : Zod) (h : menu.Promises l) :
    l.raw.parse zod = if l.optionIds.length ≤ 20 then some l.parsed else none := by
  have hiff : (1 ≤ l.qty ∧ l.qty ≤ 20 ∧ zod.length l.note ≤ 200 ∧ l.optionIds.length ≤ 20)
      ↔ l.optionIds.length ≤ 20 :=
    ⟨fun hall => hall.2.2.2,
      fun hfew => ⟨h.qty.1, h.qty.2, (zod.length_le _).trans h.note, hfew⟩⟩
  exact if_congr hiff rfl rfl

/-- What the schema makes of promised lines. -/
theorem mapM_promised (zod : Zod) (h : ∀ l ∈ cart, menu.Promises l) :
    (cart.map CartLine.raw).mapM (RawLine.parse zod)
      = if ∀ l ∈ cart, l.optionIds.length ≤ 20 then some (cart.map CartLine.parsed) else none := by
  induction cart with
  | nil => rfl
  | cons l rest ih =>
    obtain ⟨hl, hrest⟩ := List.forall_mem_cons.mp h
    have hall : (∀ k ∈ l :: rest, k.optionIds.length ≤ 20)
        ↔ l.optionIds.length ≤ 20 ∧ ∀ k ∈ rest, k.optionIds.length ≤ 20 := List.forall_mem_cons
    rw [List.map_cons, List.mapM_cons, hl.parse zod, ih hrest]
    by_cases hfew : l.optionIds.length ≤ 20
    · by_cases hothers : ∀ k ∈ rest, k.optionIds.length ≤ 20
      · rw [if_pos hfew, if_pos hothers, if_pos (hall.mpr ⟨hfew, hothers⟩)]
        rfl
      · rw [if_pos hfew, if_neg hothers, if_neg (fun h => hothers (hall.mp h).2)]
        rfl
    · rw [if_neg hfew, if_neg (fun h => hfew (hall.mp h).1)]
      rfl

/-- The schema takes the key: the page draws 8 to 64 ASCII characters. -/
def Zod.TakesKey (zod : Zod) (key : Text) : Prop := 8 ≤ zod.length key ∧ zod.length key ≤ 64

theorem Zod.takesKey_ascii (zod : Zod) {key : Text}
    (hascii : key.all (fun u => decide (u < 128)) = true)
    (h : 8 ≤ key.length ∧ key.length ≤ 64) : zod.TakesKey key := by
  have hbelow : ∀ u ∈ key, u < 128 :=
    fun u hu => of_decide_eq_true (List.all_eq_true.mp hascii u hu)
  unfold Zod.TakesKey
  rw [zod.length_ascii key hbelow]
  exact h

/-- **What the schema makes of a cart**: it takes what fits. -/
theorem orderSchema_promised {zod : Zod} (h : ∀ l ∈ cart, menu.Promises l) {key : Text}
    (hkey : zod.TakesKey key) :
    (CartFits cart →
        orderSchema zod (orderBody cart key) = some ⟨cart.map CartLine.parsed, some key⟩)
      ∧ (¬ CartFits cart → orderSchema zod (orderBody cart key) = none) := by
  have hlength : (cart.map CartLine.raw).length = cart.length := List.length_map _
  have hkeys : (some key).all (fun k => decide (8 ≤ zod.length k ∧ zod.length k ≤ 64)) = true :=
    decide_eq_true hkey
  unfold orderSchema orderBody
  dsimp only
  rw [mapM_promised zod h, hlength, hkeys]
  constructor
  · intro hfits
    rw [if_pos ⟨List.length_pos_iff.mpr hfits.nonempty, hfits.lines, rfl⟩, if_pos hfits.options]
    rfl
  · intro hnot
    split
    · next hbounds =>
      rw [if_neg (fun hoptions => hnot ⟨List.length_pos_iff.mp hbounds.1, hbounds.2.1, hoptions⟩)]
      rfl
    · rfl

/-- The loop stops at promised lines only for a dish that is not to be had. -/
theorem priceLines_promised {w : World} {db : MenuDb} (hserves : w.Serves db) {venueId : Id}
    (hmenu : db.loadVenueMenu venueId = some menu) (h : ∀ l ∈ cart, menu.Promises l) {venue : Id}
    {itemIds : List Id} {t : ℤ} {items : List NewOrderItem} {e : PriceRefusal}
    (he : priceLines (w.menuFor venue itemIds) (cart.map CartLine.parsed) t items = .error e) :
    ∃ itemId, e = .item_unavailable itemId := by
  induction cart generalizing t items with
  | nil => cases he
  | cons l rest ih =>
    obtain ⟨hl, hrest⟩ := List.forall_mem_cons.mp h
    rw [List.map_cons] at he
    unfold priceLines at he
    cases hprice : priceLine (w.menuFor venue itemIds) l.parsed with
    | error e' =>
      rw [hprice] at he
      cases he
      exact ⟨_, hl.priceLine hserves hmenu hprice⟩
    | ok item =>
      rw [hprice] at he
      exact ih hrest he

end

/-! ## The submission -/

/-- The submission is refused for what is in it. -/
def OrderAnswer.invalid : OrderAnswer → Bool
  | .invalid_order | .invalid_modifiers _ => true
  | _ => false

/-- The dishes stay as they are. -/
abbrev dishesProtocol (hmac : Hmac) (w₀ : World) : Protocol (phoneServer hmac) where
  Inv w := w.menuItems = w₀.menuItems
  Evolves _ _ := True
  refl _ := trivial

/-- What a submission of the cart is answered. -/
def CartPost (cart : List CartLine) (key : Text) :
    PhoneRequest → View api World → Except DbError PhoneAnswer → Prop
  | .order req, _, x => req.body = some (orderBody cart key) → req.zod.TakesKey key →
      ∀ a, x = .ok (.ordered a) → a ≠ .no_session → (a.invalid = false ↔ CartFits cart)
  | .scan _ _ _ _, _, _ => True

section

variable {hmac : Hmac} {w₀ : World} {r : PhoneRequest} {v : View api World}

theorem dishes_allows : AllowsHarmless (dishesProtocol hmac w₀) :=
  fun _ _ _ _ _ _ hsame hw => ⟨hsame.menuItems.trans hw, trivial, trivial⟩

/-- What a submission does leaves the dishes. -/
theorem dishes_place {op : Call} (hop : op.PlaceWork (fun _ _ => True)) (c : Choice) {w : World}
    (hw : (dishesProtocol hmac w₀).Inv w) :
    (dishesProtocol hmac w₀).Takes r v ⟨op, w, (World.exec c op w).1⟩ := by
  rcases placeWork_cases hop with ⟨data, items, rfl, _⟩ | hharmless
  · refine ⟨?_, trivial, trivial⟩
    have hcall : w.orderCreate c data items = World.exec c (.orderCreate data items) w := rfl
    rcases orderCreate_cases hcall with ⟨hsame, _⟩ | ⟨hsame, _⟩
    · exact (congrArg World.menuItems hsame).trans hw
    · exact (congrArg World.menuItems hsame).trans hw
  · exact dishes_allows.exec hharmless c hw

/-- What a scan does leaves the dishes. -/
theorem dishes_scan {op : Call} (hop : op.ScanWork) (c : Choice) {w : World}
    (hw : (dishesProtocol hmac w₀).Inv w) :
    (dishesProtocol hmac w₀).Takes r v ⟨op, w, (World.exec c op w).1⟩ := by
  have hplacing : (placingProtocol hmac w).Takes r v ⟨op, w, (World.exec c op w).1⟩ :=
    takes_scan hop c ⟨rfl, id⟩
  exact ⟨hplacing.inv.1.trans hw, trivial, trivial⟩

/-- Once priced, a submission is not refused for what is in it. -/
theorem submit_taken (caller : Caller) (session : ActiveSession) (body : OrderBody)
    (totalKurus : ℤ) (items : List NewOrderItem) :
    (submit caller session body totalKurus items).Calls (Call.PlaceWork (fun _ _ => True))
      (fun a => a.invalid = false) := by
  unfold submit createOrderWithNextNumber
  refine Prog.calls_bind (createAttempts_calls (fun _ => trivial) NUMBER_RETRIES)
    (fun order _ => ?_)
  cases order with
  | none => exact Prog.calls_bind (logAttempt_placeWork _ _ _) (fun _ _ => rfl)
  | some o =>
    exact Prog.calls_bind (logAttempt_placeWork _ _ _) (fun _ _ =>
      Prog.calls_bind (Prog.calls_perform (S := api) trivial) (fun _ _ => rfl))

/-- Nor is one whose lines the loop stops at only for a dish that is not to be had. -/
theorem place_taken {caller : Caller} {session : ActiveSession} {body : OrderBody}
    (h : ∀ w : World, w.menuItems = w₀.menuItems → ∀ e, priceLines
      (w.menuFor session.venueId (body.items.map (fun i => i.itemId))) body.items 0 [] = .error e →
        ∃ itemId, e = .item_unavailable itemId) :
    (dishesProtocol hmac w₀).Ok r (fun _ x => ∀ a, x = .ok a → a.invalid = false) v
      (place caller session body) := by
  have hcalls : ∀ {v : View api World} {p : Api OrderAnswer},
      p.Calls (Call.PlaceWork (fun _ _ => True)) (fun a => a.invalid = false) →
        (dishesProtocol hmac w₀).Ok r (fun _ x => ∀ a, x = .ok a → a.invalid = false) v p :=
    fun hp => Protocol.ok_of_calls hp (fun _ _ c _ hop hw _ => dishes_place hop c hw)
  unfold place
  refine ok_query dishes_allows _ (fun w₁ _ _ => ok_query dishes_allows _ (fun w₂ _ _ => ?_))
  split
  · exact hcalls (Prog.calls_bind (logAttempt_placeWork _ _ _) (fun _ _ => rfl))
  · refine ok_query dishes_allows _ (fun w₃ hw₃ _ => ?_)
    split
    · next e he =>
      obtain ⟨itemId, rfl⟩ := h w₃ hw₃ e he
      exact hcalls (Prog.calls_bind (logAttempt_placeWork _ _ _) (fun _ _ => rfl))
    · exact hcalls (submit_taken _ _ _ _ _)

/-- **A submission of promised lines**, from a valid session on. -/
theorem answerOrder_taken {db : MenuDb} (hserves : w₀.Serves db) {venueId : Id} {menu : VenueMenu}
    (hmenu : db.loadVenueMenu venueId = some menu) {cart : List CartLine}
    (hcart : ∀ l ∈ cart, menu.Promises l) {key : Text} {req : OrderRequest}
    (hkey : req.zod.TakesKey key) (hbody : req.body = some (orderBody cart key)) (session : ActiveSession) :
    (dishesProtocol hmac w₀).Ok r
      (fun _ x => ∀ a, x = .ok a → (a.invalid = false ↔ CartFits cart)) v
      (answerOrder req session) := by
  obtain ⟨htakes, hrefuses⟩ := orderSchema_promised hcart hkey
  unfold answerOrder
  rw [hbody, Option.bind_some]
  by_cases hfits : CartFits cart
  · rw [htakes hfits]
    have hmono : ∀ {v : View api World} {p : Api OrderAnswer},
        (dishesProtocol hmac w₀).Ok r (fun _ x => ∀ a, x = .ok a → a.invalid = false) v p →
          (dishesProtocol hmac w₀).Ok r (fun _ x => ∀ a, x = .ok a →
            (a.invalid = false ↔ CartFits cart)) v p :=
      fun hp => Protocol.ok_mono hp (fun _ _ hx a ha => iff_of_true (hx a ha) hfits)
    refine ok_query dishes_allows _ (fun w _ _ => hmono ?_)
    split
    · intro a ha
      cases ha
      rfl
    · refine place_taken (fun w hw e he =>
        priceLines_promised (w := w) (fun id => ?_) hmenu hcart he)
      rw [hw]
      exact hserves id
  · rw [hrefuses hfits]
    refine Protocol.ok_of_calls (Prog.calls_bind (logAttempt_calls _ _ _) (fun _ _ => ?_))
      (fun _ _ c _ hop hw _ => dishes_allows.exec hop c hw)
    exact iff_of_false (by decide) hfits

/-- **The route**: whoever has no valid session is told so. -/
theorem postOrder_taken {db : MenuDb} (hserves : w₀.Serves db) {venueId : Id} {menu : VenueMenu}
    (hmenu : db.loadVenueMenu venueId = some menu) {cart : List CartLine}
    (hcart : ∀ l ∈ cart, menu.Promises l) {key : Text} {req : OrderRequest}
    (hkey : req.zod.TakesKey key) (hbody : req.body = some (orderBody cart key)) :
    (dishesProtocol hmac w₀).Ok r (fun _ x => ∀ a, x = .ok a → a ≠ .no_session →
      (a.invalid = false ↔ CartFits cart)) v (postOrder req) := by
  unfold postOrder
  refine ok_harmless_bind dishes_allows (getActiveSession_calls req.cookie none)
    (fun v' session _ _ _ => ?_) (fun _ _ _ _ _ h => nomatch h)
  cases session with
  | none =>
    have hnone : ∀ {v : View api World} {p : Api OrderAnswer},
        p.Calls Call.Harmless (fun a => a = .no_session) →
          (dishesProtocol hmac w₀).Ok r (fun _ x => ∀ a, x = .ok a → a ≠ .no_session →
            (a.invalid = false ↔ CartFits cart)) v p :=
      fun hp => Protocol.ok_mono (Protocol.ok_of_calls hp
        (fun _ _ c _ hop hw _ => dishes_allows.exec hop c hw))
        (fun _ _ hx a ha hne => absurd (hx a ha) hne)
    dsimp only
    split
    · exact hnone (Prog.calls_bind (logAttempt_calls _ _ _) (fun _ _ => rfl))
    · exact hnone rfl
  | some session =>
    exact Protocol.ok_mono (answerOrder_taken hserves hmenu hcart hkey hbody session)
      (fun _ _ hx a ha _ => hx a ha)

/-- **The two requests keep the dishes**, and a cart is answered for what is in it. -/
theorem dishesSound {db : MenuDb} (hserves : w₀.Serves db) {venueId : Id} {menu : VenueMenu}
    (hmenu : db.loadVenueMenu venueId = some menu) {cart : List CartLine}
    (hcart : ∀ l ∈ cart, menu.Promises l) (key : Text) :
    (dishesProtocol hmac w₀).Sound (CartPost cart key) where
  env e w hw := by
    cases e with
    | tick ms => exact ⟨hw, trivial⟩
    | crash => exact ⟨hw, trivial⟩
  entry r w _ := by
    cases r with
    | scan caller code sig token =>
      exact Protocol.ok_map (Protocol.ok_mono (Protocol.ok_of_calls
        (getScan_calls hmac caller code sig token) (fun _ _ c _ hop hw _ => dishes_scan hop c hw))
        (fun _ _ _ => trivial))
    | order req =>
      by_cases hbody : req.body = some (orderBody cart key)
      · by_cases hkey : req.zod.TakesKey key
        · refine Protocol.ok_map (Protocol.ok_mono
            (postOrder_taken hserves hmenu hcart hkey hbody) (fun v x hx _ _ a ha => ?_))
          cases x with
          | error e => cases ha
          | ok b =>
            cases ha
            exact hx a rfl
        · refine Protocol.ok_map (Protocol.ok_mono (Protocol.ok_of_calls (postOrder_calls req)
            (fun _ _ c _ hop hw _ => dishes_place (hop.mono (fun _ _ _ => trivial)) c hw))
            (fun _ _ _ _ h => absurd h hkey))
      · refine Protocol.ok_map (Protocol.ok_mono (Protocol.ok_of_calls (postOrder_calls req)
          (fun _ _ c _ hop hw _ => dishes_place (hop.mono (fun _ _ _ => trivial)) c hw))
          (fun _ _ _ h => absurd h hbody))

end

/-! ## The law -/

/-- **What the phone lets one build the server takes** exactly if it fits: every answer to a
cart of the menu that is submitted with a valid session. -/
theorem cart_taken (hmac : Hmac) (w₀ : World) (db : MenuDb) (hserves : w₀.Serves db) (venueId : Id)
    (menu : VenueMenu) (hmenu : db.loadVenueMenu venueId = some menu) (cart : List CartLine)
    (hcart : menu.CartOn cart) (key : Text)
    (acts : List (phoneServer hmac).Action) (t : (phoneServer hmac).Thread)
    (ht : t ∈ (phoneRun hmac w₀ acts).threads) (req : OrderRequest) (hreq : t.req = .order req)
    (hbody : req.body = some (orderBody cart key)) (hkey : req.zod.TakesKey key) (a : OrderAnswer)
    (hanswer : t.outcome = some (.ok (.ordered a))) (hsession : a ≠ .no_session) :
    a.invalid = false ↔ CartFits cart := by
  have hpool : (dishesProtocol hmac w₀).PoolOk (CartPost cart key) w₀ (phoneRun hmac w₀ acts) :=
    (dishesSound hserves hmenu hcart.promises key).run rfl
      ((dishesProtocol hmac w₀).meets_cond (fun _ _ _ _ _ => rfl) _ acts)
  have hpost := hpool.post ht hanswer
  rw [hreq] at hpost
  exact hpost hbody hkey a rfl hsession

/-- The soup as it comes, so many times. -/
def soups : ℕ → List CartLine
  | 0 => []
  | n + 1 => soups n ++ [(ItemSheet.ofItem ((soupMenu true).itemView (0, soup))).line n]

/-- The soups, sent. -/
def soupsOrder (n : ℕ) : OrderRequest :=
  ⟨some 7, ⟨[], []⟩, some (orderBody (soups n) (text "cart-0001")), .plain, true⟩

def soupsRun (n : ℕ) : List (phoneServer plainHmac).Action :=
  .arrive (.order (soupsOrder n)) :: List.replicate 10 (.step 0 plain)

theorem soups_on {menu : VenueMenu} (h : (soupMenu true).itemView (0, soup) ∈ menu.items) (n : ℕ) :
    menu.CartOn (soups n) := by
  induction n with
  | zero => exact .empty
  | succ n ih => exact .add ih _ h [] n (by decide)

theorem soups_itemId (n : ℕ) : ∀ l ∈ soups n, l.itemId = 0 := by
  induction n with
  | zero => exact fun _ hl => absurd hl List.not_mem_nil
  | succ n ih =>
    intro l hl
    rcases List.mem_append.mp hl with hl | hl
    · exact ih l hl
    · rw [List.mem_singleton.mp hl]
      rfl

theorem soupsRun_answers : ∃ t ∈ (phoneRun plainHmac soupKitchen (soupsRun 31)).threads,
    t.req = .order (soupsOrder 31) ∧ t.outcome = some (.ok (.ordered .invalid_order)) :=
  ⟨_, List.mem_of_getElem? (i := 0) rfl, rfl, rfl⟩

/-- **Thirty-one soups are refused**: the phone lets one put them into the cart. -/
theorem cart_taken_fails :
    ¬ ∀ (hmac : Hmac) (w₀ : World) (db : MenuDb), w₀.Serves db → ∀ (venueId : Id)
      (menu : VenueMenu), db.loadVenueMenu venueId = some menu → ∀ (cart : List CartLine),
      menu.CartOn cart → cart ≠ [] →
      (∀ l ∈ cart, ∃ dish, w₀.menuItems.get? l.itemId = some dish ∧ dish.available = true) →
      ∀ (key : Text) (acts : List (phoneServer hmac).Action),
      ∀ t ∈ (phoneRun hmac w₀ acts).threads, ∀ (req : OrderRequest), t.req = .order req →
      req.body = some (orderBody cart key) → req.zod.TakesKey key → ∀ (a : OrderAnswer),
      t.outcome = some (.ok (.ordered a)) → a ≠ .no_session → a.invalid = false := by
  intro h
  obtain ⟨t, ht, hreq, hanswer⟩ := soupsRun_answers
  have htaken := h plainHmac soupKitchen (soupMenu true) (soupKitchen_serves true) 0 _ rfl (soups 31)
    (soups_on (by decide) 31) (by decide) (fun l hl => ?_) (text "cart-0001")
    (soupsRun 31) t ht _ hreq rfl (Zod.takesKey_ascii _ (by decide) (by decide)) _ hanswer
    (by decide)
  · cases htaken
  · rw [soups_itemId 31 l hl]
    exact ⟨_, rfl, rfl⟩

theorem soupRun_answers : ∃ t ∈ (phoneRun plainHmac soupKitchen soupRun).threads,
    t.req = .order soupOrder ∧ t.outcome = some (.ok (.ordered (.ok 0 1 false))) :=
  ⟨_, List.mem_of_getElem? (i := 0) rfl, rfl, rfl⟩

theorem soupCart_on : ∃ menu, (soupMenu true).loadVenueMenu 0 = some menu
    ∧ menu.CartOn soupCart :=
  ⟨_, rfl, .add .empty _ (by decide) soupTaps 0 (by decide)⟩

/-- The two soups of the cart are taken. -/
theorem cart_taken_soups : ∃ t ∈ (phoneRun plainHmac soupKitchen soupRun).threads, ∃ a,
    t.outcome = some (.ok (.ordered a)) ∧ (a.invalid = false ↔ CartFits soupCart) := by
  obtain ⟨t, ht, hreq, hanswer⟩ := soupRun_answers
  obtain ⟨menu, hmenu, hcart⟩ := soupCart_on
  exact ⟨t, ht, _, hanswer, cart_taken plainHmac soupKitchen (soupMenu true)
    (soupKitchen_serves true) 0 menu hmenu soupCart hcart (text "cart-0001") soupRun t ht
    soupOrder hreq rfl (Zod.takesKey_ascii _ (by decide) (by decide)) _ hanswer (by decide)⟩

end Masadan
