import Masadan.Menu
import Masadan.Orders

/-!
# The cart

What the customer's phone does by itself: a dish is put together in `ItemSheet.tsx`, the
lines it makes are changed in `CartSheet.tsx`, and `CustomerApp.tsx` prices them from the
menu it holds and sends them as an order.
-/

namespace Masadan

/-- A line of the cart. -/
structure CartLine where
  /-- `${item.id}-${Date.now()}`. -/
  key : Id × Time
  itemId : Id
  qty : ℤ
  note : Text
  optionIds : List Id
  deriving DecidableEq, Repr

/-! ## The sheet of a dish -/

/-- A dish that was tapped, as far as it is put together. -/
structure ItemSheet where
  item : MenuItemView
  qty : ℤ
  note : Text
  optionIds : List Id

/-- The sheet as it opens. -/
def ItemSheet.ofItem (item : MenuItemView) : ItemSheet := ⟨item, 1, [], []⟩

/-- `toggle`. A group that allows one option forgets the other. -/
def toggle (group : GroupView) (opt : OptionView) (ids : List Id) : List Id :=
  let inGroup := group.options.map (fun o => o.id)
  if group.maxSelect = 1 then
    let cleared := ids.filter (fun id => !inGroup.contains id)
    if ids.contains opt.id && decide (group.minSelect = 0) then cleared else cleared ++ [opt.id]
  else if ids.contains opt.id then ids.filter (fun id => id != opt.id)
  else
    let count : ℤ := (ids.filter (fun id => inGroup.contains id)).length
    if count ≥ group.maxSelect then ids else ids ++ [opt.id]

/-- What can be done on the sheet. -/
inductive SheetTap where
  | toggle (group : GroupView) (opt : OptionView)
  | less
  | more
  | note (value : Text)

/-- One tap. The options there are to tap are those of the dish. -/
def ItemSheet.tap (s : ItemSheet) : SheetTap → ItemSheet
  | .toggle group opt =>
    if group ∈ s.item.modifierGroups ∧ opt ∈ group.options then
      { s with optionIds := Masadan.toggle group opt s.optionIds }
    else s
  | .less => { s with qty := max 1 (s.qty - 1) }
  | .more => { s with qty := min 20 (s.qty + 1) }
  | .note value => { s with note := value.slice 200 }

/-- Every group has as many options as it asks for. -/
def ItemSheet.valid (s : ItemSheet) : Bool :=
  s.item.modifierGroups.all (fun g =>
    let count : ℤ := (g.options.filter (fun o => s.optionIds.contains o.id)).length
    decide (count ≥ g.minSelect) && decide (count ≤ g.maxSelect))

/-- The line `onAdd` is given. -/
def ItemSheet.line (s : ItemSheet) (now : Time) : CartLine :=
  ⟨(s.item.id, now), s.item.id, s.qty, s.note.trim, s.optionIds⟩

/-! ## The sheet of the cart -/

/-- The `−` of a line. A line of nothing goes. -/
def lessOf (key : Id × Time) (cart : List CartLine) : List CartLine :=
  (cart.map (fun l => if l.key = key then { l with qty := l.qty - 1 } else l)).filter
    (fun l => decide (l.qty > 0))

/-- The `+` of a line. -/
def moreOf (key : Id × Time) (cart : List CartLine) : List CartLine :=
  cart.map (fun l => if l.key = key then { l with qty := min 20 (l.qty + 1) } else l)

/-- **A cart as the customer makes it**: of lines from the sheets of dishes, on whatever
menu the phone held then, with quantities changed since. -/
inductive CartBuilt : List CartLine → Prop where
  | empty : CartBuilt []
  | add {cart : List CartLine} (h : CartBuilt cart) (item : MenuItemView) (taps : List SheetTap)
      (now : Time) (hvalid : (taps.foldl ItemSheet.tap (.ofItem item)).valid = true) :
      CartBuilt (cart ++ [(taps.foldl ItemSheet.tap (.ofItem item)).line now])
  | less {cart : List CartLine} (h : CartBuilt cart) (key : Id × Time) : CartBuilt (lessOf key cart)
  | more {cart : List CartLine} (h : CartBuilt cart) (key : Id × Time) : CartBuilt (moreOf key cart)

/-! ## What the phone shows it to cost -/

/-- `itemById`: the dishes of the menu by id. A later entry of a `Map` replaces an
earlier one. -/
def VenueMenu.itemById (menu : VenueMenu) (id : Id) : Option MenuItemView :=
  ((menu.categories.flatMap (fun c => c.items)).reverse).find? (fun i => i.id == id)

/-- `lineTotal`. A dish that is not on the menu is shown as nothing. -/
def VenueMenu.lineTotal (menu : VenueMenu) (line : CartLine) : ℤ :=
  match menu.itemById line.itemId with
  | none => 0
  | some item =>
    let delta := (((item.modifierGroups.flatMap (fun g => g.options)).filter
      (fun o => line.optionIds.contains o.id)).map (fun o => o.priceDeltaKurus)).sum
    (item.priceKurus + delta) * line.qty

/-- `cartTotal`. -/
def VenueMenu.cartTotal (menu : VenueMenu) (cart : List CartLine) : ℤ :=
  (cart.map menu.lineTotal).sum

/-! ## What the phone sends -/

def CartLine.raw (l : CartLine) : RawLine := ⟨l.itemId, l.qty, some l.note, some l.optionIds⟩

/-- The body `submitOrder` sends. -/
def orderBody (cart : List CartLine) (idempotencyKey : Text) : RawOrder :=
  ⟨cart.map CartLine.raw, some idempotencyKey⟩

/-- A line as the schema lets it through. -/
def CartLine.parsed (l : CartLine) : OrderLine := ⟨l.itemId, l.qty.toNat, l.note, l.optionIds⟩

theorem parse_cart {zod : Zod} {cart : List CartLine} {lines : List OrderLine}
    (h : (cart.map CartLine.raw).mapM (RawLine.parse zod) = some lines) :
    lines = cart.map CartLine.parsed ∧ ∀ l ∈ cart, 1 ≤ l.qty := by
  induction cart generalizing lines with
  | nil =>
    cases h
    exact ⟨rfl, fun _ hl => absurd hl List.not_mem_nil⟩
  | cons l rest ih =>
    rw [List.map_cons, List.mapM_cons] at h
    obtain ⟨line, hline, h⟩ := Option.bind_eq_some_iff.mp h
    obtain ⟨others, hothers, h⟩ := Option.bind_eq_some_iff.mp h
    cases h
    obtain ⟨rfl, hqty⟩ := ih hothers
    unfold RawLine.parse at hline
    dsimp only at hline
    split at hline
    · next hl =>
      cases hline
      refine ⟨rfl, fun k hk => ?_⟩
      rcases List.mem_cons.mp hk with rfl | hk
      · exact hl.1
      · exact hqty k hk
    · cases hline

/-- **What the schema makes of a cart** is its lines, each of one at least. -/
theorem orderSchema_cart {zod : Zod} {cart : List CartLine} {key : Text} {body : OrderBody}
    (h : orderSchema zod (orderBody cart key) = some body) :
    body = ⟨cart.map CartLine.parsed, some key⟩ ∧ ∀ l ∈ cart, 1 ≤ l.qty := by
  unfold orderSchema at h
  split at h
  · obtain ⟨items, hitems, rfl⟩ := Option.map_eq_some_iff.mp h
    obtain ⟨rfl, hqty⟩ := parse_cart hitems
    exact ⟨rfl, hqty⟩
  · cases h

/-! ## No option twice -/

/-- **Tapping an option of a group chooses no option twice.** -/
theorem nodup_toggle {group : GroupView} {opt : OptionView} {ids : List Id}
    (hopt : opt ∈ group.options) (h : ids.Nodup) : (toggle group opt ids).Nodup := by
  have hin : opt.id ∈ group.options.map (fun o => o.id) := List.mem_map_of_mem hopt
  unfold toggle
  dsimp only
  split
  · split
    · exact h.filter _
    · refine List.nodup_append'.mpr ⟨h.filter _, List.nodup_singleton _, ?_⟩
      -- what is left of the group is nothing
      intro id hid hone
      rw [List.mem_singleton.mp hone, List.mem_filter, Bool.not_eq_true', List.contains_eq_mem,
        decide_eq_false_iff_not] at hid
      exact hid.2 hin
  · split
    · exact h.filter _
    · next hnot =>
      split
      · exact h
      · refine List.nodup_append'.mpr ⟨h, List.nodup_singleton _, ?_⟩
        intro id hid hone
        rw [List.mem_singleton.mp hone] at hid
        exact hnot (List.contains_iff_mem.mpr hid)

theorem nodup_tap {s : ItemSheet} (t : SheetTap) (h : s.optionIds.Nodup) :
    (s.tap t).optionIds.Nodup := by
  cases t with
  | toggle group opt =>
    show (if _ then _ else s : ItemSheet).optionIds.Nodup
    split
    · next hmem => exact nodup_toggle hmem.2 h
    · exact h
  | less => exact h
  | more => exact h
  | note value => exact h

/-- No line of a cart has an option twice. -/
theorem CartBuilt.nodup {cart : List CartLine} (h : CartBuilt cart) :
    ∀ l ∈ cart, l.optionIds.Nodup := by
  induction h with
  | empty => exact fun _ hl => absurd hl List.not_mem_nil
  | add h item taps now _ ih =>
    intro l hl
    rcases List.mem_append.mp hl with hl | hl
    · exact ih l hl
    · rw [List.mem_singleton.mp hl]
      show (taps.foldl ItemSheet.tap (.ofItem item)).optionIds.Nodup
      have hnew : (ItemSheet.ofItem item).optionIds.Nodup := List.nodup_nil
      exact List.foldlRecOn taps ItemSheet.tap (motive := fun s => s.optionIds.Nodup) hnew
        (fun s hs t _ => nodup_tap t hs)
  | less h key ih =>
    intro l hl
    obtain ⟨k, hk, rfl⟩ := List.mem_map.mp (List.mem_filter.mp hl).1
    split
    · exact ih k hk
    · exact ih k hk
  | more h key ih =>
    intro l hl
    obtain ⟨k, hk, rfl⟩ := List.mem_map.mp hl
    split
    · exact ih k hk
    · exact ih k hk

end Masadan
