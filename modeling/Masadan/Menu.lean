import Masadan.Visit

/-!
# The menu

The menu's own tables – categories, dishes, their groups of options and the options –
and what the phone is shown of them: `src/lib/menu.ts`. With it `itemSchema` of
`src/lib/validation.ts`, which every dish an admin saves goes through.

The ordering routes read the dishes alone, as a `MenuItem` with its groups; here a dish
is the row itself.
-/

namespace Masadan

/-! ## The tables -/

structure Category where
  venueId : Id
  nameTr : Text
  nameEn : Text
  sortOrder : ℤ
  active : Bool
  deriving DecidableEq, Repr

/-- A row of `MenuItem`. -/
structure Dish where
  venueId : Id
  categoryId : Id
  nameTr : Text
  nameEn : Text
  descTr : Text
  descEn : Text
  priceKurus : ℤ
  photoUrl : Option Text
  /-- Comma-separated. -/
  tags : Text
  /-- The 86 toggle. -/
  available : Bool
  sortOrder : ℤ
  deriving DecidableEq, Repr

/-- A row of `ModifierGroup`. -/
structure DishGroup where
  itemId : Id
  nameTr : Text
  nameEn : Text
  minSelect : ℤ
  maxSelect : ℤ
  sortOrder : ℤ
  deriving DecidableEq, Repr

/-- A row of `ModifierOption`. -/
structure DishOption where
  groupId : Id
  nameTr : Text
  nameEn : Text
  priceDeltaKurus : ℤ
  sortOrder : ℤ
  deriving DecidableEq, Repr

/-- What the menu shows of its venue. -/
structure VenueInfo where
  name : Text
  currency : Text
  defaultLocale : Text
  deriving DecidableEq, Repr

/-- **The tables of the menu**, with what else its routes read and leave. -/
structure MenuDb where
  venues : Rows VenueInfo
  categories : Rows Category
  menuItems : Rows Dish
  modifierGroups : Rows DishGroup
  modifierOptions : Rows DishOption
  /-- The dishes that lines of orders refer to. -/
  ordered : List Id
  /-- The venues of the `menu.changed` events published so far. -/
  changed : List Id

/-! ## What the phone is shown -/

structure OptionView where
  id : Id
  nameTr : Text
  nameEn : Text
  priceDeltaKurus : ℤ
  deriving DecidableEq, Repr

structure GroupView where
  id : Id
  nameTr : Text
  nameEn : Text
  minSelect : ℤ
  maxSelect : ℤ
  options : List OptionView
  deriving DecidableEq, Repr

structure MenuItemView where
  id : Id
  nameTr : Text
  nameEn : Text
  descTr : Text
  descEn : Text
  priceKurus : ℤ
  photoUrl : Option Text
  tags : List Text
  available : Bool
  modifierGroups : List GroupView
  deriving DecidableEq, Repr

structure CategoryView where
  id : Id
  nameTr : Text
  nameEn : Text
  items : List MenuItemView
  deriving DecidableEq, Repr

structure VenueMenu where
  venue : VenueInfo
  categories : List CategoryView
  deriving DecidableEq, Repr

namespace MenuDb

/-- A group's options, in the admin's order. -/
def optionsOf (w : MenuDb) (groupId : Id) : List (Id × DishOption) :=
  orderBy (fun o => o.2.sortOrder) (w.modifierOptions.filter (fun _ o => o.groupId == groupId))

/-- A dish's groups, in the admin's order. -/
def groupsOf (w : MenuDb) (itemId : Id) : List (Id × DishGroup) :=
  orderBy (fun g => g.2.sortOrder) (w.modifierGroups.filter (fun _ g => g.itemId == itemId))

/-- A category's dishes, in the admin's order; whose dishes they are is not asked. -/
def itemsOf (w : MenuDb) (categoryId : Id) : List (Id × Dish) :=
  orderBy (fun d => d.2.sortOrder) (w.menuItems.filter (fun _ d => d.categoryId == categoryId))

/-- A venue's active categories, in the admin's order. -/
def categoriesOf (w : MenuDb) (venueId : Id) : List (Id × Category) :=
  orderBy (fun c => c.2.sortOrder)
    (w.categories.filter (fun _ c => c.venueId == venueId && c.active))

def groupView (w : MenuDb) (g : Id × DishGroup) : GroupView where
  id := g.1
  nameTr := g.2.nameTr
  nameEn := g.2.nameEn
  minSelect := g.2.minSelect
  maxSelect := g.2.maxSelect
  options := (w.optionsOf g.1).map (fun o => ⟨o.1, o.2.nameTr, o.2.nameEn, o.2.priceDeltaKurus⟩)

/-- `tags.split(",").filter(Boolean)`. -/
def splitTags (tags : Text) : List Text := (List.splitOn 44 tags).filter (fun t => !t.isEmpty)

def itemView (w : MenuDb) (d : Id × Dish) : MenuItemView where
  id := d.1
  nameTr := d.2.nameTr
  nameEn := d.2.nameEn
  descTr := d.2.descTr
  descEn := d.2.descEn
  priceKurus := d.2.priceKurus
  photoUrl := d.2.photoUrl
  tags := splitTags d.2.tags
  available := d.2.available
  modifierGroups := (w.groupsOf d.1).map w.groupView

def categoryView (w : MenuDb) (c : Id × Category) : CategoryView where
  id := c.1
  nameTr := c.2.nameTr
  nameEn := c.2.nameEn
  items := (w.itemsOf c.1).map w.itemView

/-- **The venue's menu**; a venue that is not there has none. -/
def loadVenueMenu (w : MenuDb) (venueId : Id) : Option VenueMenu :=
  (w.venues.get? venueId).map (fun venue =>
    ⟨venue, (w.categoriesOf venueId).map w.categoryView⟩)

/-! ### What is shown is what is there -/

section

variable {w : MenuDb}

theorem mem_categoriesOf {venueId : Id} {c : Id × Category} : c ∈ w.categoriesOf venueId
    ↔ w.categories.get? c.1 = some c.2 ∧ c.2.venueId = venueId ∧ c.2.active = true := by
  unfold categoriesOf
  rw [(orderBy_perm _ _).mem_iff, Rows.mem_filter, Bool.and_eq_true, beq_iff_eq]

theorem mem_itemsOf {categoryId : Id} {d : Id × Dish} : d ∈ w.itemsOf categoryId
    ↔ w.menuItems.get? d.1 = some d.2 ∧ d.2.categoryId = categoryId := by
  unfold itemsOf
  rw [(orderBy_perm _ _).mem_iff, Rows.mem_filter, beq_iff_eq]

theorem mem_groupsOf {itemId : Id} {g : Id × DishGroup} : g ∈ w.groupsOf itemId
    ↔ w.modifierGroups.get? g.1 = some g.2 ∧ g.2.itemId = itemId := by
  unfold groupsOf
  rw [(orderBy_perm _ _).mem_iff, Rows.mem_filter, beq_iff_eq]

theorem mem_optionsOf {groupId : Id} {o : Id × DishOption} : o ∈ w.optionsOf groupId
    ↔ w.modifierOptions.get? o.1 = some o.2 ∧ o.2.groupId = groupId := by
  unfold optionsOf
  rw [(orderBy_perm _ _).mem_iff, Rows.mem_filter, beq_iff_eq]

end

/-! ### What the ordering routes read -/

/-- A dish with its groups and their options, which come as they are stored. -/
def orderable (w : MenuDb) (d : Id × Dish) : MenuItem where
  venueId := d.2.venueId
  nameTr := d.2.nameTr
  priceKurus := d.2.priceKurus
  available := d.2.available
  modifierGroups := (w.modifierGroups.filter (fun _ g => g.itemId == d.1)).map (fun g => {
    id := g.1
    minSelect := g.2.minSelect
    maxSelect := g.2.maxSelect
    options := (w.modifierOptions.filter (fun _ o => o.groupId == g.1)).map
      (fun o => ⟨o.1, o.2.nameTr, o.2.priceDeltaKurus⟩) })

end MenuDb

/-! ## The body of an item -/

structure RawOption where
  nameTr : Text
  nameEn : Option Text
  priceDeltaKurus : Option ℤ

structure RawGroup where
  nameTr : Text
  nameEn : Option Text
  minSelect : Option ℤ
  maxSelect : Option ℤ
  options : List RawOption

/-- The body of an item as it arrives, as far as its types go. -/
structure RawItem where
  categoryId : Id
  nameTr : Text
  nameEn : Option Text
  descTr : Option Text
  descEn : Option Text
  priceKurus : ℤ
  photoUrl : Option Text
  tags : Option Text
  available : Option Bool
  sortOrder : Option ℤ
  modifierGroups : Option (List RawGroup)

structure OptionInput where
  nameTr : Text
  nameEn : Text
  priceDeltaKurus : ℤ
  deriving DecidableEq, Repr

structure GroupInput where
  nameTr : Text
  nameEn : Text
  minSelect : ℤ
  maxSelect : ℤ
  options : List OptionInput
  deriving DecidableEq, Repr

structure ItemInput where
  categoryId : Id
  nameTr : Text
  nameEn : Text
  descTr : Text
  descEn : Text
  priceKurus : ℤ
  photoUrl : Option Text
  tags : Text
  available : Bool
  sortOrder : ℤ
  modifierGroups : List GroupInput
  deriving DecidableEq, Repr

def RawOption.parse (o : RawOption) : Option OptionInput :=
  if o.nameTr = [] then none
  else some ⟨o.nameTr, o.nameEn.getD [], o.priceDeltaKurus.getD 0⟩

def RawGroup.parse (g : RawGroup) : Option GroupInput :=
  let minSelect := g.minSelect.getD 0
  let maxSelect := g.maxSelect.getD 1
  if g.nameTr = [] ∨ minSelect < 0 ∨ maxSelect < 1 then none
  else (g.options.mapM RawOption.parse).map
    (fun options => ⟨g.nameTr, g.nameEn.getD [], minSelect, maxSelect, options⟩)

/-- `itemSchema`: a name, a price that is not negative, and groups that ask for none or
more and allow one or more; with the defaults. -/
def itemSchema (body : RawItem) : Option ItemInput :=
  if body.nameTr = [] ∨ body.priceKurus < 0 then none
  else ((body.modifierGroups.getD []).mapM RawGroup.parse).map (fun groups => {
    categoryId := body.categoryId
    nameTr := body.nameTr
    nameEn := body.nameEn.getD []
    descTr := body.descTr.getD []
    descEn := body.descEn.getD []
    priceKurus := body.priceKurus
    photoUrl := body.photoUrl
    tags := body.tags.getD []
    available := body.available.getD true
    sortOrder := body.sortOrder.getD 0
    modifierGroups := groups })

end Masadan
