import Masadan.MenuAdmin

/-!
# Every venue its own menu

The menu lists the dishes of the venue's categories, and does not ask whose dishes they
are. So a venue's menu is its own as long as every dish is in a category of its own
venue: that is `Homed`. Each route looks for the row it changes among the rows of the
admin's venue; and a new dish names a category, which the route looks for there too.

`menu_isolated` keeps it over every run in which a dish that is edited names a category
of its own venue. The editing route does not look for that category; and
`menu_isolated_fails` is a dish moved into the menu of another venue.
-/

namespace Masadan

/-! ## What an edit leaves alone -/

namespace MenuDb

section

variable {w : MenuDb} {itemId : Id}

@[simp] theorem insertGroups_venues (w : MenuDb) (itemId : Id) (gs : List GroupInput) (n : ℕ) :
    (w.insertGroups itemId gs n).venues = w.venues := by
  induction gs generalizing w n with
  | nil => rfl
  | cons g gs ih => exact ih _ _

@[simp] theorem insertGroups_categories (w : MenuDb) (itemId : Id) (gs : List GroupInput) (n : ℕ) :
    (w.insertGroups itemId gs n).categories = w.categories := by
  induction gs generalizing w n with
  | nil => rfl
  | cons g gs ih => exact ih _ _

@[simp] theorem insertGroups_menuItems (w : MenuDb) (itemId : Id) (gs : List GroupInput) (n : ℕ) :
    (w.insertGroups itemId gs n).menuItems = w.menuItems := by
  induction gs generalizing w n with
  | nil => rfl
  | cons g gs ih => exact ih _ _

/-- New groups are of their dish. -/
theorem groupsOf_insertGroups {id : Id} (hne : id ≠ itemId) (gs : List GroupInput) (n : ℕ) :
    (w.insertGroups itemId gs n).groupsOf id = w.groupsOf id := by
  induction gs generalizing w n with
  | nil => rfl
  | cons g gs ih =>
    refine (ih (n + 1)).trans (congrArg (orderBy _) ?_)
    exact Rows.filter_create_other (beq_eq_false_iff_ne.mpr (Ne.symm hne))

/-- New options are of new groups. -/
theorem optionsOf_insertGroups {id : Id} (hlt : id < w.modifierGroups.next) (gs : List GroupInput)
    (n : ℕ) : (w.insertGroups itemId gs n).optionsOf id = w.optionsOf id := by
  induction gs generalizing w n with
  | nil => rfl
  | cons g gs ih =>
    have hlt' : id < (w.insertGroup itemId g n).modifierGroups.next := Nat.lt_succ_of_lt hlt
    refine (ih hlt' (n + 1)).trans (congrArg (orderBy _) ?_)
    refine Rows.filter_createAll_other (fun k o ho => ?_)
    obtain ⟨i, hi, rfl⟩ := List.mem_mapIdx.mp ho
    exact beq_eq_false_iff_ne.mpr (Nat.ne_of_gt hlt)

theorem groupsOf_deleteGroups {id : Id} (hne : id ≠ itemId) :
    (w.deleteGroups itemId).groupsOf id = w.groupsOf id := by
  have hsame := Rows.filter_erase_other (t := w.modifierGroups)
    (p := fun _ g => g.itemId == itemId) (q := fun _ g => g.itemId == id) (fun k g _ hg => by
      rw [beq_iff_eq] at hg
      exact beq_eq_false_iff_ne.mpr (fun h => hne (hg.symm.trans h)))
  exact congrArg (orderBy _) hsame

theorem optionsOf_deleteGroups {id : Id} {g : DishGroup} (hg : w.modifierGroups.get? id = some g)
    (hne : g.itemId ≠ itemId) : (w.deleteGroups itemId).optionsOf id = w.optionsOf id := by
  have hsame := Rows.filter_erase_other (t := w.modifierOptions)
    (p := fun _ o => (w.modifierGroups.get? o.groupId).any (fun g => g.itemId == itemId))
    (q := fun _ o => o.groupId == id) (fun k o _ ho => by
      rw [beq_iff_eq] at ho
      rw [ho, hg, Option.any_some]
      exact beq_eq_false_iff_ne.mpr hne)
  exact congrArg (orderBy _) hsame

end

/-! ## What the menu of a venue depends on -/

section

variable {w w' : MenuDb} {venueId : Id}

/-- A dish that is changed and was and is elsewhere. -/
theorem itemsOf_updateAt {id k : Id} {data : Dish → Dish}
    (h : ∀ d, w.menuItems.get? id = some d → d.categoryId ≠ k ∧ (data d).categoryId ≠ k) :
    orderBy (fun d => d.2.sortOrder)
      ((w.menuItems.updateAt id data).filter (fun _ d => d.categoryId == k)) = w.itemsOf k := by
  refine congrArg (orderBy _) (Rows.filter_update_other (fun j d hd hj => ?_))
  obtain rfl : j = id := beq_iff_eq.mp hj
  exact ⟨beq_eq_false_iff_ne.mpr (h d hd).1, beq_eq_false_iff_ne.mpr (h d hd).2⟩

/-- **The menu of a venue depends** on its categories, the dishes in them, their groups and
the options of these. -/
theorem loadVenueMenu_congr (hvenues : w'.venues = w.venues)
    (hcategories : w'.categoriesOf venueId = w.categoriesOf venueId)
    (hitems : ∀ c ∈ w.categoriesOf venueId, w'.itemsOf c.1 = w.itemsOf c.1)
    (hgroups : ∀ c ∈ w.categoriesOf venueId, ∀ d ∈ w.itemsOf c.1,
      w'.groupsOf d.1 = w.groupsOf d.1)
    (hoptions : ∀ c ∈ w.categoriesOf venueId, ∀ d ∈ w.itemsOf c.1, ∀ g ∈ w.groupsOf d.1,
      w'.optionsOf g.1 = w.optionsOf g.1) :
    w'.loadVenueMenu venueId = w.loadVenueMenu venueId := by
  unfold loadVenueMenu
  rw [hvenues, hcategories]
  refine congrArg (Option.map · _) (funext (fun venue => ?_))
  refine congrArg (VenueMenu.mk venue) (List.map_congr_left (fun c hc => ?_))
  unfold categoryView
  rw [hitems c hc]
  refine congrArg (CategoryView.mk _ _ _) (List.map_congr_left (fun d hd => ?_))
  unfold itemView
  rw [hgroups c hc d hd]
  refine congrArg (MenuItemView.mk _ _ _ _ _ _ _ _ _) (List.map_congr_left (fun g hg => ?_))
  unfold groupView
  rw [hoptions c hc d hd g hg]

end

end MenuDb

/-! ## The protocol -/

/-- **Every dish is in a category of its own venue.** -/
def Homed (w : MenuDb) : Prop :=
  ∀ id d, w.menuItems.get? id = some d →
    ∃ c, w.categories.get? d.categoryId = some c ∧ c.venueId = d.venueId

/-- **Rows are of one venue for good**, and a key names no second row. -/
structure VenuesKept (w w' : MenuDb) : Prop where
  categories_le : w.categories.next ≤ w'.categories.next
  items_le : w.menuItems.next ≤ w'.menuItems.next
  categories : ∀ id c', id < w.categories.next → w'.categories.get? id = some c' →
    ∃ c, w.categories.get? id = some c ∧ c'.venueId = c.venueId
  items : ∀ id d', id < w.menuItems.next → w'.menuItems.get? id = some d' →
    ∃ d, w.menuItems.get? id = some d ∧ d'.venueId = d.venueId

theorem VenuesKept.of_eq {w w' : MenuDb} (hc : w'.categories = w.categories)
    (hi : w'.menuItems = w.menuItems) : VenuesKept w w' := by
  refine ⟨Nat.le_of_eq (by rw [hc]), Nat.le_of_eq (by rw [hi]), fun id c _ h => ?_, fun id d _ h => ?_⟩
  · rw [hc] at h
    exact ⟨c, h, rfl⟩
  · rw [hi] at h
    exact ⟨d, h, rfl⟩

theorem VenuesKept.trans {w w' w'' : MenuDb} (h : VenuesKept w w') (h' : VenuesKept w' w'') :
    VenuesKept w w'' where
  categories_le := h.categories_le.trans h'.categories_le
  items_le := h.items_le.trans h'.items_le
  categories id c'' hid hc'' := by
    obtain ⟨c', hc', hsame'⟩ := h'.categories id c'' (Nat.lt_of_lt_of_le hid h.categories_le) hc''
    obtain ⟨c, hc, hsame⟩ := h.categories id c' hid hc'
    exact ⟨c, hc, hsame'.trans hsame⟩
  items id d'' hid hd'' := by
    obtain ⟨d', hd', hsame'⟩ := h'.items id d'' (Nat.lt_of_lt_of_le hid h.items_le) hd''
    obtain ⟨d, hd, hsame⟩ := h.items id d' hid hd'
    exact ⟨d, hd, hsame'.trans hsame⟩

/-- The venue of the admin who is asking. -/
def MenuRequest.venue (r : MenuRequest) : Option Id := r.staff.map (fun s => s.venueId)

/-- **The menus of other venues are as they were.** -/
def OthersKept (r : MenuRequest) (w w' : MenuDb) : Prop :=
  ∀ venueId, r.venue ≠ some venueId → w'.loadVenueMenu venueId = w.loadVenueMenu venueId

/-- **A dish that is edited names a category of its own venue**, or one that is not there. -/
def staysHome (op : MenuCall) (w : MenuDb) : Bool :=
  match op with
  | .menuItemTransaction id data _ =>
    (w.menuItems.get? id).all (fun d =>
      (w.categories.get? (data d).categoryId).all (fun c => c.venueId == d.venueId))
  | _ => true

/-- Dishes stay in categories of their venue, and an admin changes one menu. -/
abbrev menuProtocol : Protocol menuServer where
  Inv := Homed
  Evolves := VenuesKept
  refl _ := VenuesKept.of_eq rfl rfl
  Guard _ _ _ op w := staysHome op w
  Local r _ e := OthersKept r e.before e.after

/-! ## Each call -/

section

variable {r : MenuRequest} {v : View menuApi MenuDb} {w : MenuDb} {u : Id}

theorem takes_menu {op : MenuCall} {w' : MenuDb} (hhome : Homed w') (hkept : VenuesKept w w')
    (hothers : OthersKept r w w') : menuProtocol.Takes r v ⟨op, w, w'⟩ :=
  ⟨hhome, hkept, hothers⟩

/-- A call that leaves the tables alone. -/
theorem takes_sameMenu {op : MenuCall} {w' : MenuDb} (hw : Homed w) (hv : w'.venues = w.venues)
    (hc : w'.categories = w.categories) (hi : w'.menuItems = w.menuItems)
    (hg : w'.modifierGroups = w.modifierGroups) (ho : w'.modifierOptions = w.modifierOptions) :
    menuProtocol.Takes r v ⟨op, w, w'⟩ := by
  refine ⟨fun id d hd => ?_, VenuesKept.of_eq hc hi, fun venueId _ => ?_⟩
  · dsimp only at hd ⊢
    rw [hi] at hd
    rw [hc]
    exact hw id d hd
  · refine MenuDb.loadVenueMenu_congr hv ?_ (fun c _ => ?_) (fun c _ d _ => ?_) (fun c _ d _ g _ => ?_)
    · unfold MenuDb.categoriesOf
      rw [hc]
    · unfold MenuDb.itemsOf
      rw [hi]
    · unfold MenuDb.groupsOf
      rw [hg]
    · unfold MenuDb.optionsOf
      rw [ho]

/-- An edit of categories of the admin's venue. -/
theorem takes_category {op : MenuCall} {categories : Rows Category}
    (hhome : Homed { w with categories := categories })
    (hkept : VenuesKept w { w with categories := categories })
    (hothers : ∀ venueId, u ≠ venueId →
      categories.filter (fun _ c => c.venueId == venueId && c.active)
        = w.categories.filter (fun _ c => c.venueId == venueId && c.active))
    (hr : r.venue = some u) :
    menuProtocol.Takes r v ⟨op, w, { w with categories := categories }⟩ := by
  refine ⟨hhome, hkept, fun venueId hne => ?_⟩
  have hne' : u ≠ venueId := fun h => hne (hr.trans (congrArg some h))
  exact MenuDb.loadVenueMenu_congr rfl (congrArg (orderBy _) (hothers venueId hne'))
    (fun _ _ => rfl) (fun _ _ _ _ => rfl) (fun _ _ _ _ _ _ => rfl)

/-- A new category of the admin's venue. -/
theorem takes_categoryCreate {row : Category} {w' : MenuDb} {x : Except DbError Id}
    (hw : Homed w) (hr : r.venue = some row.venueId) (hx : w.categoryCreate row = (w', x)) :
    menuProtocol.Takes r v ⟨.categoryCreate row, w, w'⟩ := by
  unfold MenuDb.categoryCreate at hx
  split at hx
  · obtain ⟨rfl, _⟩ := Prod.mk.inj hx
    exact takes_sameMenu hw rfl rfl rfl rfl rfl
  · obtain ⟨rfl, _⟩ := Prod.mk.inj hx
    refine takes_category (fun id d hd => ?_) ⟨Nat.le_succ _, le_refl _, fun id c hid hc => ?_,
      fun id d _ hd => ⟨d, hd, rfl⟩⟩ (fun venueId hne => Rows.filter_create_other ?_) hr
    · obtain ⟨c, hc, hsame⟩ := hw id d hd
      exact ⟨c, Rows.get?_create_of_some hc, hsame⟩
    · dsimp only at hc
      rw [Rows.get?_create, if_neg (Nat.ne_of_lt hid)] at hc
      exact ⟨c, hc, rfl⟩
    · rw [beq_eq_false_iff_ne.mpr hne, Bool.false_and]

/-- A category of the admin's venue is changed, and stays of the venue. -/
theorem takes_categoryUpdate {id : Id} {data : Category → Category} {w' : MenuDb}
    {x : Except DbError Unit} (hw : Homed w) (hr : r.venue = some u)
    (hof : ∀ c, w.categories.get? id = some c → c.venueId = u)
    (hdata : ∀ c, (data c).venueId = c.venueId) (hx : w.categoryUpdate id data = (w', x)) :
    menuProtocol.Takes r v ⟨.categoryUpdate id data, w, w'⟩ := by
  unfold MenuDb.categoryUpdate at hx
  split at hx
  · obtain ⟨rfl, _⟩ := Prod.mk.inj hx
    exact takes_sameMenu hw rfl rfl rfl rfl rfl
  · obtain ⟨rfl, _⟩ := Prod.mk.inj hx
    have hvenue : ∀ k c, (if k = id then data c else c).venueId = c.venueId := by
      intro k c
      split
      · exact hdata c
      · rfl
    refine takes_category (fun k d hd => ?_) ⟨le_refl _, le_refl _, fun k c' _ hc' => ?_,
      fun k d _ hd => ⟨d, hd, rfl⟩⟩ (fun venueId hne => Rows.filter_update_other
        (fun k c hc hk => ?_)) hr
    · obtain ⟨c, hc, hsame⟩ := hw k d hd
      refine ⟨if d.categoryId = id then data c else c, ?_, (hvenue _ c).trans hsame⟩
      rw [Rows.get?_updateAt, hc, Option.map_some]
    · dsimp only at hc'
      rw [Rows.get?_updateAt] at hc'
      obtain ⟨c, hc, rfl⟩ := Option.map_eq_some_iff.mp hc'
      exact ⟨c, hc, hvenue k c⟩
    · obtain rfl : k = id := beq_iff_eq.mp hk
      rw [hdata, hof c hc, beq_eq_false_iff_ne.mpr hne, Bool.false_and, Bool.false_and]
      exact ⟨rfl, rfl⟩

/-- An empty category of the admin's venue is deleted. -/
theorem takes_categoryDelete {id : Id} {w' : MenuDb} {x : Except DbError Unit} (hw : Homed w)
    (hr : r.venue = some u) (hof : ∀ c, w.categories.get? id = some c → c.venueId = u)
    (hx : w.categoryDelete id = (w', x)) :
    menuProtocol.Takes r v ⟨.categoryDelete id, w, w'⟩ := by
  unfold MenuDb.categoryDelete at hx
  split at hx
  · obtain ⟨rfl, _⟩ := Prod.mk.inj hx
    exact takes_sameMenu hw rfl rfl rfl rfl rfl
  · split at hx
    · obtain ⟨rfl, _⟩ := Prod.mk.inj hx
      exact takes_sameMenu hw rfl rfl rfl rfl rfl
    · next hempty =>
      obtain ⟨rfl, _⟩ := Prod.mk.inj hx
      refine takes_category (fun k d hd => ?_) ⟨le_refl _, le_refl _, fun k c' _ hc' => ?_,
        fun k d _ hd => ⟨d, hd, rfl⟩⟩ (fun venueId hne => Rows.filter_erase_other
          (fun k c hc hk => ?_)) hr
      · obtain ⟨c, hc, hsame⟩ := hw k d hd
        refine ⟨c, ?_, hsame⟩
        have hne : d.categoryId ≠ id := by
          rintro rfl
          exact hempty (Rows.count_pos hd (beq_self_eq_true _))
        rw [Rows.get?_erase, hc, Option.filter_some, beq_eq_false_iff_ne.mpr hne]
        rfl
      · dsimp only at hc'
        rw [Rows.get?_erase, Option.filter_eq_some_iff] at hc'
        exact ⟨c', hc'.1, rfl⟩
      · rw [Bool.and_eq_true, beq_iff_eq] at hk
        refine beq_eq_false_iff_ne.mpr ?_
        rintro rfl
        exact hne ((hof c hc).symm.trans hk.1)

/-- A dish of a venue is in no other venue's category. -/
theorem elsewhere {id k : Id} {c : Category} (hw : Homed w)
    (hof : ∀ d, w.menuItems.get? id = some d → d.venueId = u)
    (hc : w.categories.get? k = some c) (hne : c.venueId ≠ u) :
    ∀ d, w.menuItems.get? id = some d → d.categoryId ≠ k := by
  rintro d hd rfl
  obtain ⟨c', hc', hsame⟩ := hw id d hd
  rw [hc] at hc'
  obtain rfl := Option.some.inj hc'
  exact hne (hsame.trans (hof d hd))

/-- **An edit of one dish of the admin's venue** changes no other venue's menu: the dish is
in none of their categories, before or after. -/
theorem others_dish (id : Id) {w' : MenuDb} (hw : Homed w) (hr : r.venue = some u)
    (hof : ∀ d, w.menuItems.get? id = some d → d.venueId = u)
    (hvenues : w'.venues = w.venues) (hcategories : w'.categories = w.categories)
    (hitems : ∀ k c, w.categories.get? k = some c → c.venueId ≠ u → w'.itemsOf k = w.itemsOf k)
    (hgroups : ∀ k, w.menuItems.get? k ≠ none → k ≠ id → w'.groupsOf k = w.groupsOf k)
    (hoptions : ∀ k g, w.modifierGroups.get? k = some g → g.itemId ≠ id →
      w'.optionsOf k = w.optionsOf k) : OthersKept r w w' := by
  intro venueId hne
  have hne' : venueId ≠ u := fun h => hne (hr.trans (congrArg some h.symm))
  -- what is listed in another venue's category is another dish
  have hother : ∀ c ∈ w.categoriesOf venueId, ∀ d ∈ w.itemsOf c.1, d.1 ≠ id := by
    rintro c hc d hd rfl
    obtain ⟨hget, hvenue, _⟩ := MenuDb.mem_categoriesOf.mp hc
    obtain ⟨hdish, hin⟩ := MenuDb.mem_itemsOf.mp hd
    exact elsewhere hw hof hget (fun h => hne' (hvenue.symm.trans h)) d.2 hdish hin
  refine MenuDb.loadVenueMenu_congr hvenues ?_ (fun c hc => ?_) (fun c hc d hd => ?_)
    (fun c hc d hd g hg => ?_)
  · unfold MenuDb.categoriesOf
    rw [hcategories]
  · obtain ⟨hget, hvenue, _⟩ := MenuDb.mem_categoriesOf.mp hc
    exact hitems c.1 c.2 hget (fun h => hne' (hvenue.symm.trans h))
  · have hthere : w.menuItems.get? d.1 ≠ none := by
      rw [(MenuDb.mem_itemsOf.mp hd).1]
      exact Option.some_ne_none _
    exact hgroups d.1 hthere (hother c hc d hd)
  · obtain ⟨hget, hin⟩ := MenuDb.mem_groupsOf.mp hg
    exact hoptions g.1 g.2 hget (fun h => hother c hc d hd (hin.symm.trans h))

/-- A new dish, in a category of its venue. -/
theorem takes_menuItemCreate {row : Dish} {groups : List GroupInput} {w' : MenuDb}
    {x : Except DbError Id} (hw : Homed w) (hr : r.venue = some row.venueId)
    (hof : ∀ c, w.categories.get? row.categoryId = some c → c.venueId = row.venueId)
    (hx : w.menuItemCreate row groups = (w', x)) :
    menuProtocol.Takes r v ⟨.menuItemCreate row groups, w, w'⟩ := by
  unfold MenuDb.menuItemCreate at hx
  split at hx
  · obtain ⟨rfl, _⟩ := Prod.mk.inj hx
    exact takes_sameMenu hw rfl rfl rfl rfl rfl
  · next hthere =>
    obtain ⟨rfl, _⟩ := Prod.mk.inj hx
    refine takes_menu (fun id d hd => ?_) ⟨Nat.le_of_eq ?_, ?_, fun id c _ hc => ?_,
      fun id d hid hd => ?_⟩ ?_
    · rw [MenuDb.insertGroups_menuItems, Rows.get?_create] at hd
      rw [MenuDb.insertGroups_categories]
      split at hd
      · cases hd
        cases hc : w.categories.get? row.categoryId with
        | none =>
          rw [hc] at hthere
          exact absurd (Bool.or_true _) hthere
        | some c => exact ⟨c, rfl, hof c hc⟩
      · exact hw id d hd
    · rw [MenuDb.insertGroups_categories]
    · rw [MenuDb.insertGroups_menuItems]
      exact Nat.le_succ _
    · rw [MenuDb.insertGroups_categories] at hc
      exact ⟨c, hc, rfl⟩
    · rw [MenuDb.insertGroups_menuItems, Rows.get?_create, if_neg (Nat.ne_of_lt hid)] at hd
      exact ⟨d, hd, rfl⟩
    · refine others_dish w.menuItems.next hw hr (fun d hd => ?_)
        (MenuDb.insertGroups_venues _ _ _ _) (MenuDb.insertGroups_categories _ _ _ _)
        (fun k c hc hne => ?_) (fun k _ hne => ?_) (fun k g hg _ => ?_)
      · rw [Rows.get?_next] at hd
        cases hd
      · unfold MenuDb.itemsOf
        rw [MenuDb.insertGroups_menuItems]
        refine congrArg (orderBy _) (Rows.filter_create_other (beq_eq_false_iff_ne.mpr ?_))
        rintro rfl
        exact hne (hof c hc)
      · exact MenuDb.groupsOf_insertGroups hne _ _
      · have hlt : k < w.modifierGroups.next := Rows.lt_next_of_get? hg
        exact MenuDb.optionsOf_insertGroups (w := { w with menuItems := w.menuItems.create row })
          hlt groups 0

/-- A dish of the admin's venue is hidden or shown. -/
theorem takes_menuItemUpdate {id : Id} {data : Dish → Dish} {w' : MenuDb}
    {x : Except DbError Unit} (hw : Homed w) (hr : r.venue = some u)
    (hof : ∀ d, w.menuItems.get? id = some d → d.venueId = u)
    (hdata : ∀ d, (data d).venueId = d.venueId ∧ (data d).categoryId = d.categoryId)
    (hx : w.menuItemUpdate id data = (w', x)) :
    menuProtocol.Takes r v ⟨.menuItemUpdate id data, w, w'⟩ := by
  unfold MenuDb.menuItemUpdate at hx
  split at hx
  · obtain ⟨rfl, _⟩ := Prod.mk.inj hx
    exact takes_sameMenu hw rfl rfl rfl rfl rfl
  · obtain ⟨rfl, _⟩ := Prod.mk.inj hx
    have hrow : ∀ k d', (w.menuItems.updateAt id data).get? k = some d' →
        ∃ d, w.menuItems.get? k = some d ∧ d'.venueId = d.venueId ∧ d'.categoryId = d.categoryId := by
      intro k d' hd'
      rw [Rows.get?_updateAt] at hd'
      obtain ⟨d, hd, rfl⟩ := Option.map_eq_some_iff.mp hd'
      refine ⟨d, hd, ?_⟩
      split
      · exact hdata d
      · exact ⟨rfl, rfl⟩
    refine takes_menu (fun k d' hd' => ?_) ⟨le_refl _, le_refl _, fun k c _ hc => ⟨c, hc, rfl⟩,
      fun k d' _ hd' => ?_⟩ ?_
    · obtain ⟨d, hd, hvenue, hcategory⟩ := hrow k d' hd'
      rw [hvenue, hcategory]
      exact hw k d hd
    · obtain ⟨d, hd, hvenue, _⟩ := hrow k d' hd'
      exact ⟨d, hd, hvenue⟩
    · refine others_dish id hw hr hof rfl rfl (fun k c hc hne => ?_) (fun _ _ _ => rfl)
        (fun _ _ _ _ => rfl)
      refine MenuDb.itemsOf_updateAt (fun d hd => ?_)
      have hnot := elsewhere hw hof hc hne d hd
      rw [(hdata d).2]
      exact ⟨hnot, hnot⟩

/-- A dish of the admin's venue is deleted. -/
theorem takes_menuItemDelete {id : Id} {w' : MenuDb} {x : Except DbError Unit} (hw : Homed w)
    (hr : r.venue = some u) (hof : ∀ d, w.menuItems.get? id = some d → d.venueId = u)
    (hx : w.menuItemDelete id = (w', x)) :
    menuProtocol.Takes r v ⟨.menuItemDelete id, w, w'⟩ := by
  unfold MenuDb.menuItemDelete at hx
  split at hx
  · obtain ⟨rfl, _⟩ := Prod.mk.inj hx
    exact takes_sameMenu hw rfl rfl rfl rfl rfl
  · next dish hdish =>
    obtain ⟨rfl, _⟩ := Prod.mk.inj hx
    have hrow : ∀ k d, (w.menuItems.erase (fun k _ => k == id)).get? k = some d →
        w.menuItems.get? k = some d := by
      intro k d hd
      rw [Rows.get?_erase, Option.filter_eq_some_iff] at hd
      exact hd.1
    refine takes_menu (fun k d hd => hw k d (hrow k d hd)) ⟨le_refl _, le_refl _,
      fun k c _ hc => ⟨c, hc, rfl⟩, fun k d _ hd => ⟨d, hrow k d hd, rfl⟩⟩ ?_
    refine others_dish id hw hr hof rfl rfl (fun k c hc hne => ?_) (fun k _ hne => ?_)
      (fun k g hg hne => ?_)
    · have hsame := Rows.filter_erase_other (t := w.menuItems) (p := fun j _ => j == id)
        (q := fun _ d => d.categoryId == k) (fun j d hd hj => by
          refine beq_eq_false_iff_ne.mpr ?_
          rintro rfl
          exact elsewhere hw hof hc hne d hd (beq_iff_eq.mp hj))
      exact congrArg (orderBy _) hsame
    · exact MenuDb.groupsOf_deleteGroups hne
    · exact MenuDb.optionsOf_deleteGroups hg hne

/-- A dish of the admin's venue is edited, into a category of its venue. -/
theorem takes_menuItemTransaction {id : Id} {data : Dish → Dish} {groups : List GroupInput}
    {w' : MenuDb} {x : Except DbError Unit} (hw : Homed w) (hr : r.venue = some u)
    (hof : ∀ d, w.menuItems.get? id = some d → d.venueId = u)
    (hdata : ∀ d, (data d).venueId = d.venueId)
    (hg : staysHome (.menuItemTransaction id data groups) w = true)
    (hx : w.menuItemTransaction id data groups = (w', x)) :
    menuProtocol.Takes r v ⟨.menuItemTransaction id data groups, w, w'⟩ := by
  unfold MenuDb.menuItemTransaction at hx
  split at hx
  · obtain ⟨rfl, _⟩ := Prod.mk.inj hx
    exact takes_sameMenu hw rfl rfl rfl rfl rfl
  · next dish hdish =>
    split at hx
    · obtain ⟨rfl, _⟩ := Prod.mk.inj hx
      exact takes_sameMenu hw rfl rfl rfl rfl rfl
    · next hthere =>
      obtain ⟨rfl, _⟩ := Prod.mk.inj hx
      -- the category it names is there, and of the venue
      have hnew : ∃ c, w.categories.get? (data dish).categoryId = some c ∧ c.venueId = dish.venueId := by
        have hhome : (w.menuItems.get? id).all (fun d =>
          (w.categories.get? (data d).categoryId).all (fun c => c.venueId == d.venueId)) = true := hg
        rw [hdish, Option.all_some] at hhome
        cases hc : w.categories.get? (data dish).categoryId with
        | none =>
          rw [hc] at hthere
          exact absurd rfl hthere
        | some c =>
          rw [hc, Option.all_some, beq_iff_eq] at hhome
          exact ⟨c, rfl, hhome⟩
      obtain ⟨c₁, hc₁, hvenue₁⟩ := hnew
      refine takes_menu (fun k d' hd' => ?_) ⟨Nat.le_of_eq ?_, Nat.le_of_eq ?_, fun k c _ hc => ?_,
        fun k d' _ hd' => ?_⟩ ?_
      · rw [MenuDb.insertGroups_menuItems, Rows.get?_updateAt] at hd'
        rw [MenuDb.insertGroups_categories]
        obtain ⟨d, hd, rfl⟩ := Option.map_eq_some_iff.mp hd'
        split
        · next hk =>
          subst hk
          rw [hdish] at hd
          obtain rfl := Option.some.inj hd
          exact ⟨c₁, hc₁, hvenue₁.trans (hdata dish).symm⟩
        · exact hw k d hd
      · rw [MenuDb.insertGroups_categories]
        rfl
      · rw [MenuDb.insertGroups_menuItems]
        rfl
      · rw [MenuDb.insertGroups_categories] at hc
        exact ⟨c, hc, rfl⟩
      · rw [MenuDb.insertGroups_menuItems, Rows.get?_updateAt] at hd'
        obtain ⟨d, hd, rfl⟩ := Option.map_eq_some_iff.mp hd'
        refine ⟨d, hd, ?_⟩
        split
        · exact hdata d
        · rfl
      · refine others_dish id hw hr hof (MenuDb.insertGroups_venues _ _ _ _)
          (MenuDb.insertGroups_categories _ _ _ _) (fun k c hc hne => ?_) (fun k _ hne => ?_)
          (fun k g hg hne => ?_)
        · unfold MenuDb.itemsOf
          rw [MenuDb.insertGroups_menuItems]
          refine MenuDb.itemsOf_updateAt (fun d hd => ⟨elsewhere hw hof hc hne d hd, ?_⟩)
          rw [hdish] at hd
          obtain rfl := Option.some.inj hd
          rintro rfl
          rw [hc] at hc₁
          obtain rfl := Option.some.inj hc₁
          exact hne (hvenue₁.trans (hof dish hdish))
        · exact (MenuDb.groupsOf_insertGroups hne _ _).trans (MenuDb.groupsOf_deleteGroups hne)
        · have hlt : k < w.modifierGroups.next := Rows.lt_next_of_get? hg
          exact (MenuDb.optionsOf_insertGroups
            (w := { w.deleteGroups id with menuItems := w.menuItems.updateAt id data }) hlt groups 0).trans
            (MenuDb.optionsOf_deleteGroups hg hne)

end

/-! ## Each route -/

section

variable {r : MenuRequest} {v : View menuApi MenuDb} {w w' : MenuDb} {u : Id}

theorem venuesKept_of_rely (h : menuProtocol.Rely w w') : VenuesKept w w' :=
  Protocol.Rely.evolves VenuesKept.trans h

/-- A category that was found among those of a venue is of that venue. -/
theorem categoryOf_rely {id : Id} {c : Category} (hc : w.categoryOf id u = some c)
    (h : menuProtocol.Rely w w') : ∀ c', w'.categories.get? id = some c' → c'.venueId = u := by
  intro c' hc'
  obtain ⟨hget, hvenue⟩ := Option.filter_eq_some_iff.mp hc
  obtain ⟨c₀, hc₀, hsame⟩ :=
    (venuesKept_of_rely h).categories id c' (Rows.lt_next_of_get? hget) hc'
  rw [hget] at hc₀
  obtain rfl := Option.some.inj hc₀
  exact hsame.trans (beq_iff_eq.mp hvenue)

/-- A dish that was found among those of a venue is of that venue. -/
theorem dishOf_rely {id : Id} {d : Dish} (hd : w.dishOf id u = some d)
    (h : menuProtocol.Rely w w') : ∀ d', w'.menuItems.get? id = some d' → d'.venueId = u := by
  intro d' hd'
  obtain ⟨hget, hvenue⟩ := Option.filter_eq_some_iff.mp hd
  obtain ⟨d₀, hd₀, hsame⟩ := (venuesKept_of_rely h).items id d' (Rows.lt_next_of_get? hget) hd'
  rw [hget] at hd₀
  obtain rfl := Option.some.inj hd₀
  exact hsame.trans (beq_iff_eq.mp hvenue)

/-- A read, then the rest. -/
theorem ok_menuQuery {α β : Type} {q : MenuDb → β} {f : β → MenuApi α}
    (h : ∀ w, menuProtocol.Rely v.since w →
      menuProtocol.Ok r (fun _ _ => True) (v.push ⟨.query q, w, w⟩) (f (q w))) :
    menuProtocol.Ok r (fun _ _ => True) v ((menuQuery q).bind f) :=
  Protocol.ok_perform_bind (fun w _ hw hrely _ =>
    ⟨takes_sameMenu hw rfl rfl rfl rfl rfl, h w hrely⟩)

/-- A write, and the event that follows it. -/
theorem ok_menuPerform {α : Type} {op : MenuCall} {venueId : Id} {f : op.Res → Unit → MenuApi α}
    (h : ∀ w w' x, Homed w → menuProtocol.Rely v.since w → staysHome op w = true →
      w.exec op = (w', x) → menuProtocol.Takes r v ⟨op, w, w'⟩)
    (hf : ∀ a v', menuProtocol.Ok r (fun _ _ => True) v' (f a ())) :
    menuProtocol.Ok r (fun _ _ => True) v ((menuPerform op).bind (fun a =>
      (menuPerform (.publish venueId)).bind (f a))) := by
  refine Protocol.ok_perform_bind (fun w _ hw hrely hg => ⟨h w _ _ hw hrely hg rfl, ?_⟩)
  split
  · exact Protocol.ok_perform_bind (fun w₂ _ hw₂ _ _ =>
      ⟨takes_sameMenu hw₂ rfl rfl rfl rfl rfl, hf _ _⟩)
  · exact trivial

theorem postCategory_ok {staff : Option StaffClaims} (hr : r.staff = staff) (body : CategoryBody) :
    menuProtocol.Ok r (fun _ _ => True) v (postCategory staff body) := by
  unfold postCategory
  cases staff with
  | none => exact trivial
  | some s =>
    have hvenue : r.venue = some s.venueId := congrArg (Option.map _) hr
    dsimp only
    split
    · exact trivial
    · exact ok_menuPerform (fun w w' x hw _ _ hx => takes_categoryCreate hw hvenue hx)
        (fun _ _ => trivial)

theorem patchCategory_ok {staff : Option StaffClaims} (hr : r.staff = staff) (id : Id)
    (body : CategoryPatch) :
    menuProtocol.Ok r (fun _ _ => True) v (patchCategory staff id body) := by
  unfold patchCategory
  cases staff with
  | none => exact trivial
  | some s =>
    have hvenue : r.venue = some s.venueId := congrArg (Option.map _) hr
    refine ok_menuQuery (fun w₁ _ => ?_)
    split
    · exact trivial
    · next c hc =>
      exact ok_menuPerform (fun w w' x hw hrely _ hx => takes_categoryUpdate hw hvenue
        (categoryOf_rely hc hrely) (fun _ => rfl) hx) (fun _ _ => trivial)

theorem deleteCategory_ok {staff : Option StaffClaims} (hr : r.staff = staff) (id : Id) :
    menuProtocol.Ok r (fun _ _ => True) v (deleteCategory staff id) := by
  unfold deleteCategory
  cases staff with
  | none => exact trivial
  | some s =>
    have hvenue : r.venue = some s.venueId := congrArg (Option.map _) hr
    refine ok_menuQuery (fun w₁ _ => ?_)
    split
    · exact trivial
    · next items hitems =>
      obtain ⟨c, hc, _⟩ := Option.map_eq_some_iff.mp hitems
      split
      · exact trivial
      · exact ok_menuPerform (fun w w' x hw hrely _ hx => takes_categoryDelete hw hvenue
          (categoryOf_rely hc hrely) hx) (fun _ _ => trivial)

theorem postItem_ok {staff : Option StaffClaims} (hr : r.staff = staff) (body : Option RawItem) :
    menuProtocol.Ok r (fun _ _ => True) v (postItem staff body) := by
  unfold postItem
  cases staff with
  | none => exact trivial
  | some s =>
    have hvenue : r.venue = some s.venueId := congrArg (Option.map _) hr
    dsimp only
    split
    · exact trivial
    · refine ok_menuQuery (fun w₁ _ => ?_)
      split
      · exact trivial
      · next c hc =>
        exact ok_menuPerform (fun w w' x hw hrely _ hx => takes_menuItemCreate hw hvenue
          (categoryOf_rely hc hrely) hx) (fun _ _ => trivial)

theorem patchItem_ok {staff : Option StaffClaims} (hr : r.staff = staff) (id : Id)
    (body : ItemPatch) : menuProtocol.Ok r (fun _ _ => True) v (patchItem staff id body) := by
  unfold patchItem
  cases staff with
  | none => exact trivial
  | some s =>
    have hvenue : r.venue = some s.venueId := congrArg (Option.map _) hr
    refine ok_menuQuery (fun w₁ _ => ?_)
    split
    · exact trivial
    · next d hd =>
      split
      · exact ok_menuPerform (fun w w' x hw hrely _ hx => takes_menuItemUpdate hw hvenue
          (dishOf_rely hd hrely) (fun _ => ⟨rfl, rfl⟩) hx) (fun _ _ => trivial)
      · split
        · exact trivial
        · exact ok_menuPerform (fun w w' x hw hrely hg hx => takes_menuItemTransaction hw hvenue
            (dishOf_rely hd hrely) (fun _ => rfl) hg hx) (fun _ _ => trivial)

theorem deleteItem_ok {staff : Option StaffClaims} (hr : r.staff = staff) (id : Id) :
    menuProtocol.Ok r (fun _ _ => True) v (deleteItem staff id) := by
  unfold deleteItem
  cases staff with
  | none => exact trivial
  | some s =>
    have hvenue : r.venue = some s.venueId := congrArg (Option.map _) hr
    refine ok_menuQuery (fun w₁ _ => ?_)
    split
    · exact trivial
    · next d hd =>
      refine ok_menuQuery (fun w₂ hrely₂ => ?_)
      have hof : ∀ w, menuProtocol.Rely w₂ w →
          ∀ d', w.menuItems.get? id = some d' → d'.venueId = s.venueId :=
        fun w hrely => dishOf_rely hd (hrely₂.trans' hrely)
      split
      · exact ok_menuPerform (fun w w' x hw hrely _ hx => takes_menuItemUpdate hw hvenue
          (hof w hrely) (fun _ => ⟨rfl, rfl⟩) hx) (fun _ _ => trivial)
      · exact ok_menuPerform (fun w w' x hw hrely _ hx => takes_menuItemDelete hw hvenue
          (hof w hrely) hx) (fun _ _ => trivial)

end

/-! ## The law -/

theorem menuSound : menuProtocol.Sound (fun _ _ _ => True) where
  env itemIds w hw := ⟨hw, VenuesKept.of_eq rfl rfl⟩
  entry r w _ := by
    cases r with
    | postCategory staff body => exact postCategory_ok rfl body
    | patchCategory staff id body => exact patchCategory_ok rfl id body
    | deleteCategory staff id => exact deleteCategory_ok rfl id
    | postItem staff body => exact postItem_ok rfl body
    | patchItem staff id body => exact patchItem_ok rfl id body
    | deleteItem staff id => exact deleteItem_ok rfl id

/-- The menu of a venue lists dishes of that venue only. -/
def MenuDb.ListsOwn (w : MenuDb) (venueId : Id) : Prop :=
  ∀ menu, w.loadVenueMenu venueId = some menu → ∀ c ∈ menu.categories, ∀ i ∈ c.items,
    ∃ d, w.menuItems.get? i.id = some d ∧ d.venueId = venueId

theorem Homed.listsOwn {w : MenuDb} (hw : Homed w) (venueId : Id) : w.ListsOwn venueId := by
  intro menu hmenu c hc i hi
  obtain ⟨venue, _, rfl⟩ := Option.map_eq_some_iff.mp hmenu
  obtain ⟨category, hcategory, rfl⟩ := List.mem_map.mp hc
  obtain ⟨dish, hdish, rfl⟩ := List.mem_map.mp hi
  obtain ⟨hget, hvenue, _⟩ := MenuDb.mem_categoriesOf.mp hcategory
  obtain ⟨hthere, hin⟩ := MenuDb.mem_itemsOf.mp hdish
  obtain ⟨c', hc', hsame⟩ := hw dish.1 dish.2 hthere
  rw [hin, hget] at hc'
  obtain rfl := Option.some.inj hc'
  exact ⟨dish.2, hthere, hsame.symm.trans hvenue⟩

/-- The action answers a call of an admin of the venue. -/
def actsFor (venueId : Id) (p : menuServer.Pool) : menuServer.Action → Prop
  | .step i _ => ∃ t, p.threads[i]? = some t ∧ t.req.venue = some venueId
  | _ => False

/-- **Venues keep their menus apart**: in every run in which a dish that is edited names a
category of its own venue, every dish is in a category of its venue, every menu lists
dishes of its venue only, and no step of another venue's admin changes it. -/
theorem menu_isolated (w₀ : MenuDb) (acts : List menuServer.Action) (h₀ : Homed w₀)
    (h : Sys.Pool.Meets menuProtocol.cond (Sys.Pool.init w₀) acts = true) :
    Homed (menuRun w₀ acts).world
      ∧ (∀ venueId, (menuRun w₀ acts).world.ListsOwn venueId)
      ∧ ∀ pre a post, acts = pre ++ a :: post → ∀ venueId,
        ¬ actsFor venueId (menuRun w₀ pre) a →
        (menuRun w₀ (pre ++ [a])).world.loadVenueMenu venueId
          = (menuRun w₀ pre).world.loadVenueMenu venueId := by
  have hhomed : Homed (menuRun w₀ acts).world := (menuSound.run h₀ h).inv
  refine ⟨hhomed, fun venueId => hhomed.listsOwn venueId, ?_⟩
  rintro pre a post rfl venueId hother
  obtain ⟨hpre, hrest⟩ := Sys.Pool.meets_append.mp h
  have hpool := menuSound.run h₀ hpre
  have hrun : menuRun w₀ (pre ++ [a]) = (menuRun w₀ pre).act a := Sys.Pool.run_append _ _ _
  rw [hrun]
  rcases hpool.act_cases (Sys.Pool.meets_cons.mp hrest).1 with hsame | ⟨itemIds, rfl, hworld⟩ | hstep
  · exact congrArg (fun w => MenuDb.loadVenueMenu w venueId) hsame
  · rfl
  · obtain ⟨i, c, t, op, k, rfl, ht, _, _, _, htakes⟩ := hstep
    exact htakes.here venueId (fun hvenue => hother ⟨t, ht, hvenue⟩)

/-! ## A dish in another venue's menu -/

/-- Two venues, each with a category; the first has a dish in its own. -/
def twoVenues : MenuDb where
  venues := Rows.ofList [⟨[], [], []⟩, ⟨[], [], []⟩]
  categories := Rows.ofList [⟨0, [], [], 0, true⟩, ⟨1, [], [], 0, true⟩]
  menuItems := Rows.ofList [⟨0, 0, [], [], [], [], 100, none, [], true, 0⟩]
  modifierGroups := Rows.empty
  modifierOptions := Rows.empty
  ordered := []
  changed := []

theorem twoVenues_homed : Homed twoVenues := by
  intro id d hd
  have hmem := Rows.get?_eq_some_iff.mp hd
  have hrow : (id, d) = (0, ⟨0, 0, [], [], [], [], 100, none, [], true, 0⟩) := List.mem_singleton.mp hmem
  cases hrow
  exact ⟨⟨0, [], [], 0, true⟩, by decide, rfl⟩

/-- The first venue's admin edits the dish, into a category. -/
def editInto (categoryId : Id) : List menuServer.Action :=
  .arrive (.patchItem (some ⟨0, 0, []⟩) 0 (.other (some
    ⟨categoryId, [65], none, none, none, 100, none, none, none, none, none⟩)))
    :: List.replicate 3 (.step 0 ())

/-- **A dish can be moved into another venue's menu.** -/
theorem menu_isolated_fails :
    ¬ ∀ (w₀ : MenuDb) (acts : List menuServer.Action), Homed w₀ →
      Homed (menuRun w₀ acts).world
        ∧ (∀ venueId, (menuRun w₀ acts).world.ListsOwn venueId)
        ∧ ∀ pre a post, acts = pre ++ a :: post → ∀ venueId,
          ¬ actsFor venueId (menuRun w₀ pre) a →
          (menuRun w₀ (pre ++ [a])).world.loadVenueMenu venueId
            = (menuRun w₀ pre).world.loadVenueMenu venueId := by
  intro h
  have hhomed := (h twoVenues (editInto 1) twoVenues_homed).1
  obtain ⟨c, hc, hvenue⟩ := hhomed 0 ⟨0, 1, [65], [65], [], [], 100, none, [], true, 0⟩ (by decide)
  have hother : (menuRun twoVenues (editInto 1)).world.categories.get? 1
    = some ⟨1, [], [], 0, true⟩ := by decide
  rw [hother] at hc
  cases hc
  exact absurd hvenue (by decide)

/-- A dish that is edited in place stays in its venue's menu. -/
theorem menu_isolated_own : Homed (menuRun twoVenues (editInto 0)).world := by
  have hmenu := menu_isolated twoVenues (editInto 0) twoVenues_homed (by decide)
  exact hmenu.1

end Masadan
