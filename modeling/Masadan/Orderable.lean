import Masadan.Choices
import Masadan.MenuCache
import Mathlib.Algebra.Order.BigOperators.Group.List
import Mathlib.Algebra.Order.Ring.Nat

/-!
# What can be saved and what can be ordered

`itemSchema` looks at a group's two bounds one by one, and at neither beside the number of
the group's options; the pricing loop and `orderSchema` put them together. A dish can be
ordered exactly if each group asks for no more than it allows and for no more than it has,
and all of them together for no more than twenty options (`saved_orderable`).
-/

namespace Masadan

/-! ## A choice of options -/

/-- Of a list without repetition the first elements are as many as are asked for. -/
theorem countP_take {l : List Id} (hl : l.Nodup) {n : ℕ} (hn : n ≤ l.length) :
    l.countP (fun id => decide (id ∈ l.take n)) = n := by
  have hparts : l.countP (fun id => decide (id ∈ l.take n))
      = (l.take n).countP (fun id => decide (id ∈ l.take n))
        + (l.drop n).countP (fun id => decide (id ∈ l.take n)) := by
    rw [← List.countP_append, List.take_append_drop]
  have hdisjoint : List.Disjoint (l.take n) (l.drop n) := List.disjoint_take_drop hl le_rfl
  rw [hparts, List.countP_eq_length.mpr (fun id hid => decide_eq_true hid),
    List.countP_eq_zero.mpr (fun id hid => by
      rw [decide_eq_true_iff]
      exact fun hid' => hdisjoint hid' hid), List.length_take, min_eq_left hn, Nat.add_zero]

theorem cast_sum_map {α : Type} (f : α → ℕ) (l : List α) :
    (((l.map f).sum : ℕ) : ℤ) = (l.map (fun a => (f a : ℤ))).sum := by
  induction l with
  | nil => rfl
  | cons a as ih =>
    rw [List.map_cons, List.sum_cons, List.map_cons, List.sum_cons, Nat.cast_add, ih]

theorem flatMap_sublist {α β : Type} {f g : α → List β} (h : ∀ a, (f a).Sublist (g a))
    (l : List α) :
    (l.flatMap f).Sublist (l.flatMap g) := by
  induction l with
  | nil => exact List.Sublist.refl _
  | cons a as ih =>
    rw [List.flatMap_cons, List.flatMap_cons]
    exact (h a).append ih

/-- The group can be satisfied: it asks for no more than it allows, nor than it has. -/
def ModifierGroup.Feasible (g : ModifierGroup) : Prop :=
  g.minSelect ≤ g.maxSelect ∧ g.minSelect ≤ g.options.length

/-- The first options of the group, as many as it asks for. -/
def ModifierGroup.fewest (g : ModifierGroup) : List Id :=
  (g.options.map (fun o => o.id)).take g.minSelect.toNat

namespace MenuItem

/-- The fewest options of a dish. -/
def fewest (item : MenuItem) : List Id := item.modifierGroups.flatMap ModifierGroup.fewest

/-- Options can be chosen of the dish so that an order of it passes. -/
def Choosable (item : MenuItem) : Prop :=
  ∃ ids : List Id, ids.Nodup ∧ ids.length ≤ 20 ∧ item.passes ids = true

section

variable {item : MenuItem} {g : ModifierGroup} {ids : List Id}

theorem Proper.group_nodup (h : item.Proper) (hg : g ∈ item.modifierGroups) :
    (g.options.map (fun o => o.id)).Nodup := (List.nodup_flatMap.mp h.options).1 g hg

/-- What is taken of the groups of distinct ids is no more than there are. -/
theorem Proper.sum_taken_le (h : item.Proper) (ids : List Id) :
    (item.modifierGroups.map (fun g => g.taken ids)).sum ≤ ids.length := by
  have hcount : item.optionIds.countP (fun id => ids.contains id)
      = (item.modifierGroups.map (fun g => g.taken ids)).sum := List.countP_flatMap
  rw [← hcount, List.countP_eq_length_filter]
  refine List.Nodup.length_le_of_subset (h.options.filter _) (fun id hid => ?_)
  exact List.contains_iff_mem.mp (List.mem_filter.mp hid).2

/-- The fewest options take of each group what it asks for. -/
theorem Proper.taken_fewest (h : item.Proper) (hg : g ∈ item.modifierGroups)
    (hmin : g.minSelect ≤ g.options.length) : g.taken item.fewest = g.minSelect.toNat := by
  have hsame : g.taken item.fewest = (g.options.map (fun o => o.id)).countP
      (fun id => decide (id ∈ (g.options.map (fun o => o.id)).take g.minSelect.toNat)) := by
    refine List.countP_congr (fun id hid => ?_)
    rw [List.contains_iff_mem, decide_eq_true_iff]
    constructor
    · intro hfew
      obtain ⟨g', hg', hid'⟩ := List.mem_flatMap.mp hfew
      rwa [h.group_eq hg hg' hid (List.mem_of_mem_take hid')]
    · exact fun hfew => List.mem_flatMap.mpr ⟨g, hg, hfew⟩
  rw [hsame, countP_take (h.group_nodup hg)]
  rw [List.length_map]
  omega

/-- **A dish of which options can be chosen**: every group can be satisfied, and all of
them by twenty options. -/
theorem Proper.choosable_iff (h : item.Proper) (hmin : ∀ g ∈ item.modifierGroups, 0 ≤ g.minSelect) :
    item.Choosable ↔ (∀ g ∈ item.modifierGroups, g.Feasible)
      ∧ (item.modifierGroups.map (fun g => g.minSelect)).sum ≤ 20 := by
  constructor
  · rintro ⟨ids, hids, hfew, hpasses⟩
    obtain ⟨_, hbounds⟩ := h.passes_iff.mp hpasses
    have htaken : ∀ g ∈ item.modifierGroups,
        g.minSelect ≤ g.taken ids ∧ g.taken ids ≤ g.maxSelect := fun g hg =>
      h.named_eq_taken hg hids ▸ hbounds g hg
    refine ⟨fun g hg => ⟨(htaken g hg).1.trans (htaken g hg).2, ?_⟩, ?_⟩
    · have hle : g.taken ids ≤ (g.options.map (fun o => o.id)).length := List.countP_le_length
      rw [List.length_map] at hle
      have := (htaken g hg).1
      omega
    · calc (item.modifierGroups.map (fun g => g.minSelect)).sum
          ≤ (item.modifierGroups.map (fun g => (g.taken ids : ℤ))).sum :=
            List.sum_le_sum (fun g hg => (htaken g hg).1)
        _ = ((item.modifierGroups.map (fun g => g.taken ids)).sum : ℕ) := (cast_sum_map _ _).symm
        _ ≤ 20 := by
            have := h.sum_taken_le ids
            omega
  · rintro ⟨hfeasible, htwenty⟩
    have hsub : item.fewest.Sublist item.optionIds :=
      flatMap_sublist (fun g => List.take_sublist _ _) _
    have hnodup : item.fewest.Nodup := h.options.sublist hsub
    refine ⟨item.fewest, hnodup, ?_,
      h.passes_iff.mpr ⟨fun id hid => hsub.subset hid, fun g hg => ?_⟩⟩
    · have hlen :
          item.fewest.length ≤ (item.modifierGroups.map (fun g => g.minSelect.toNat)).sum := by
        unfold fewest
        rw [List.length_flatMap]
        refine List.sum_le_sum (fun g _ => ?_)
        unfold ModifierGroup.fewest
        rw [List.length_take]
        exact min_le_left _ _
      have hcast : (((item.modifierGroups.map (fun g => g.minSelect.toNat)).sum : ℕ) : ℤ)
          = (item.modifierGroups.map (fun g => g.minSelect)).sum := by
        rw [cast_sum_map]
        exact congrArg List.sum (List.map_congr_left (fun g hg => Int.toNat_of_nonneg (hmin g hg)))
      omega
    · obtain ⟨hle, henough⟩ := hfeasible g hg
      rw [h.named_eq_taken hg hnodup, h.taken_fewest hg henough, Int.toNat_of_nonneg (hmin g hg)]
      exact ⟨le_rfl, hle⟩

end

end MenuItem

/-! ## The groups of a stored dish -/

/-- What a choice depends on of a group: its bounds, and how many options it has. -/
structure GroupShape where
  minSelect : ℤ
  maxSelect : ℤ
  options : ℕ
  deriving DecidableEq, Repr

def ModifierGroup.shape (g : ModifierGroup) : GroupShape :=
  ⟨g.minSelect, g.maxSelect, g.options.length⟩

def GroupInput.shape (g : GroupInput) : GroupShape := ⟨g.minSelect, g.maxSelect, g.options.length⟩

namespace MenuDb

/-- **The foreign keys of the menu's tables**: each group is of a dish, each option of a
group. -/
structure ForeignKeys (w : MenuDb) : Prop where
  groups : ∀ k g, w.modifierGroups.get? k = some g → (w.menuItems.get? g.itemId).isSome = true
  options : ∀ k o, w.modifierOptions.get? k = some o →
    (w.modifierGroups.get? o.groupId).isSome = true

/-- The groups of a dish, as far as a choice depends on them. -/
def shapes (w : MenuDb) (itemId : Id) : List GroupShape :=
  (w.modifierGroups.filter (fun _ g => g.itemId == itemId)).map (fun g =>
    ⟨g.2.minSelect, g.2.maxSelect, w.modifierOptions.count (fun _ o => o.groupId == g.1)⟩)

section

variable {w : MenuDb} {itemId : Id}

theorem orderable_shapes (d : Id × Dish) :
    (w.orderable d).modifierGroups.map ModifierGroup.shape = w.shapes d.1 := by
  unfold orderable shapes ModifierGroup.shape Rows.count
  dsimp only
  rw [List.map_map]
  refine List.map_congr_left (fun g _ => ?_)
  dsimp only [Function.comp_apply]
  rw [List.length_map]

/-- **A group that is inserted** is the dish's last, with its options. -/
theorem shapes_insertGroup (hw : w.ForeignKeys) (g : GroupInput) (sortOrder : ℕ) :
    (w.insertGroup itemId g sortOrder).shapes itemId = w.shapes itemId ++ [g.shape] := by
  -- no option is of the key the group is to have
  have hnone : w.modifierOptions.count (fun _ o => o.groupId == w.modifierGroups.next) = 0 := by
    by_contra hsome
    obtain ⟨k, o, ho, hof⟩ := Rows.exists_of_count hsome
    have hgroup := hw.options k o ho
    rw [beq_iff_eq.mp hof, Rows.get?_next] at hgroup
    cases hgroup
  unfold shapes insertGroup
  dsimp only
  rw [Rows.filter_create, if_pos (beq_self_eq_true itemId), List.map_append]
  refine congrArg₂ _ (List.map_congr_left (fun row hrow => ?_)) ?_
  · have hlt := Rows.lt_next_of_get? (Rows.mem_filter.mp hrow).1
    rw [Rows.count_createAll _ _ (fun o : DishOption => o.groupId == row.1),
      List.countP_eq_zero.mpr, Nat.add_zero]
    intro o ho
    obtain ⟨i, hi, rfl⟩ := List.mem_mapIdx.mp ho
    dsimp only
    rw [beq_iff_eq]
    exact hlt.ne'
  · unfold GroupInput.shape
    rw [List.map_singleton]
    dsimp only
    rw [Rows.count_createAll _ _ (fun o : DishOption => o.groupId == w.modifierGroups.next),
      hnone, List.countP_eq_length.mpr, List.length_mapIdx, Nat.zero_add]
    intro o ho
    obtain ⟨i, hi, rfl⟩ := List.mem_mapIdx.mp ho
    exact beq_self_eq_true _

theorem ForeignKeys.insertGroup (hw : w.ForeignKeys)
    (hitem : (w.menuItems.get? itemId).isSome = true) (g : GroupInput) (sortOrder : ℕ) :
    (w.insertGroup itemId g sortOrder).ForeignKeys where
  groups k row hrow := by
    replace hrow : (w.modifierGroups.create _).get? k = some row := hrow
    rw [Rows.get?_create] at hrow
    split at hrow
    · cases hrow
      exact hitem
    · exact hw.groups k row hrow
  options k o ho := by
    show ((w.modifierGroups.create _).get? o.groupId).isSome = true
    rw [Rows.get?_create]
    split
    · rfl
    · rcases Rows.get?_createAll ho with ho | ho
      · exact hw.options k o ho
      · obtain ⟨i, hi, rfl⟩ := List.mem_mapIdx.mp ho
        next hne => exact absurd rfl hne

theorem menuItems_insertGroups (gs : List GroupInput) (sortOrder : ℕ) :
    (w.insertGroups itemId gs sortOrder).menuItems = w.menuItems := by
  induction gs generalizing w sortOrder with
  | nil => rfl
  | cons g gs ih => exact ih _

/-- **The groups that are inserted** are the dish's last. -/
theorem shapes_insertGroups (hw : w.ForeignKeys) (hitem : (w.menuItems.get? itemId).isSome = true)
    (gs : List GroupInput) (sortOrder : ℕ) :
    (w.insertGroups itemId gs sortOrder).shapes itemId = w.shapes itemId ++ gs.map GroupInput.shape
      ∧ (w.insertGroups itemId gs sortOrder).ForeignKeys := by
  induction gs generalizing w sortOrder with
  | nil => exact ⟨(List.append_nil _).symm, hw⟩
  | cons g gs ih =>
    obtain ⟨hshapes, hkeys⟩ := ih (hw.insertGroup hitem g sortOrder) hitem (sortOrder + 1)
    refine ⟨?_, hkeys⟩
    show ((w.insertGroup itemId g sortOrder).insertGroups itemId gs
      (sortOrder + 1)).shapes itemId = _
    rw [hshapes, shapes_insertGroup hw, List.append_assoc]
    rfl

/-- A dish without groups. -/
theorem shapes_eq_nil (h : ∀ k g, w.modifierGroups.get? k = some g → g.itemId ≠ itemId) :
    w.shapes itemId = [] := by
  unfold shapes
  rw [List.map_eq_nil_iff, List.eq_nil_iff_forall_not_mem]
  intro g hg
  obtain ⟨hget, hitem⟩ := Rows.mem_filter.mp hg
  exact h _ _ hget (beq_iff_eq.mp hitem)

/-- The groups of a dish are deleted, and their options. -/
theorem ForeignKeys.deleteGroups (hw : w.ForeignKeys) :
    (w.deleteGroups itemId).ForeignKeys ∧ (w.deleteGroups itemId).shapes itemId = [] := by
  have hleft : ∀ k g, (w.deleteGroups itemId).modifierGroups.get? k = some g →
      w.modifierGroups.get? k = some g ∧ g.itemId ≠ itemId := by
    intro k g hg
    replace hg : (w.modifierGroups.erase _).get? k = some g := hg
    rw [Rows.get?_erase] at hg
    obtain ⟨hget, hnot⟩ := Option.filter_eq_some_iff.mp hg
    refine ⟨hget, fun heq => ?_⟩
    rw [heq, beq_self_eq_true] at hnot
    cases hnot
  refine ⟨⟨fun k g hg => hw.groups k g (hleft k g hg).1, fun k o ho => ?_⟩,
    shapes_eq_nil (fun k g hg => (hleft k g hg).2)⟩
  replace ho : (w.modifierOptions.erase _).get? k = some o := ho
  rw [Rows.get?_erase] at ho
  obtain ⟨hget, hnot⟩ := Option.filter_eq_some_iff.mp ho
  obtain ⟨g, hg⟩ := Option.isSome_iff_exists.mp (hw.options k o hget)
  show ((w.modifierGroups.erase _).get? o.groupId).isSome = true
  rw [hg] at hnot
  rw [Rows.get?_erase, hg, Option.filter_some]
  rw [Option.any_some] at hnot
  rw [hnot]
  rfl

/-- **What an insertion stores** of a dish. -/
theorem menuItemCreate_spec (hw : w.ForeignKeys) {row : Dish} {groups : List GroupInput}
    {w' : MenuDb} {id : Id} (h : w.menuItemCreate row groups = (w', .ok id)) :
    w'.menuItems.get? id = some row ∧ w'.shapes id = groups.map GroupInput.shape
      ∧ w'.ForeignKeys := by
  unfold menuItemCreate at h
  split at h
  · cases h
  · cases h
    have hkeys : ({ w with menuItems := w.menuItems.create row } : MenuDb).ForeignKeys := by
      refine ⟨fun k g hg => ?_, hw.options⟩
      obtain ⟨d, hd⟩ := Option.isSome_iff_exists.mp (hw.groups k g hg)
      rw [Rows.get?_create_of_some hd]
      rfl
    have hrow : ({ w with menuItems := w.menuItems.create row } : MenuDb).menuItems.get?
        w.menuItems.next = some row := Rows.get?_create_next _ _
    obtain ⟨hshapes, hafter⟩ := shapes_insertGroups hkeys (by rw [hrow]; rfl) groups 0
    refine ⟨?_, ?_, hafter⟩
    · rw [menuItems_insertGroups]
      exact hrow
    · rw [hshapes]
      -- no group is of the key the dish is to have
      have hnone : ({ w with menuItems := w.menuItems.create row } : MenuDb).shapes w.menuItems.next
          = [] := by
        refine shapes_eq_nil (fun k g hg hof => ?_)
        have hdish := hw.groups k g hg
        rw [hof, Rows.get?_next] at hdish
        cases hdish
      rw [hnone, List.nil_append]

/-- **What the transaction of a `PATCH` stores** of a dish. -/
theorem menuItemTransaction_spec (hw : w.ForeignKeys) {id : Id} {data : Dish → Dish}
    {groups : List GroupInput} {w' : MenuDb} {x : Except DbError Unit}
    (h : w.menuItemTransaction id data groups = (w', x)) :
    (w' = w ∧ ∃ e, x = .error e) ∨ x = .ok () ∧ w'.ForeignKeys
      ∧ w'.shapes id = groups.map GroupInput.shape
      ∧ ∃ d, w.menuItems.get? id = some d ∧ w'.menuItems.get? id = some (data d) := by
  unfold menuItemTransaction at h
  cases hd : w.menuItems.get? id with
  | none =>
    rw [hd] at h
    cases h
    exact .inl ⟨rfl, _, rfl⟩
  | some d =>
    rw [hd] at h
    dsimp only at h
    split at h
    · cases h
      exact .inl ⟨rfl, _, rfl⟩
    · cases h
      right
      have hdelete : (w.deleteGroups id).ForeignKeys ∧ (w.deleteGroups id).shapes id = [] :=
        hw.deleteGroups
      obtain ⟨hdeleted, hnone⟩ := hdelete
      have hrow : (w.menuItems.updateAt id data).get? id = some (data d) := by
        rw [Rows.get?_updateAt, hd]
        exact congrArg some (if_pos rfl)
      have hkeys : ({ w.deleteGroups id with menuItems := w.menuItems.updateAt id data } :
          MenuDb).ForeignKeys := by
        refine ⟨fun k g hg => ?_, hdeleted.options⟩
        show ((w.menuItems.updateAt id data).get? g.itemId).isSome = true
        rw [Rows.get?_updateAt, Option.isSome_map]
        exact hdeleted.groups k g hg
      obtain ⟨hshapes, hafter⟩ := shapes_insertGroups hkeys
        (by show ((w.menuItems.updateAt id data).get? id).isSome = true; rw [hrow]; rfl) groups 0
      refine ⟨rfl, hafter, ?_, d, rfl, ?_⟩
      · rw [hshapes]
        exact congrArg (· ++ groups.map GroupInput.shape) hnone
      · rw [menuItems_insertGroups]
        exact hrow

/-- A deleted dish leaves no group behind. -/
theorem ForeignKeys.menuItemDelete (hw : w.ForeignKeys) (id : Id) :
    (w.menuItemDelete id).1.ForeignKeys := by
  unfold MenuDb.menuItemDelete
  split
  · exact hw
  · have hdelete : (w.deleteGroups id).ForeignKeys ∧ (w.deleteGroups id).shapes id = [] :=
      hw.deleteGroups
    obtain ⟨hdeleted, hnone⟩ := hdelete
    refine ⟨fun k g hg => ?_, hdeleted.options⟩
    have hother : g.itemId ≠ id := by
      intro hof
      have hmem : (⟨g.minSelect, g.maxSelect, (w.deleteGroups id).modifierOptions.count
          (fun _ o => o.groupId == k)⟩ : GroupShape) ∈ (w.deleteGroups id).shapes id :=
        List.mem_map.mpr ⟨(k, g), Rows.mem_filter.mpr ⟨hg, beq_iff_eq.mpr hof⟩, rfl⟩
      rw [hnone] at hmem
      cases hmem
    show ((w.menuItems.erase _).get? g.itemId).isSome = true
    obtain ⟨d, hd⟩ := Option.isSome_iff_exists.mp (hdeleted.groups k g hg)
    replace hd : w.menuItems.get? g.itemId = some d := hd
    rw [Rows.get?_erase, hd, Option.filter_some, beq_false_of_ne hother]
    rfl

/-- **Every call keeps the foreign keys.** -/
theorem ForeignKeys.exec (hw : w.ForeignKeys) (op : MenuCall) : (w.exec op).1.ForeignKeys := by
  -- the three tables are as they were
  have hsame : ∀ w' : MenuDb, w'.menuItems = w.menuItems → w'.modifierGroups = w.modifierGroups →
      w'.modifierOptions = w.modifierOptions → w'.ForeignKeys := by
    intro w' hitems hgroups hoptions
    exact ⟨by rw [hitems, hgroups]; exact hw.groups, by rw [hgroups, hoptions]; exact hw.options⟩
  cases op with
  | query q => exact hw
  | categoryCreate row =>
    show (w.categoryCreate row).1.ForeignKeys
    unfold MenuDb.categoryCreate
    split
    · exact hw
    · exact hsame _ rfl rfl rfl
  | categoryUpdate id data =>
    show (w.categoryUpdate id data).1.ForeignKeys
    unfold MenuDb.categoryUpdate
    split
    · exact hw
    · exact hsame _ rfl rfl rfl
  | categoryDelete id =>
    show (w.categoryDelete id).1.ForeignKeys
    unfold MenuDb.categoryDelete
    split
    · exact hw
    · split
      · exact hw
      · exact hsame _ rfl rfl rfl
  | menuItemCreate row groups =>
    show (w.menuItemCreate row groups).1.ForeignKeys
    cases hx : w.menuItemCreate row groups with
    | mk w' x =>
      cases x with
      | ok id => exact (menuItemCreate_spec hw hx).2.2
      | error e =>
        unfold MenuDb.menuItemCreate at hx
        split at hx
        · cases hx
          exact hw
        · cases hx
  | menuItemUpdate id data =>
    show (w.menuItemUpdate id data).1.ForeignKeys
    unfold MenuDb.menuItemUpdate
    split
    · exact hw
    · refine ⟨fun k g hg => ?_, hw.options⟩
      show ((w.menuItems.updateAt id data).get? g.itemId).isSome = true
      rw [Rows.get?_updateAt, Option.isSome_map]
      exact hw.groups k g hg
  | menuItemDelete id => exact hw.menuItemDelete id
  | menuItemTransaction id data groups =>
    show (w.menuItemTransaction id data groups).1.ForeignKeys
    cases hx : w.menuItemTransaction id data groups with
    | mk w' x =>
      rcases menuItemTransaction_spec hw hx with ⟨rfl, _⟩ | ⟨_, hkeys, _⟩
      · exact hw
      · exact hkeys
  | publish venueId => exact hsame _ rfl rfl rfl

end

end MenuDb

/-! ## What can be saved -/

/-- What each is, of what is parsed one by one. -/
theorem mapM_forall {α β : Type} {f : α → Option β} {P : β → Prop} (hf : ∀ a b, f a = some b → P b)
    {as : List α} {bs : List β} (h : as.mapM f = some bs) : ∀ b ∈ bs, P b := by
  induction as generalizing bs with
  | nil =>
    cases h
    exact fun _ hb => absurd hb List.not_mem_nil
  | cons a as ih =>
    rw [List.mapM_cons] at h
    obtain ⟨b, hb, h⟩ := Option.bind_eq_some_iff.mp h
    obtain ⟨rest, hrest, h⟩ := Option.bind_eq_some_iff.mp h
    cases h
    exact List.forall_mem_cons.mpr ⟨hf a b hb, ih hrest⟩

theorem mapM_length {α β : Type} {f : α → Option β} {as : List α} {bs : List β}
    (h : as.mapM f = some bs) : bs.length = as.length := by
  induction as generalizing bs with
  | nil =>
    cases h
    rfl
  | cons a as ih =>
    rw [List.mapM_cons] at h
    obtain ⟨b, _, h⟩ := Option.bind_eq_some_iff.mp h
    obtain ⟨rest, hrest, h⟩ := Option.bind_eq_some_iff.mp h
    cases h
    rw [List.length_cons, ih hrest, List.length_cons]

/-- `itemSchema` lets no group ask for less than none. -/
theorem itemSchema_groups {raw : RawItem} {d : ItemInput} (h : itemSchema raw = some d) :
    ∀ g ∈ d.modifierGroups, 0 ≤ g.minSelect := by
  unfold itemSchema at h
  split at h
  · cases h
  · obtain ⟨groups, hgroups, rfl⟩ := Option.map_eq_some_iff.mp h
    refine mapM_forall (fun r g hg => ?_) hgroups
    unfold RawGroup.parse at hg
    dsimp only at hg
    split at hg
    · cases hg
    · next hbounds =>
      obtain ⟨options, _, rfl⟩ := Option.map_eq_some_iff.mp hg
      exact not_lt.mp (fun hneg => hbounds (.inr (.inl hneg)))

/-- **An item is saved** under an id: created with it, or written anew. -/
def MenuDb.Saves (w : MenuDb) (staff : Option StaffClaims) (raw : RawItem) (id : Id)
    (w' : MenuDb) : Prop :=
  (postItem staff (some raw)).runAlone MenuDb.exec w = (w', .ok (.created id))
    ∨ (patchItem staff id (.other (some raw))).runAlone MenuDb.exec w = (w', .ok .ok)

section

variable {w w' : MenuDb} {staff : Option StaffClaims} {raw : RawItem} {d : ItemInput} {id : Id}

theorem alone_menuQuery {α β : Type} {Q : MenuDb → Except DbError β → Prop} {q : MenuDb → α}
    {f : α → MenuApi β} (h : Prog.Alone MenuDb.exec Q (f (q w)) w) :
    Prog.Alone MenuDb.exec Q ((menuQuery q).bind f) w := h

theorem alone_menuPerform {β : Type} {Q : MenuDb → Except DbError β → Prop} {op : MenuCall}
    {f : MenuCall.Res op → MenuApi β} (h : ∀ w' x, MenuDb.exec op w = (w', x) →
      Prog.Alone MenuDb.exec Q ((Prog.ofExcept (S := menuApi) x).bind f) w') :
    Prog.Alone MenuDb.exec Q ((menuPerform op).bind f) w := h _ _ rfl

/-- **A `POST` that creates a dish** has inserted it. -/
theorem postItem_alone (hd : itemSchema raw = some d) :
    Prog.Alone MenuDb.exec (fun w' x => ∀ id, x = .ok (.created id) → ∃ venueId w₁,
      w.menuItemCreate (d.row venueId) d.modifierGroups = (w₁, .ok id)
        ∧ w' = { w₁ with changed := w₁.changed ++ [venueId] }) (postItem staff (some raw)) w := by
  unfold postItem
  cases staff with
  | none =>
    intro id h
    cases h
  | some staff =>
    dsimp only
    rw [Option.bind_some, hd]
    refine alone_menuQuery ?_
    split
    · intro id h
      cases h
    · refine alone_menuPerform (fun w₁ x hx => ?_)
      cases x with
      | error e =>
        intro id h
        cases h
      | ok key =>
        intro id h
        cases h
        exact ⟨staff.venueId, w₁, hx, rfl⟩

/-- **A `PATCH` that writes a dish anew** has done it in its transaction. -/
theorem patchItem_alone (hd : itemSchema raw = some d) :
    Prog.Alone MenuDb.exec (fun w' x => x = .ok .ok → ∃ venueId w₁,
      w.menuItemTransaction id d.data d.modifierGroups = (w₁, .ok ())
        ∧ w' = { w₁ with changed := w₁.changed ++ [venueId] })
      (patchItem staff id (.other (some raw))) w := by
  unfold patchItem
  cases staff with
  | none =>
    intro h
    cases h
  | some staff =>
    refine alone_menuQuery ?_
    split
    · intro h
      cases h
    · dsimp only
      rw [Option.bind_some, hd]
      refine alone_menuPerform (fun w₁ x hx => ?_)
      cases x with
      | error e =>
        intro h
        cases h
      | ok _ =>
        intro h
        exact ⟨staff.venueId, w₁, hx, rfl⟩

/-- **What is stored of a saved item**: its groups, as they were sent. -/
theorem saves_spec (hw : w.ForeignKeys) (hd : itemSchema raw = some d)
    (h : w.Saves staff raw id w') :
    ∃ dish, w'.menuItems.get? id = some dish ∧ dish.available = d.available
      ∧ w'.shapes id = d.modifierGroups.map GroupInput.shape := by
  rcases h with h | h
  · have hpost : Prog.Alone MenuDb.exec _ (postItem staff (some raw)) w := postItem_alone hd
    unfold Prog.Alone at hpost
    rw [h] at hpost
    obtain ⟨venueId, w₁, hcreate, rfl⟩ := hpost id rfl
    obtain ⟨hrow, hshapes, _⟩ := MenuDb.menuItemCreate_spec hw hcreate
    exact ⟨_, hrow, rfl, hshapes⟩
  · have hpatch : Prog.Alone MenuDb.exec _ (patchItem staff id (.other (some raw))) w :=
      patchItem_alone hd
    unfold Prog.Alone at hpatch
    rw [h] at hpatch
    obtain ⟨venueId, w₁, htransaction, rfl⟩ := hpatch rfl
    rcases MenuDb.menuItemTransaction_spec hw htransaction with ⟨_, _, herror⟩ |
        ⟨_, _, hshapes, dish, _, hrow⟩
    · cases herror
    · exact ⟨_, hrow, rfl, hshapes⟩

end

/-- What of a dish's groups decides whether it can be ordered. -/
theorem MenuItem.Proper.choosable_of_shapes {item : MenuItem} (h : item.Proper)
    {groups : List GroupInput} (hmin : ∀ g ∈ groups, 0 ≤ g.minSelect)
    (hshapes : item.modifierGroups.map ModifierGroup.shape = groups.map GroupInput.shape) :
    item.Choosable
      ↔ (∀ g ∈ groups, g.minSelect ≤ g.maxSelect ∧ g.minSelect ≤ g.options.length)
        ∧ (groups.map (fun g => g.minSelect)).sum ≤ 20 := by
  have hall : ∀ P : GroupShape → Prop,
      (∀ g ∈ item.modifierGroups, P g.shape) ↔ ∀ g ∈ groups, P g.shape := by
    intro P
    rw [← List.forall_mem_map, hshapes, List.forall_mem_map]
  have hsum : item.modifierGroups.map (fun g => g.minSelect)
      = groups.map (fun g => g.minSelect) := by
    have hmins := congrArg (List.map GroupShape.minSelect) hshapes
    rwa [List.map_map, List.map_map] at hmins
  rw [h.choosable_iff ((hall (fun s => 0 ≤ s.minSelect)).mpr hmin), hsum]
  exact and_congr_left' (hall (fun s => s.minSelect ≤ s.maxSelect ∧ s.minSelect ≤ s.options))

/-- **What can be saved can be ordered** exactly if each group asks for no more options than
it allows and than it has, and all of them together for no more than twenty. -/
theorem saved_orderable (w w' : MenuDb) (hw : w.ForeignKeys) (staff : Option StaffClaims)
    (raw : RawItem) (d : ItemInput) (hd : itemSchema raw = some d) (havailable : d.available = true)
    (id : Id) (hsaved : w.Saves staff raw id w') :
    (∃ dish, w'.menuItems.get? id = some dish ∧ dish.available = true
        ∧ (w'.orderable (id, dish)).Choosable)
      ↔ (∀ g ∈ d.modifierGroups, g.minSelect ≤ g.maxSelect ∧ g.minSelect ≤ g.options.length)
        ∧ (d.modifierGroups.map (fun g => g.minSelect)).sum ≤ 20 := by
  obtain ⟨dish, hrow, hshown, hshapes⟩ := saves_spec hw hd hsaved
  have hchoosable := (orderable_proper w' (id, dish)).choosable_of_shapes (itemSchema_groups hd)
    ((MenuDb.orderable_shapes _).trans hshapes)
  rw [← hchoosable]
  constructor
  · rintro ⟨dish', hrow', _, hc⟩
    obtain rfl : dish = dish' := Option.some.inj (hrow.symm.trans hrow')
    exact hc
  · exact fun hc => ⟨dish, hrow, hshown.trans havailable, hc⟩

/-- A venue with one category, and nothing in it. -/
def oneCategory : MenuDb :=
  { bareVenue with categories := Rows.ofList [⟨0, text "Çorbalar", [], 0, true⟩] }

theorem oneCategory_foreignKeys : oneCategory.ForeignKeys :=
  ⟨fun _ _ h => (nomatch h), fun _ _ h => (nomatch h)⟩

/-- A soup of which a size must be chosen: of two sizes, two of at most one. -/
def twoOfOne (maxSelect : ℤ) : RawItem :=
  { categoryId := 0, nameTr := text "Çorba", nameEn := none, descTr := none, descEn := none,
    priceKurus := 5000, photoUrl := none, tags := none, available := none, sortOrder := none,
    modifierGroups := some [⟨text "Boy", none, some 2, some maxSelect,
      [⟨text "Az", none, none⟩, ⟨text "Tam", none, some 1000⟩]⟩] }

/-- The admin saves it. -/
def savedSoup (maxSelect : ℤ) : MenuDb :=
  ((postItem (some ⟨0, 0, []⟩) (some (twoOfOne maxSelect))).runAlone MenuDb.exec oneCategory).1

theorem savedSoup_saved :
    oneCategory.Saves (some ⟨0, 0, []⟩) (twoOfOne 1) 0 (savedSoup 1) := .inl rfl

/-- **The soup is saved, and nobody can order it.** -/
theorem saved_orderable_fails :
    ¬ ∃ dish, (savedSoup 1).menuItems.get? 0 = some dish ∧ dish.available = true
      ∧ ((savedSoup 1).orderable (0, dish)).Choosable := by
  rintro ⟨dish, _, _, hchoosable⟩
  obtain ⟨_, _, _, hshapes⟩ := saves_spec oneCategory_foreignKeys
    (show itemSchema (twoOfOne 1) = some _ from rfl) savedSoup_saved
  have hfeasible := ((orderable_proper (savedSoup 1) (0, dish)).choosable_of_shapes (by decide)
    ((MenuDb.orderable_shapes _).trans hshapes)).mp hchoosable
  exact absurd hfeasible.1 (by decide)

/-- With both sizes allowed they can be ordered. -/
theorem saved_orderable_both :
    ∃ dish, (savedSoup 2).menuItems.get? 0 = some dish ∧ dish.available = true
      ∧ ((savedSoup 2).orderable (0, dish)).Choosable :=
  (saved_orderable oneCategory (savedSoup 2) oneCategory_foreignKeys (some ⟨0, 0, []⟩) (twoOfOne 2) _
    rfl rfl 0 (.inl rfl)).mpr (by decide)

end Masadan
