import Masadan.ShownPrices
import Mathlib.Data.List.Pairwise

/-!
# The options of a line

The pricing loop checks the options a line names: each must be found among the dish's, and
each group must have no fewer and no more than it asks for. It counts what it found for the
line, an option as often as it was named (`passes_iff`); the sheet on the phone counts the
options of the group that are named. The two agree for a line that names no option twice
(`option_choices`).
-/

namespace Masadan

namespace MenuItem

/-- The options of a dish, group by group. -/
def optionIds (item : MenuItem) : List Id :=
  item.modifierGroups.flatMap (fun g => g.options.map (fun o => o.id))

/-- The checks of the loop: each option is found, and no group is out of its bounds. -/
def passes (item : MenuItem) (ids : List Id) : Bool :=
  decide ((ids.filterMap item.option?).length = ids.length)
    && (item.badGroup (ids.filterMap item.option?)).isNone

/-- **A dish as it is stored**: no two groups have one id, and no two options. -/
structure Proper (item : MenuItem) : Prop where
  groups : (item.modifierGroups.map (fun g => g.id)).Nodup
  options : item.optionIds.Nodup

end MenuItem

/-- How often options of the group are named. -/
def ModifierGroup.named (g : ModifierGroup) (ids : List Id) : ℕ :=
  ids.countP (fun id => (g.options.map (fun o => o.id)).contains id)

/-- How many options of the group are named. -/
def ModifierGroup.taken (g : ModifierGroup) (ids : List Id) : ℕ :=
  (g.options.map (fun o => o.id)).countP (fun id => ids.contains id)

namespace MenuItem

/-- **The choice respects the menu**: distinct options of the dish, of each group as many
as it asks for. -/
structure Respected (item : MenuItem) (ids : List Id) : Prop where
  distinct : ids.Nodup
  own : ∀ id ∈ ids, id ∈ item.optionIds
  bounds : ∀ g ∈ item.modifierGroups, g.minSelect ≤ g.taken ids ∧ g.taken ids ≤ g.maxSelect

section

variable {item : MenuItem} {g : ModifierGroup} {ids : List Id} {id : Id}

theorem mem_optionIds : id ∈ item.optionIds
    ↔ ∃ g ∈ item.modifierGroups, id ∈ g.options.map (fun o => o.id) := List.mem_flatMap

/-- An option is of one group. -/
theorem Proper.group_eq (h : item.Proper) {g' : ModifierGroup} (hg : g ∈ item.modifierGroups)
    (hg' : g' ∈ item.modifierGroups) (hid : id ∈ g.options.map (fun o => o.id))
    (hid' : id ∈ g'.options.map (fun o => o.id)) : g = g' := by
  by_contra hne
  have hdisjoint := (List.nodup_flatMap.mp h.options).2
  have hsymm : Std.Symm (Function.onFun List.Disjoint
      (fun g : ModifierGroup => g.options.map (fun o => o.id))) :=
    ⟨fun _ _ hd _ hid hid' => hd hid' hid⟩
  exact hdisjoint.forall hg hg' hne hid hid'

/-- **What is found under an id** is the option of the dish that has it, with its group. -/
theorem Proper.option?_eq_some (h : item.Proper) {o : ModifierOption × Id} :
    item.option? id = some o
      ↔ ∃ g ∈ item.modifierGroups, o.1 ∈ g.options ∧ o.1.id = id ∧ o.2 = g.id := by
  -- the pairs the map is made of, and their ids
  have hpairs : ∀ p : ModifierOption × Id,
      p ∈ item.modifierGroups.flatMap (fun g => g.options.map (fun o => (o, g.id)))
        ↔ ∃ g ∈ item.modifierGroups, p.1 ∈ g.options ∧ p.2 = g.id := by
    intro p
    rw [List.mem_flatMap]
    refine exists_congr (fun g => and_congr_right (fun _ => ?_))
    rw [List.mem_map]
    constructor
    · rintro ⟨o, ho, rfl⟩
      exact ⟨ho, rfl⟩
    · rintro ⟨ho, hgid⟩
      exact ⟨p.1, ho, Prod.ext rfl hgid.symm⟩
  have hids : (item.modifierGroups.flatMap (fun g => g.options.map (fun o => (o, g.id)))).map
      (fun p => p.1.id) = item.optionIds := by
    unfold optionIds
    rw [List.map_flatMap]
    simp only [List.map_map, Function.comp_def]
  unfold option?
  constructor
  · intro hfind
    obtain ⟨g, hg, ho, hgid⟩ :=
      (hpairs o).mp (List.mem_reverse.mp (List.mem_of_find?_eq_some hfind))
    have hid := List.find?_some hfind
    exact ⟨g, hg, ho, beq_iff_eq.mp hid, hgid⟩
  · rintro ⟨g, hg, ho, rfl, hgid⟩
    have hmem := (hpairs o).mpr ⟨g, hg, ho, hgid⟩
    cases hfind : ((item.modifierGroups.flatMap
        (fun g => g.options.map (fun o => (o, g.id)))).reverse).find?
          (fun p => p.1.id == o.1.id) with
    | none =>
      exact absurd (beq_self_eq_true o.1.id)
        (List.find?_eq_none.mp hfind o (List.mem_reverse.mpr hmem))
    | some p =>
      have hp := List.mem_reverse.mp (List.mem_of_find?_eq_some hfind)
      have hsame := List.find?_some hfind
      exact congrArg some
        (List.inj_on_of_nodup_map (hids ▸ h.options) hp hmem (beq_iff_eq.mp hsame))

theorem Proper.option?_isSome (h : item.Proper) :
    (item.option? id).isSome = true ↔ id ∈ item.optionIds := by
  rw [Option.isSome_iff_exists, mem_optionIds]
  constructor
  · rintro ⟨o, hfound⟩
    obtain ⟨g, hg, ho, rfl, _⟩ := h.option?_eq_some.mp hfound
    exact ⟨g, hg, List.mem_map_of_mem ho⟩
  · rintro ⟨g, hg, hid⟩
    obtain ⟨o, ho, rfl⟩ := List.mem_map.mp hid
    exact ⟨(o, g.id), h.option?_eq_some.mpr ⟨g, hg, ho, rfl, rfl⟩⟩

/-- What the loop counts of a group is how often its options are named. -/
theorem Proper.count_chosen (h : item.Proper) (hg : g ∈ item.modifierGroups) (ids : List Id) :
    ((ids.filterMap item.option?).filter (fun o => o.2 == g.id)).length = g.named ids := by
  rw [← List.countP_eq_length_filter, List.countP_filterMap]
  unfold ModifierGroup.named
  refine List.countP_congr (fun id _ => ?_)
  rw [List.contains_iff_mem]
  cases hfind : item.option? id with
  | none =>
    refine iff_of_false Bool.false_ne_true (fun hid => ?_)
    have hsome := h.option?_isSome.mpr (mem_optionIds.mpr ⟨g, hg, hid⟩)
    rw [hfind] at hsome
    cases hsome
  | some o =>
    obtain ⟨g', hg', ho, rfl, hgid⟩ := h.option?_eq_some.mp hfind
    show (o.2 == g.id) = true ↔ _
    rw [hgid, beq_iff_eq]
    constructor
    · intro hsame
      have hgroup : g' = g := List.inj_on_of_nodup_map h.groups hg' hg hsame
      exact hgroup ▸ List.mem_map_of_mem ho
    · intro hid
      exact congrArg _ (h.group_eq hg' hg (List.mem_map_of_mem ho) hid)

/-- **The checks of the loop**: options of the dish, of each group as many as it asks for,
counted as often as they are named. -/
theorem Proper.passes_iff (h : item.Proper) : item.passes ids = true
    ↔ (∀ id ∈ ids, id ∈ item.optionIds)
      ∧ ∀ g ∈ item.modifierGroups, g.minSelect ≤ g.named ids ∧ g.named ids ≤ g.maxSelect := by
  unfold passes
  rw [Bool.and_eq_true, decide_eq_true_iff, List.filterMap_length_eq_length]
  refine and_congr (forall₂_congr (fun id _ => h.option?_isSome)) ?_
  unfold badGroup
  rw [Option.isNone_iff_eq_none, List.find?_eq_none]
  refine forall₂_congr (fun g hg => ?_)
  dsimp only
  rw [h.count_chosen hg, Bool.or_eq_true, decide_eq_true_iff, decide_eq_true_iff, not_or, not_lt,
    not_lt]

/-- Of ids that are distinct as many are named as options are. -/
theorem Proper.named_eq_taken (h : item.Proper) (hg : g ∈ item.modifierGroups) (hids : ids.Nodup) :
    g.named ids = g.taken ids := by
  have hoptions : (g.options.map (fun o => o.id)).Nodup := (List.nodup_flatMap.mp h.options).1 g hg
  unfold ModifierGroup.named ModifierGroup.taken
  rw [List.countP_eq_length_filter, List.countP_eq_length_filter]
  refine List.Perm.length_eq ((List.perm_ext_iff_of_nodup (hids.filter _) (hoptions.filter _)).mpr
    (fun id => ?_))
  rw [List.mem_filter, List.mem_filter, List.contains_iff_mem, List.contains_iff_mem, and_comm]

/-- **What passes respects the menu** exactly if it names no option twice. -/
theorem Proper.respected_iff (h : item.Proper) (hpasses : item.passes ids = true) :
    item.Respected ids ↔ ids.Nodup := by
  refine ⟨fun hr => hr.distinct, fun hids => ?_⟩
  obtain ⟨hown, hbounds⟩ := h.passes_iff.mp hpasses
  exact ⟨hids, hown, fun g hg => h.named_eq_taken hg hids ▸ hbounds g hg⟩

end

end MenuItem

/-! ## The stored dish -/

/-- **The rows of a dish are proper.** -/
theorem orderable_proper (w : MenuDb) (d : Id × Dish) : (w.orderable d).Proper := by
  have hkeys : ∀ {δ : Type} (t : Rows δ) (p : ℕ → δ → Bool), ((t.filter p).map Prod.fst).Nodup :=
    fun t p => t.nodup_keys.sublist (List.filter_sublist.map _)
  constructor
  · unfold MenuDb.orderable
    dsimp only
    rw [List.map_map]
    exact hkeys _ _
  · unfold MenuItem.optionIds MenuDb.orderable
    dsimp only
    rw [List.flatMap_map]
    refine List.nodup_flatMap.mpr ⟨fun g _ => ?_, ?_⟩
    · dsimp only
      rw [List.map_map]
      exact hkeys _ _
    · -- an option of two groups would make them one
      have hdistinct := List.Nodup.of_map _ (hkeys w.modifierGroups (fun _ g => g.itemId == d.1))
      refine hdistinct.pairwise_of_forall_ne (fun g hg g' hg' hne => ?_)
      intro id hid hid'
      dsimp only at hid hid'
      rw [List.map_map, List.mem_map] at hid hid'
      obtain ⟨o, ho, rfl⟩ := hid
      obtain ⟨o', ho', hsame⟩ := hid'
      obtain ⟨hget, hof⟩ := Rows.mem_filter.mp ho
      obtain ⟨hget', hof'⟩ := Rows.mem_filter.mp ho'
      replace hsame : o'.1 = o.1 := hsame
      rw [hsame, hget] at hget'
      have hkey : g.1 = g'.1 := by
        rw [← beq_iff_eq.mp hof, ← beq_iff_eq.mp hof', Option.some.inj hget']
      have hrow := (Rows.mem_filter.mp hg).1
      rw [hkey, (Rows.mem_filter.mp hg').1] at hrow
      exact hne (Prod.ext hkey (Option.some.inj hrow).symm)

/-- What the loop accepts of a line: the dish is there, and its checks are passed. -/
theorem priceLine_passes {byId : Id → Option MenuItem} {line : OrderLine} {item : NewOrderItem}
    (h : priceLine byId line = .ok item) :
    ∃ dish, byId line.itemId = some dish ∧ dish.available = true
      ∧ dish.passes line.optionIds = true := by
  unfold priceLine at h
  split at h
  · cases h
  · next dish hdish =>
    obtain ⟨hfound, havailable⟩ := Option.filter_eq_some_iff.mp hdish
    dsimp only at h
    split at h
    · cases h
    · next hall =>
      split at h
      · cases h
      · next hgroups =>
        refine ⟨dish, hfound, havailable, ?_⟩
        unfold MenuItem.passes
        rw [decide_eq_true (not_not.mp hall), hgroups]
        rfl

/-- Each line of an order is priced. -/
theorem priceLines_each {byId : Id → Option MenuItem} {lines : List OrderLine}
    {priced : ℤ × List NewOrderItem} (h : priceLines byId lines 0 [] = .ok priced) :
    ∀ line ∈ lines, ∃ item, priceLine byId line = .ok item := by
  obtain ⟨new, -, -, heach⟩ := priceLines_spec h
  clear h
  induction heach with
  | nil => exact fun _ hline => absurd hline List.not_mem_nil
  | cons hitem _ ih => exact List.forall_mem_cons.mpr ⟨⟨_, hitem⟩, ih⟩

/-- A line is priced whose dish is there and whose options pass. -/
theorem priceLine_of_passes {byId : Id → Option MenuItem} {line : OrderLine} {dish : MenuItem}
    (hfound : byId line.itemId = some dish) (havailable : dish.available = true)
    (hpasses : dish.passes line.optionIds = true) : ∃ item, priceLine byId line = .ok item := by
  unfold MenuItem.passes at hpasses
  rw [Bool.and_eq_true, decide_eq_true_iff, Option.isNone_iff_eq_none] at hpasses
  unfold priceLine
  rw [hfound, Option.filter_some, havailable]
  dsimp only
  rw [if_pos rfl]
  dsimp only
  rw [if_neg (not_not.mpr hpasses.1), hpasses.2]
  exact ⟨_, rfl⟩

/-- An order is priced if each of its lines is. -/
theorem priceLines_of_each {byId : Id → Option MenuItem} {lines : List OrderLine}
    (h : ∀ line ∈ lines, ∃ item, priceLine byId line = .ok item) (t : ℤ)
    (items : List NewOrderItem) : ∃ priced, priceLines byId lines t items = .ok priced := by
  induction lines generalizing t items with
  | nil => exact ⟨_, rfl⟩
  | cons line rest ih =>
    obtain ⟨⟨item, hitem⟩, hrest⟩ := List.forall_mem_cons.mp h
    unfold priceLines
    rw [hitem]
    exact ih hrest _ _

/-- What a dish of the kitchen is in the menu's tables. -/
theorem World.Serves.menuFor {w : World} {db : MenuDb} (hserves : w.Serves db) {venueId id : Id}
    {itemIds : List Id} {item : MenuItem} (h : w.menuFor venueId itemIds id = some item) :
    ∃ dish, db.menuItems.get? id = some dish ∧ item = db.orderable (id, dish)
      ∧ dish.venueId = venueId := by
  unfold World.menuFor at h
  split at h
  · obtain ⟨hget, hvenue⟩ := Option.filter_eq_some_iff.mp h
    rw [hserves] at hget
    obtain ⟨dish, hdish, rfl⟩ := Option.map_eq_some_iff.mp hget
    exact ⟨dish, hdish, rfl, beq_iff_eq.mp hvenue⟩
  · cases h

/-! ## The law -/

/-- **Option choices**: each line of a placed order respects the menu exactly if it names
no option twice. -/
theorem option_choices (hmac : Hmac) (w₀ : World) (db : MenuDb) (hserves : w₀.Serves db)
    (acts : List (phoneServer hmac).Action) (t : (phoneServer hmac).Thread)
    (ht : t ∈ (phoneRun hmac w₀ acts).threads) (req : OrderRequest) (hreq : t.req = .order req)
    (data : NewOrder) (items : List NewOrderItem) (hplaced : HasPlaced t data items) :
    ∃ body, req.body.bind (orderSchema req.zod) = some body ∧ ∀ line ∈ body.items, ∃ dish,
      db.menuItems.get? line.itemId = some dish
        ∧ ((db.orderable (line.itemId, dish)).Respected line.optionIds ↔ line.optionIds.Nodup) := by
  obtain ⟨w, body, hserves', hparsed, hpriced⟩ := placed_priced hserves ht hreq hplaced
  refine ⟨body, hparsed, fun line hline => ?_⟩
  obtain ⟨item, hitem⟩ := priceLines_each hpriced line hline
  obtain ⟨_, hfor, _, hpasses⟩ := priceLine_passes hitem
  obtain ⟨dish, hdish, rfl, _⟩ := hserves'.menuFor hfor
  exact ⟨dish, hdish, (orderable_proper db _).respected_iff hpasses⟩

/-- A soup with the first extra twice. -/
def twiceOrder : OrderRequest :=
  ⟨some 7, ⟨[], []⟩, some ⟨[⟨0, 1, none, some [0, 0]⟩], none⟩, .plain, true⟩

def twiceRun : List (phoneServer plainHmac).Action :=
  .arrive (.order twiceOrder) :: List.replicate 10 (.step 0 plain)

/-- What it is charged: the extra twice. -/
def twiceLines : List NewOrderItem := [⟨0, [], 120, 1, [], [([], 10), ([], 10)]⟩]

theorem twiceRun_places : ∃ t ∈ (phoneRun plainHmac soupKitchen twiceRun).threads,
    t.req = .order twiceOrder ∧ HasPlaced t ⟨0, 0, 0, some 0, 1, 120, none⟩ twiceLines :=
  ⟨_, List.mem_of_getElem? (i := 0) rfl, rfl, _, List.mem_of_getElem? (i := 2) rfl, rfl, rfl⟩

/-- **An option named twice is charged twice**: the order is placed. -/
theorem option_choices_fails :
    ¬ ∀ (hmac : Hmac) (w₀ : World) (db : MenuDb), w₀.Serves db →
      ∀ (acts : List (phoneServer hmac).Action), ∀ t ∈ (phoneRun hmac w₀ acts).threads,
      ∀ (req : OrderRequest), t.req = .order req →
      ∀ (data : NewOrder) (items : List NewOrderItem), HasPlaced t data items →
      ∃ body, req.body.bind (orderSchema req.zod) = some body ∧ ∀ line ∈ body.items, ∃ dish,
        db.menuItems.get? line.itemId = some dish
          ∧ (db.orderable (line.itemId, dish)).Respected line.optionIds := by
  intro h
  obtain ⟨t, ht, hreq, hplaced⟩ := twiceRun_places
  obtain ⟨body, hbody, hlines⟩ := h plainHmac soupKitchen (soupMenu true) (soupKitchen_serves true)
    twiceRun t ht twiceOrder hreq _ _ hplaced
  cases hbody
  obtain ⟨_, _, hrespected⟩ := hlines _ List.mem_cons_self
  exact absurd hrespected.distinct (by decide)

/-- Two soups with both extras, each named once. -/
theorem option_choices_soup : ∃ body, soupOrder.body.bind (orderSchema soupOrder.zod) = some body
    ∧ ∀ line ∈ body.items, ∃ dish, (soupMenu true).menuItems.get? line.itemId = some dish
      ∧ (((soupMenu true).orderable (line.itemId, dish)).Respected line.optionIds
        ↔ line.optionIds.Nodup) := by
  obtain ⟨t, ht, hreq, hplaced⟩ := soupRun_places
  exact option_choices plainHmac soupKitchen (soupMenu true) (soupKitchen_serves true) soupRun t ht
    soupOrder hreq _ _ hplaced

end Masadan
