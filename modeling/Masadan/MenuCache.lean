import Mathlib.Data.List.Induction
import Masadan.MenuAdmin
import Masadan.PromiseCache

/-!
# The cached menu

`venueMenu` of `src/lib/menu.ts`, and the listener on the bus beside it: the promise of a
venue's menu is kept until the menu changes. A load reads the categories and the venue at two
moments of their own, and may fail; it may be under way while the menu is written, while its
entry is thrown away, and while other loads of the same venue are.

A menu asked for after a write was published is read after the write (`menu_never_stale`): the
event has thrown away what was loaded before, and nothing puts it back.
-/

namespace Masadan

/-! ## Loads -/

/-- **A load of a venue's menu**: what its two reads were answered, what one of them threw, and
what became of the promise that is handed out. -/
structure MenuLoad where
  venueId : Id
  categories : Option (List CategoryView)
  venue : Option VenueInfo
  threw : Option DbError
  outcome : Option (Except DbError VenueMenu)

namespace MenuLoad

def start (venueId : Id) : MenuLoad := ⟨venueId, none, none, none, none⟩

/-- The promise is rejected. -/
def failed (l : MenuLoad) : Bool :=
  match l.outcome with
  | some (.error _) => true
  | _ => false

/-- The categories are read, with all that is in them. -/
def findMany (db : MenuDb) (l : MenuLoad) : MenuLoad :=
  if l.categories.isSome then l
  else { l with categories := some ((db.categoriesOf l.venueId).map db.categoryView) }

/-- The venue is read; one that is not there throws. -/
def findUniqueOrThrow (db : MenuDb) (l : MenuLoad) : MenuLoad :=
  if l.venue.isSome || l.threw.isSome then l
  else
    match db.venues.get? l.venueId with
    | some venue => { l with venue := some venue }
    | none => { l with threw := some .p2025 }

/-- A read that has not been answered fails. -/
def fault (l : MenuLoad) : MenuLoad :=
  if l.categories.isSome && l.venue.isSome || l.threw.isSome then l
  else { l with threw := some .failed }

end MenuLoad

/-! ## The process -/

/-- **The process**: the menu's tables, and the cache with the loads there have been. -/
structure MenuHost where
  db : MenuDb
  cache : PromiseCache Id MenuLoad

/-- What can happen. -/
inductive MenuAction where
  /-- Somebody asks for a venue's menu. -/
  | venueMenu (venueId : Id)
  | findMany (load : ℕ)
  | findUniqueOrThrow (load : ℕ)
  | fault (load : ℕ)
  /-- A load goes on after its reads: it is done, or its `catch` runs. -/
  | settle (load : ℕ)
  /-- A write to the menu's tables commits. -/
  | write (data : MenuDb → MenuDb)
  | publish (event : BusEvent)

namespace MenuHost

def init (db : MenuDb) : MenuHost := ⟨db, ⟨fun _ => none, []⟩⟩

/-- **The venue's menu, from cache when it has one**: the process afterwards, and the load
whose promise is handed out. -/
def venueMenu (s : MenuHost) (venueId : Id) : MenuHost × ℕ :=
  let pending := s.cache.get venueId (.start venueId)
  ({ s with cache := pending.1 }, pending.2)

/-- What is done with what the reads of a load were answered. -/
def settle (s : MenuHost) (load : ℕ) : MenuHost :=
  match s.cache.loads[load]? with
  | none => s
  | some l =>
    if l.outcome.isSome then s
    else
      match l.threw with
      | some e =>
        -- a failed load must not be served to the next caller
        { s with cache :=
          (s.cache.step load (fun l => { l with outcome := some (.error e) })).drop l.venueId }
      | none =>
        match l.categories, l.venue with
        | some categories, some venue =>
          { s with cache :=
            s.cache.step load (fun l => { l with outcome := some (.ok ⟨venue, categories⟩) }) }
        | _, _ => s

/-- The listener on the bus. -/
def onEvent (s : MenuHost) (event : BusEvent) : MenuHost :=
  match event with
  | .menu_changed venueId =>
    { s with
      db := { s.db with changed := s.db.changed ++ [venueId] }
      cache := s.cache.drop venueId }
  | _ => s

def act (s : MenuHost) : MenuAction → MenuHost
  | .venueMenu venueId => (s.venueMenu venueId).1
  | .findMany load => { s with cache := s.cache.step load (MenuLoad.findMany s.db) }
  | .findUniqueOrThrow load =>
    { s with cache := s.cache.step load (MenuLoad.findUniqueOrThrow s.db) }
  | .fault load => { s with cache := s.cache.step load MenuLoad.fault }
  | .settle load => s.settle load
  | .write data => { s with db := data s.db }
  | .publish event => s.onEvent event

def run (s : MenuHost) (acts : List MenuAction) : MenuHost := acts.foldl act s

theorem run_append (s : MenuHost) (as bs : List MenuAction) :
    s.run (as ++ bs) = (s.run as).run bs := List.foldl_append

theorem run_concat (s : MenuHost) (as : List MenuAction) (a : MenuAction) :
    s.run (as ++ [a]) = (s.run as).act a := by
  rw [run_append]
  rfl

/-- What one action keeps, a run keeps. -/
theorem run_induction (I : MenuHost → Prop) (hstep : ∀ s a, I s → I (s.act a)) {s : MenuHost}
    (hs : I s) (acts : List MenuAction) : I (s.run acts) := by
  induction acts generalizing s with
  | nil => exact hs
  | cons a as ih => exact ih (hstep s a hs)

end MenuHost

/-! ## What an action does to the loads -/

/-- **How a load goes on.** -/
inductive MenuLoad.Goes (db : MenuDb) (l : MenuLoad) : MenuLoad → Prop
  | stays : Goes db l l
  | findMany : Goes db l (l.findMany db)
  | findUniqueOrThrow : Goes db l (l.findUniqueOrThrow db)
  | fault : Goes db l l.fault
  | rejected (e : DbError) (h : l.outcome = none) : Goes db l { l with outcome := some (.error e) }
  | fulfilled (categories : List CategoryView) (venue : VenueInfo) (h : l.outcome = none)
      (hc : l.categories = some categories) (hv : l.venue = some venue) :
      Goes db l { l with outcome := some (.ok ⟨venue, categories⟩) }

section

variable {s : MenuHost} {a : MenuAction} {i : ℕ} {l l' : MenuLoad} {db : MenuDb}

@[simp] theorem findMany_venueId : (l.findMany db).venueId = l.venueId := by
  unfold MenuLoad.findMany
  split
  · rfl
  · rfl

@[simp] theorem findMany_outcome : (l.findMany db).outcome = l.outcome := by
  unfold MenuLoad.findMany
  split
  · rfl
  · rfl

@[simp] theorem findUniqueOrThrow_venueId : (l.findUniqueOrThrow db).venueId = l.venueId := by
  unfold MenuLoad.findUniqueOrThrow
  repeat' split
  all_goals rfl

@[simp] theorem findUniqueOrThrow_outcome : (l.findUniqueOrThrow db).outcome = l.outcome := by
  unfold MenuLoad.findUniqueOrThrow
  repeat' split
  all_goals rfl

@[simp] theorem fault_venueId : l.fault.venueId = l.venueId := by
  unfold MenuLoad.fault
  split
  · rfl
  · rfl

@[simp] theorem fault_outcome : l.fault.outcome = l.outcome := by
  unfold MenuLoad.fault
  split
  · rfl
  · rfl

/-- What a load is of, it stays of. -/
theorem MenuLoad.Goes.venueId_eq (h : MenuLoad.Goes db l l') : l'.venueId = l.venueId := by
  cases h with
  | stays => rfl
  | findMany => exact findMany_venueId
  | findUniqueOrThrow => exact findUniqueOrThrow_venueId
  | fault => exact fault_venueId
  | rejected e h => rfl
  | fulfilled categories venue h hc hv => rfl

/-- What has become of a promise stays so. -/
theorem MenuLoad.Goes.outcome_eq (h : MenuLoad.Goes db l l') (hdone : l.outcome.isSome = true) :
    l'.outcome = l.outcome := by
  cases h with
  | stays => rfl
  | findMany => exact findMany_outcome
  | findUniqueOrThrow => exact findUniqueOrThrow_outcome
  | fault => exact fault_outcome
  | rejected e h =>
    rw [h] at hdone
    cases hdone
  | fulfilled categories venue h hc hv =>
    rw [h] at hdone
    cases hdone

/-- A settled load has settled, or is as it was. -/
theorem settle_cases (s : MenuHost) (i : ℕ) : s.settle i = s
    ∨ (∃ l e, s.cache.loads[i]? = some l ∧ l.outcome = none ∧ s.settle i
        = ⟨s.db, (s.cache.step i (fun l => { l with outcome := some (.error e) })).drop l.venueId⟩)
    ∨ ∃ l categories venue, s.cache.loads[i]? = some l ∧ l.outcome = none
      ∧ l.categories = some categories ∧ l.venue = some venue ∧ s.settle i
        = ⟨s.db, s.cache.step i (fun l => { l with outcome := some (.ok ⟨venue, categories⟩) })⟩ := by
  unfold MenuHost.settle
  split
  · exact .inl rfl
  · next l hl =>
    split
    · exact .inl rfl
    · next hout =>
      have hnone : l.outcome = none := by simpa using hout
      split
      · next e _ => exact .inr (.inl ⟨l, e, hl, hnone, rfl⟩)
      · split
        · next categories venue hc hv =>
          exact .inr (.inr ⟨l, categories, venue, hl, hnone, hc, hv, rfl⟩)
        · exact .inl rfl

/-- One load goes on by a function. -/
theorem step_goes {j : ℕ} {f : MenuLoad → MenuLoad} {c : PromiseCache Id MenuLoad}
    (hf : ∀ l, c.loads[j]? = some l → MenuLoad.Goes db l (f l))
    (h : (c.step j f).loads[i]? = some l') :
    ∃ l, c.loads[i]? = some l ∧ MenuLoad.Goes db l l' := by
  rw [PromiseCache.step_loads] at h
  obtain ⟨l, hl, rfl⟩ := Option.map_eq_some_iff.mp h
  refine ⟨l, hl, ?_⟩
  by_cases hij : j = i
  · subst hij
    rw [if_pos rfl]
    exact hf l hl
  · rw [if_neg hij]
    exact .stays

/-- **What an action does to the loads**: one goes on, or one starts. -/
theorem act_loads (h : (s.act a).cache.loads[i]? = some l') :
    (∃ l, s.cache.loads[i]? = some l ∧ MenuLoad.Goes s.db l l')
      ∨ s.cache.loads.length ≤ i ∧ ∃ venueId, l' = .start venueId := by
  cases a with
  | venueMenu venueId =>
    replace h : (s.cache.get venueId (.start venueId)).1.loads[i]? = some l' := h
    rcases PromiseCache.get_loads_cases h with hold | ⟨hi, rfl⟩
    · exact .inl ⟨l', hold, .stays⟩
    · exact .inr ⟨hi, venueId, rfl⟩
  | findMany load => exact .inl (step_goes (fun _ _ => .findMany) h)
  | findUniqueOrThrow load => exact .inl (step_goes (fun _ _ => .findUniqueOrThrow) h)
  | fault load => exact .inl (step_goes (fun _ _ => .fault) h)
  | settle load =>
    left
    replace h : (s.settle load).cache.loads[i]? = some l' := h
    rcases settle_cases s load with hs | ⟨l, e, hl, hnone, hs⟩ | ⟨l, cs, venue, hl, hnone, hc, hv, hs⟩
    · rw [hs] at h
      exact ⟨l', h, .stays⟩
    · rw [hs] at h
      refine step_goes (fun l₀ hl₀ => ?_) h
      obtain rfl : l = l₀ := Option.some.inj (hl.symm.trans hl₀)
      exact .rejected e hnone
    · rw [hs] at h
      refine step_goes (fun l₀ hl₀ => ?_) h
      obtain rfl : l = l₀ := Option.some.inj (hl.symm.trans hl₀)
      exact .fulfilled cs venue hnone hc hv
  | write data => exact .inl ⟨l', h, .stays⟩
  | publish event =>
    left
    cases event with
    | menu_changed venueId => exact ⟨l', h, .stays⟩
    | _ => exact ⟨l', h, .stays⟩

/-- There are no fewer loads later. -/
theorem act_length : s.cache.loads.length ≤ (s.act a).cache.loads.length := by
  cases a with
  | venueMenu venueId => exact PromiseCache.length_get
  | settle load =>
    show _ ≤ (s.settle load).cache.loads.length
    rcases settle_cases s load with hs | ⟨l, e, _, _, hs⟩ | ⟨l, cs, venue, _, _, _, _, hs⟩
    · rw [hs]
    · rw [hs]
      simp
    · rw [hs]
      simp
  | publish event =>
    cases event with
    | menu_changed venueId => exact le_rfl
    | _ => exact le_rfl
  | write data => exact le_rfl
  | _ => exact (PromiseCache.length_step).ge

/-- A load that was there is still there, and has gone on. -/
theorem act_load (h : s.cache.loads[i]? = some l) :
    ∃ l', (s.act a).cache.loads[i]? = some l' ∧ MenuLoad.Goes s.db l l' := by
  have hi : i < (s.act a).cache.loads.length :=
    (List.getElem?_eq_some_iff.mp h).1.trans_le act_length
  refine ⟨_, List.getElem?_eq_getElem hi, ?_⟩
  rcases act_loads (List.getElem?_eq_getElem hi) with ⟨l₀, hl₀, hgoes⟩ | ⟨hle, _⟩
  · obtain rfl : l = l₀ := Option.some.inj (h.symm.trans hl₀)
    exact hgoes
  · exact absurd (List.getElem?_eq_some_iff.mp h).1 (Nat.not_lt.mpr hle)

/-! ## What is cached -/

/-- **What is cached is of its venue, and has not failed.** -/
theorem act_good (h : s.cache.Good MenuLoad.venueId MenuLoad.failed) :
    (s.act a).cache.Good MenuLoad.venueId MenuLoad.failed := by
  have hsame : ∀ {f : MenuLoad → MenuLoad} {j : ℕ}, (∀ l, (f l).venueId = l.venueId) →
      (∀ l, (f l).outcome = l.outcome) →
      (s.cache.step j f).Good MenuLoad.venueId MenuLoad.failed := by
    intro f j hvenue houtcome
    refine h.step hvenue (fun l _ hgood => ?_)
    unfold MenuLoad.failed at hgood ⊢
    rw [houtcome]
    exact hgood
  cases a with
  | venueMenu venueId => exact h.get rfl rfl
  | findMany load => exact hsame (fun _ => findMany_venueId) (fun _ => findMany_outcome)
  | findUniqueOrThrow load =>
    exact hsame (fun _ => findUniqueOrThrow_venueId) (fun _ => findUniqueOrThrow_outcome)
  | fault load => exact hsame (fun _ => fault_venueId) (fun _ => fault_outcome)
  | settle load =>
    show (s.settle load).cache.Good _ _
    rcases settle_cases s load with hs | ⟨l, e, hl, _, hs⟩ | ⟨l, cs, venue, _, _, _, _, hs⟩
    · rw [hs]
      exact h
    · rw [hs]
      exact h.fail hl
    · rw [hs]
      exact h.step (fun _ => rfl) (fun _ _ _ => rfl)
  | write data => exact h
  | publish event =>
    cases event with
    | menu_changed venueId => exact h.drop
    | _ => exact h

/-- **Nothing puts back what was thrown away.** -/
theorem act_since {n : ℕ} {venueId : Id} (h : PromiseCache.Since n venueId s.cache)
    (hn : n ≤ s.cache.loads.length) : PromiseCache.Since n venueId (s.act a).cache := by
  cases a with
  | venueMenu v => exact h.get hn
  | settle load =>
    show PromiseCache.Since n venueId (s.settle load).cache
    rcases settle_cases s load with hs | ⟨l, e, _, _, hs⟩ | ⟨l, cs, venue, _, _, _, _, hs⟩
    · rw [hs]
      exact h
    · rw [hs]
      exact PromiseCache.Since.drop h.step
    · rw [hs]
      exact h.step
  | publish event =>
    cases event with
    | menu_changed v => exact h.drop
    | _ => exact h
  | _ => exact h

/-- Events of other venues, and of other kinds, throw nothing of a venue's away. -/
theorem publish_other {event : BusEvent} {venueId : Id} (h : event ≠ .menu_changed venueId) :
    (s.act (.publish event)).cache.entry venueId = s.cache.entry venueId := by
  cases event with
  | menu_changed v =>
    refine PromiseCache.drop_other (fun hv => h ?_)
    rw [hv]
  | _ => rfl

end

/-! ## What a load has read -/

/-- The menu's tables were so at some moment of the run. -/
def Passed (s : MenuHost) (acts : List MenuAction) (db : MenuDb) : Prop :=
  ∃ early late, acts = early ++ late ∧ (s.run early).db = db

theorem Passed.longer {s : MenuHost} {acts : List MenuAction} {db : MenuDb} (h : Passed s acts db)
    (more : List MenuAction) : Passed s (acts ++ more) db := by
  obtain ⟨early, late, rfl, hdb⟩ := h
  exact ⟨early, late ++ more, List.append_assoc _ _ _, hdb⟩

theorem Passed.now (s : MenuHost) (acts more : List MenuAction) :
    Passed s (acts ++ more) (s.run acts).db := ⟨acts, more, rfl, rfl⟩

/-- **A load has read what was there in the run**, and its promise holds what it has read. -/
structure ReadIn (s : MenuHost) (acts : List MenuAction) (l : MenuLoad) : Prop where
  categories : ∀ categories, l.categories = some categories →
    ∃ db, Passed s acts db ∧ categories = (db.categoriesOf l.venueId).map db.categoryView
  venue : ∀ venue, l.venue = some venue →
    ∃ db, Passed s acts db ∧ db.venues.get? l.venueId = some venue
  outcome : ∀ menu, l.outcome = some (.ok menu) →
    l.categories = some menu.categories ∧ l.venue = some menu.venue

section

variable {s : MenuHost} {acts : List MenuAction} {a : MenuAction} {l l' : MenuLoad}

theorem ReadIn.longer (h : ReadIn s acts l) (more : List MenuAction) : ReadIn s (acts ++ more) l where
  categories cs hcs := by
    obtain ⟨db, hdb, heq⟩ := h.categories cs hcs
    exact ⟨db, hdb.longer more, heq⟩
  venue v hv := by
    obtain ⟨db, hdb, heq⟩ := h.venue v hv
    exact ⟨db, hdb.longer more, heq⟩
  outcome := h.outcome

/-- A load that goes on reads what is there. -/
theorem ReadIn.goes (h : ReadIn s acts l) (hdb : Passed s acts db)
    (hgoes : MenuLoad.Goes db l l') : ReadIn s acts l' := by
  cases hgoes with
  | stays => exact h
  | findMany =>
    unfold MenuLoad.findMany
    split
    · exact h
    · next hnone =>
      refine ⟨fun cs hcs => ⟨db, hdb, (Option.some.inj hcs).symm⟩, h.venue, fun menu hmenu => ?_⟩
      rw [(h.outcome menu hmenu).1] at hnone
      exact absurd rfl hnone
  | findUniqueOrThrow =>
    unfold MenuLoad.findUniqueOrThrow
    split
    · exact h
    · next hnone =>
      split
      · next venue hvenue =>
        refine ⟨h.categories, fun v hv => ⟨db, hdb, hv ▸ hvenue⟩, fun menu hmenu => ?_⟩
        rw [(h.outcome menu hmenu).2] at hnone
        exact absurd rfl hnone
      · exact ⟨h.categories, h.venue, h.outcome⟩
  | fault =>
    unfold MenuLoad.fault
    split
    · exact h
    · exact ⟨h.categories, h.venue, h.outcome⟩
  | rejected e hnone => exact ⟨h.categories, h.venue, fun menu hmenu => by cases hmenu⟩
  | fulfilled cs venue hnone hc hv =>
    refine ⟨h.categories, h.venue, fun menu hmenu => ?_⟩
    obtain rfl : (⟨venue, cs⟩ : VenueMenu) = menu := Except.ok.inj (Option.some.inj hmenu)
    exact ⟨hc, hv⟩

/-- **What a load that has started in a run has read, it has read in the run.** -/
theorem run_readIn (s : MenuHost) (acts : List MenuAction) :
    ∀ i l, s.cache.loads.length ≤ i → (s.run acts).cache.loads[i]? = some l → ReadIn s acts l := by
  induction acts using List.reverseRecOn with
  | nil =>
    intro i l hi hl
    exact absurd (List.getElem?_eq_some_iff.mp hl).1 (Nat.not_lt.mpr hi)
  | append_singleton as a ih =>
    intro i l hi hl
    rw [MenuHost.run_concat] at hl
    rcases act_loads hl with ⟨l₀, hl₀, hgoes⟩ | ⟨_, venueId, rfl⟩
    · exact ((ih i l₀ hi hl₀).longer [a]).goes (Passed.now s as [a]) hgoes
    · exact ⟨fun _ h => (nomatch h), fun _ h => (nomatch h), fun _ h => (nomatch h)⟩

theorem run_length (s : MenuHost) (acts : List MenuAction) :
    s.cache.loads.length ≤ (s.run acts).cache.loads.length :=
  MenuHost.run_induction (fun u => s.cache.loads.length ≤ u.cache.loads.length)
    (fun _ _ h => h.trans act_length) le_rfl acts

theorem run_good (db : MenuDb) (acts : List MenuAction) :
    ((MenuHost.init db).run acts).cache.Good MenuLoad.venueId MenuLoad.failed :=
  MenuHost.run_induction (fun u => u.cache.Good MenuLoad.venueId MenuLoad.failed)
    (fun _ _ h => act_good h) (fun _ _ h => by cases h) acts

/-- A load stays of its venue, and what has become of it stays so. -/
theorem run_load (acts : List MenuAction) {i : ℕ} (h : s.cache.loads[i]? = some l) :
    ∃ l', (s.run acts).cache.loads[i]? = some l' ∧ l'.venueId = l.venueId
      ∧ (l.outcome.isSome = true → l'.outcome = l.outcome) := by
  refine MenuHost.run_induction (fun u => ∃ l', u.cache.loads[i]? = some l'
    ∧ l'.venueId = l.venueId ∧ (l.outcome.isSome = true → l'.outcome = l.outcome))
    (fun u a hu => ?_) ⟨l, h, rfl, fun _ => rfl⟩ acts
  obtain ⟨l₁, hl₁, hvenue, hout⟩ := hu
  obtain ⟨l₂, hl₂, hgoes⟩ := act_load (a := a) hl₁
  refine ⟨l₂, hl₂, hgoes.venueId_eq.trans hvenue, fun hdone => ?_⟩
  rw [hgoes.outcome_eq (by rw [hout hdone]; exact hdone)]
  exact hout hdone

/-- **A menu asked for after the event** is a load that had not started before the run. -/
theorem venueMenu_since (s : MenuHost) (mid later : List MenuAction) (venueId : Id) :
    s.cache.loads.length
      ≤ ((s.run (mid ++ .publish (.menu_changed venueId) :: later)).venueMenu venueId).2 := by
  rw [MenuHost.run_append]
  have hlater := MenuHost.run_induction (fun u => s.cache.loads.length ≤ u.cache.loads.length
    ∧ PromiseCache.Since s.cache.loads.length venueId u.cache)
    (fun _ _ h => ⟨h.1.trans act_length, act_since h.2 h.1⟩)
    (s := (s.run mid).act (.publish (.menu_changed venueId)))
    ⟨(run_length s mid).trans act_length, PromiseCache.since_drop⟩ later
  exact PromiseCache.get_since hlater.2 hlater.1

end

/-- **Cached menus are never stale after an edit**: what is handed out after a write was
published is a load that started after the write, and what it fulfils was read after it; what
is published of another venue throws nothing away; and a load that has failed is handed out to
nobody. -/
theorem menu_never_stale (db : MenuDb) :
    (∀ (pre mid later : List MenuAction) (data : MenuDb → MenuDb) (venueId : Id),
      let committed := (MenuHost.init db).run (pre ++ [.write data])
      let asked := committed.run (mid ++ .publish (.menu_changed venueId) :: later)
      let load := (asked.venueMenu venueId).2
      committed.cache.loads.length ≤ load
        ∧ ∀ (post : List MenuAction) (l : MenuLoad) (menu : VenueMenu),
          ((asked.venueMenu venueId).1.run post).cache.loads[load]? = some l →
          l.outcome = some (.ok menu) → ∃ db₁ db₂,
            Passed committed ((mid ++ .publish (.menu_changed venueId) :: later)
              ++ .venueMenu venueId :: post) db₁
            ∧ Passed committed ((mid ++ .publish (.menu_changed venueId) :: later)
              ++ .venueMenu venueId :: post) db₂
            ∧ menu.categories = (db₁.categoriesOf venueId).map db₁.categoryView
            ∧ db₂.venues.get? venueId = some menu.venue)
      ∧ (∀ (acts : List MenuAction) (event : BusEvent) (venueId : Id),
        event ≠ .menu_changed venueId →
        ((MenuHost.init db).run (acts ++ [.publish event])).cache.entry venueId
          = ((MenuHost.init db).run acts).cache.entry venueId)
      ∧ ∀ (acts later : List MenuAction) (load : ℕ) (l : MenuLoad) (venueId : Id),
        ((MenuHost.init db).run acts).cache.loads[load]? = some l → l.failed = true →
        (((MenuHost.init db).run (acts ++ later)).venueMenu venueId).2 ≠ load := by
  refine ⟨?_, ?_, ?_⟩
  · intro pre mid later data venueId committed asked load
    refine ⟨venueMenu_since committed mid later venueId, fun post l menu hl hmenu => ?_⟩
    -- the load is of the venue
    have hgood : asked.cache.Good MenuLoad.venueId MenuLoad.failed := by
      have h := run_good db ((pre ++ [.write data])
        ++ (mid ++ .publish (.menu_changed venueId) :: later))
      rw [MenuHost.run_append] at h
      exact h
    obtain ⟨l₀, hl₀, hvenue₀⟩ : ∃ l₀, (asked.venueMenu venueId).1.cache.loads[load]? = some l₀
        ∧ l₀.venueId = venueId := PromiseCache.get_key hgood rfl
    obtain ⟨l₁, hl₁, hvenue₁, _⟩ := run_load post hl₀
    obtain rfl : l = l₁ := Option.some.inj (hl.symm.trans hl₁)
    -- and has read since
    have hread : ReadIn committed ((mid ++ .publish (.menu_changed venueId) :: later)
        ++ .venueMenu venueId :: post) l := by
      refine run_readIn committed _ load l (venueMenu_since committed mid later venueId) ?_
      rw [MenuHost.run_append]
      exact hl
    obtain ⟨hcategories, hvenue⟩ := hread.outcome menu hmenu
    obtain ⟨db₁, hdb₁, hcs⟩ := hread.categories _ hcategories
    obtain ⟨db₂, hdb₂, hv⟩ := hread.venue _ hvenue
    rw [hvenue₁, hvenue₀] at hcs hv
    exact ⟨db₁, db₂, hdb₁, hdb₂, hcs, hv⟩
  · intro acts event venueId hevent
    rw [MenuHost.run_concat]
    exact publish_other hevent
  · intro acts later load l venueId hl hfailed
    obtain ⟨l', hl', _, hout⟩ := run_load later hl
    rw [← MenuHost.run_append] at hl'
    have hdone : l.outcome.isSome = true := by
      unfold MenuLoad.failed at hfailed
      cases hl₀ : l.outcome with
      | none =>
        rw [hl₀] at hfailed
        cases hfailed
      | some o => rfl
    refine PromiseCache.get_not_bad (run_good db (acts ++ later)) hl' ?_
    unfold MenuLoad.failed at hfailed ⊢
    rw [hout hdone]
    exact hfailed

/-! ### An edit while the menu is loading -/

/-- A venue without dishes. -/
def bareVenue : MenuDb where
  venues := Rows.ofList [⟨[], [], []⟩]
  categories := Rows.empty
  menuItems := Rows.empty
  modifierGroups := Rows.empty
  modifierOptions := Rows.empty
  ordered := []
  changed := []

/-- The venue is given a name. -/
def rename (db : MenuDb) : MenuDb :=
  { db with venues := db.venues.updateAt 0 (fun v => { v with name := text "Masa" }) }

/-- **Whoever asks after the event is given the second load**, the event of another venue
leaves the first where it is, and a load that has failed is not handed out again. -/
theorem menu_never_stale_renamed :
    1 ≤ ((((MenuHost.init bareVenue).run [.venueMenu 0, .write rename]).run
        [.publish (.menu_changed 0)]).venueMenu 0).2
      ∧ ((MenuHost.init bareVenue).run [.venueMenu 0, .publish (.menu_changed 1)]).cache.entry 0
        = some 0
      ∧ (((MenuHost.init bareVenue).run [.venueMenu 0, .fault 0, .settle 0]).venueMenu 0).2 ≠ 0 :=
  ⟨((menu_never_stale bareVenue).1 [.venueMenu 0] [] [] rename 0).1,
    (menu_never_stale bareVenue).2.1 [.venueMenu 0] (.menu_changed 1) 0 (by decide),
    (menu_never_stale bareVenue).2.2 [.venueMenu 0, .fault 0, .settle 0] [] 0
      ⟨0, none, none, some .failed, some (.error .failed)⟩ 0 rfl rfl⟩

end Masadan
