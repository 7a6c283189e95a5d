import Mathlib.Algebra.BigOperators.Group.List.Basic
import Mathlib.Algebra.GroupWithZero.Nat
import Mathlib.Algebra.Ring.Int.Defs
import Mathlib.Data.Int.Order.Basic
import Mathlib.Data.List.Sort

/-!
# Keyed rows

A database table, as far as a program over it can tell, is a finite set of
rows that are found by their key, listed in the order they were inserted,
updated in place and removed. `Rows δ` is that and no more: a list of rows
of `δ`, each under a natural number that names it.

Keys are handed out by the table. A new row gets the first key no row ever
had, so the keys increase along the list, a key is never used twice, and the
order of two keys is the order in which their rows were created. These are
fields of the structure: a table in which two rows share a key cannot be
written down.

The operations are the four an update language has: `create`, `update`
of the rows a condition selects, `erase` of the rows a condition selects, and
reading. What each does to a lookup is one equation (`get?_create`,
`get?_update`, `get?_erase`), and a proof about a table uses these and the
membership form `get?_eq_some_iff`.
-/

/-- **A table**: rows of `δ` under increasing keys, all below the next key
to be handed out. -/
structure Rows (δ : Type) where
  /-- The rows present, oldest first. -/
  rows : List (ℕ × δ)
  /-- The key the next row will get. -/
  next : ℕ
  /-- Keys increase along the list. -/
  sorted : rows.Pairwise (fun a b => a.1 < b.1)
  /-- No row has a key that has not been handed out. -/
  bound : ∀ r ∈ rows, r.1 < next

namespace Rows

variable {δ : Type}

/-- The table with no rows, whose first key is `0`. -/
def empty : Rows δ := ⟨[], 0, List.Pairwise.nil, by simp⟩

instance : Inhabited (Rows δ) := ⟨empty⟩

/-- The row with a key, if there is one. -/
def get? (t : Rows δ) (id : ℕ) : Option δ :=
  (t.rows.find? (fun r => r.1 == id)).map Prod.snd

/-- The rows a condition selects, oldest first. -/
def filter (t : Rows δ) (p : ℕ → δ → Bool) : List (ℕ × δ) :=
  t.rows.filter (fun r => p r.1 r.2)

/-- The oldest row a condition selects. -/
def find? (t : Rows δ) (p : ℕ → δ → Bool) : Option (ℕ × δ) :=
  t.rows.find? (fun r => p r.1 r.2)

/-- How many rows a condition selects. -/
def count (t : Rows δ) (p : ℕ → δ → Bool) : ℕ := (t.filter p).length

/-- Insert a row under the next key. -/
def create (t : Rows δ) (v : δ) : Rows δ where
  rows := t.rows ++ [(t.next, v)]
  next := t.next + 1
  sorted := by
    refine List.pairwise_append.mpr ⟨t.sorted, List.pairwise_singleton _ _, ?_⟩
    intro a ha b hb
    rw [List.mem_singleton.mp hb]
    exact t.bound a ha
  bound := by
    intro r hr
    rcases List.mem_append.mp hr with h | h
    · exact Nat.lt_succ_of_lt (t.bound r h)
    · rw [List.mem_singleton.mp h]
      exact Nat.lt_succ_self _

/-- Rewrite the rows a condition selects, leaving the others as they are. -/
def update (t : Rows δ) (p : ℕ → δ → Bool) (f : δ → δ) : Rows δ where
  rows := t.rows.map (fun r => (r.1, if p r.1 r.2 then f r.2 else r.2))
  next := t.next
  sorted := List.pairwise_map.mpr t.sorted
  bound := by
    intro r hr
    obtain ⟨a, ha, rfl⟩ := List.mem_map.mp hr
    exact t.bound a ha

/-- Remove the rows a condition selects. -/
def erase (t : Rows δ) (p : ℕ → δ → Bool) : Rows δ where
  rows := t.rows.filter (fun r => !p r.1 r.2)
  next := t.next
  sorted := t.sorted.filter _
  bound := fun r hr => t.bound r (List.mem_filter.mp hr).1

/-- Insert a row for each of the values, in order. -/
def createAll (t : Rows δ) (vs : List δ) : Rows δ := vs.foldl create t

/-- The rows of the given values. -/
def ofList (vs : List δ) : Rows δ := empty.createAll vs

/-! ## Lookup and membership -/

/-- No two rows share a key. -/
theorem nodup_keys (t : Rows δ) : (t.rows.map Prod.fst).Nodup :=
  List.pairwise_map.mpr (t.sorted.imp (fun h => Nat.ne_of_lt h))

/-- **A lookup finds exactly the row under the key**, there being one row a
key. -/
theorem get?_eq_some_iff {t : Rows δ} {id : ℕ} {v : δ} :
    t.get? id = some v ↔ (id, v) ∈ t.rows := by
  unfold get?
  rw [Option.map_eq_some_iff]
  constructor
  · rintro ⟨⟨k, v'⟩, hfind, rfl⟩
    have hk : k = id := by simpa using List.find?_some hfind
    rw [← hk]
    exact List.mem_of_find?_eq_some hfind
  · intro hmem
    cases hfind : t.rows.find? (fun r => r.1 == id) with
    | none =>
      have := List.find?_eq_none.mp hfind _ hmem
      simp at this
    | some r =>
      have hk : r.1 = id := by simpa using List.find?_some hfind
      have hr := List.mem_of_find?_eq_some hfind
      -- both rows carry the key `id`, and keys do not repeat
      have hsame : r = (id, v) := List.inj_on_of_nodup_map t.nodup_keys hr hmem hk
      exact ⟨r, rfl, by rw [hsame]⟩

theorem get?_eq_none_iff {t : Rows δ} {id : ℕ} :
    t.get? id = none ↔ ∀ v, (id, v) ∉ t.rows := by
  rw [Option.eq_none_iff_forall_ne_some]
  exact forall_congr' (fun v => not_congr get?_eq_some_iff)

theorem lt_next_of_get? {t : Rows δ} {id : ℕ} {v : δ} (h : t.get? id = some v) :
    id < t.next :=
  t.bound _ (get?_eq_some_iff.mp h)

/-- The key not yet handed out names no row. -/
@[simp] theorem get?_next (t : Rows δ) : t.get? t.next = none := by
  rw [get?_eq_none_iff]
  exact fun v h => Nat.lt_irrefl _ (t.bound _ h)

@[simp] theorem get?_empty (id : ℕ) : (empty : Rows δ).get? id = none := rfl

theorem mem_filter {t : Rows δ} {p : ℕ → δ → Bool} {r : ℕ × δ} :
    r ∈ t.filter p ↔ t.get? r.1 = some r.2 ∧ p r.1 r.2 = true := by
  rw [filter, List.mem_filter, get?_eq_some_iff]

theorem find?_eq_some {t : Rows δ} {p : ℕ → δ → Bool} {r : ℕ × δ}
    (h : t.find? p = some r) : t.get? r.1 = some r.2 ∧ p r.1 r.2 = true :=
  ⟨get?_eq_some_iff.mpr (List.mem_of_find?_eq_some h), by
    simpa using List.find?_some h⟩

/-- A selection that finds nothing selects no row. -/
theorem find?_eq_none {t : Rows δ} {p : ℕ → δ → Bool} (h : t.find? p = none)
    {id : ℕ} {v : δ} (hv : t.get? id = some v) : p id v = false := by
  have := List.find?_eq_none.mp h _ (get?_eq_some_iff.mp hv)
  simpa using this

/-- A selection that counts nothing selects no row. -/
theorem count_eq_zero {t : Rows δ} {p : ℕ → δ → Bool} (h : t.count p = 0)
    {id : ℕ} {v : δ} (hv : t.get? id = some v) : p id v = false := by
  by_contra hp
  have hmem : (id, v) ∈ t.filter p := mem_filter.mpr ⟨hv, by simpa using hp⟩
  rw [List.eq_nil_of_length_eq_zero h] at hmem
  exact List.not_mem_nil hmem

/-- A selection that counts something selects a row. -/
theorem exists_of_count {t : Rows δ} {p : ℕ → δ → Bool} (h : t.count p ≠ 0) :
    ∃ id v, t.get? id = some v ∧ p id v = true := by
  obtain ⟨r, hr⟩ := List.exists_mem_of_length_pos (Nat.pos_of_ne_zero h)
  exact ⟨r.1, r.2, mem_filter.mp hr⟩

/-- A row that is selected counts. -/
theorem count_pos {t : Rows δ} {p : ℕ → δ → Bool} {id : ℕ} {v : δ} (hv : t.get? id = some v)
    (hp : p id v = true) : 0 < t.count p :=
  List.length_pos_of_mem (mem_filter.mpr ⟨hv, hp⟩ : (id, v) ∈ t.filter p)

/-- A condition that follows counts no less. -/
theorem count_mono {t : Rows δ} {p q : ℕ → δ → Bool}
    (h : ∀ id v, t.get? id = some v → p id v = true → q id v = true) : t.count p ≤ t.count q := by
  unfold count filter
  rw [← List.countP_eq_length_filter, ← List.countP_eq_length_filter]
  exact List.countP_mono_left (fun r hr => h r.1 r.2 (get?_eq_some_iff.mpr hr))

/-! ## What each operation does to a lookup -/

theorem get?_create (t : Rows δ) (v : δ) (id : ℕ) :
    (t.create v).get? id = if id = t.next then some v else t.get? id := by
  ext w
  rw [get?_eq_some_iff]
  show (id, w) ∈ t.rows ++ [(t.next, v)] ↔ _
  rw [List.mem_append, List.mem_singleton, Prod.mk.injEq]
  by_cases hid : id = t.next
  · subst hid
    rw [if_pos rfl, ← get?_eq_some_iff, get?_next]
    simp [eq_comm]
  · rw [if_neg hid, get?_eq_some_iff]
    simp [hid]

/-- An insertion keeps every row that was there. -/
theorem get?_create_of_some {t : Rows δ} {v w : δ} {id : ℕ}
    (h : t.get? id = some w) : (t.create v).get? id = some w := by
  rw [get?_create, if_neg (Nat.ne_of_lt (lt_next_of_get? h)), h]

@[simp] theorem get?_create_next (t : Rows δ) (v : δ) :
    (t.create v).get? t.next = some v := by
  rw [get?_create, if_pos rfl]

/-- Inserting several rows keeps every row that was there. -/
theorem get?_createAll_of_some {t : Rows δ} {vs : List δ} {w : δ} {id : ℕ}
    (h : t.get? id = some w) : (t.createAll vs).get? id = some w := by
  induction vs generalizing t with
  | nil => exact h
  | cons v vs ih => exact ih (get?_create_of_some h)

/-- A row after several insertions was there, or is one of the new ones. -/
theorem get?_createAll {t : Rows δ} {vs : List δ} {w : δ} {id : ℕ}
    (h : (t.createAll vs).get? id = some w) : t.get? id = some w ∨ w ∈ vs := by
  induction vs generalizing t with
  | nil => exact .inl h
  | cons v vs ih =>
    rcases ih h with h' | h'
    · rw [get?_create] at h'
      by_cases hid : id = t.next
      · rw [if_pos hid] at h'
        cases h'
        exact .inr List.mem_cons_self
      · rw [if_neg hid] at h'
        exact .inl h'
    · exact .inr (List.mem_cons_of_mem _ h')

/-- Each of the values inserted is a row. -/
theorem exists_get?_createAll {t : Rows δ} {vs : List δ} {v : δ} (h : v ∈ vs) :
    ∃ id, (t.createAll vs).get? id = some v := by
  induction vs generalizing t with
  | nil => exact absurd h List.not_mem_nil
  | cons v' vs ih =>
    rcases List.mem_cons.mp h with rfl | h
    · exact ⟨t.next, get?_createAll_of_some (t := t.create v) (get?_create_next t v)⟩
    · exact ih h

@[simp] theorem get?_update (t : Rows δ) (p : ℕ → δ → Bool) (f : δ → δ) (id : ℕ) :
    (t.update p f).get? id
      = (t.get? id).map (fun v => if p id v then f v else v) := by
  ext w
  rw [get?_eq_some_iff, Option.map_eq_some_iff]
  show (id, w) ∈ t.rows.map _ ↔ _
  rw [List.mem_map]
  constructor
  · rintro ⟨⟨k, v⟩, hmem, heq⟩
    obtain ⟨rfl, rfl⟩ := Prod.mk.inj heq
    exact ⟨v, get?_eq_some_iff.mpr hmem, rfl⟩
  · rintro ⟨v, hv, rfl⟩
    exact ⟨(id, v), get?_eq_some_iff.mp hv, rfl⟩

theorem get?_update_of_some {t : Rows δ} {v : δ} {id : ℕ} (h : t.get? id = some v)
    (p : ℕ → δ → Bool) (f : δ → δ) :
    (t.update p f).get? id = some (if p id v then f v else v) := by
  rw [get?_update, h]
  rfl

theorem get?_erase (t : Rows δ) (p : ℕ → δ → Bool) (id : ℕ) :
    (t.erase p).get? id = (t.get? id).filter (fun v => !p id v) := by
  ext w
  rw [get?_eq_some_iff, Option.filter_eq_some_iff, get?_eq_some_iff]
  exact List.mem_filter

@[simp] theorem next_create (t : Rows δ) (v : δ) : (t.create v).next = t.next + 1 := rfl

@[simp] theorem next_update (t : Rows δ) (p : ℕ → δ → Bool) (f : δ → δ) :
    (t.update p f).next = t.next := rfl

@[simp] theorem next_erase (t : Rows δ) (p : ℕ → δ → Bool) :
    (t.erase p).next = t.next := rfl

/-- Updating the rows of one key. -/
def updateAt (t : Rows δ) (id : ℕ) (f : δ → δ) : Rows δ :=
  t.update (fun k _ => k == id) f

theorem get?_updateAt (t : Rows δ) (id : ℕ) (f : δ → δ) (k : ℕ) :
    (t.updateAt id f).get? k
      = (t.get? k).map (fun v => if k = id then f v else v) := by
  rw [updateAt, get?_update]
  simp only [beq_iff_eq]

/-- **What is found is the oldest of what is looked for.** -/
theorem find?_eq_some_iff {t : Rows δ} {p : ℕ → δ → Bool} {id : ℕ} {v : δ} :
    t.find? p = some (id, v) ↔ t.get? id = some v ∧ p id v = true
      ∧ ∀ k u, t.get? k = some u → p k u = true → id ≤ k := by
  have hleast : ∀ r, t.find? p = some r → ∀ k u, t.get? k = some u → p k u = true → r.1 ≤ k := by
    intro r hr k u hu hk
    obtain ⟨_, as, bs, hrows, hbefore⟩ := List.find?_eq_some_iff_append.mp hr
    have hmem := get?_eq_some_iff.mp hu
    rw [hrows] at hmem
    rcases List.mem_append.mp hmem with h | h
    · have hnot := hbefore _ h
      rw [hk] at hnot
      cases hnot
    · rcases List.mem_cons.mp h with rfl | h
      · exact le_refl _
      · have hsorted := t.sorted
        rw [hrows] at hsorted
        exact Nat.le_of_lt ((List.pairwise_cons.mp (List.pairwise_append.mp hsorted).2.1).1 _ h)
  constructor
  · intro h
    obtain ⟨hget, hp⟩ := find?_eq_some h
    exact ⟨hget, hp, hleast _ h⟩
  · rintro ⟨hget, hp, hmin⟩
    cases hfind : t.find? p with
    | none => exact absurd hp (ne_true_of_eq_false (find?_eq_none hfind hget))
    | some r =>
      obtain ⟨hrow, hr⟩ := find?_eq_some hfind
      have hid : r.1 = id := Nat.le_antisymm (hleast r hfind id v hget hp) (hmin r.1 r.2 hrow hr)
      rw [hid, hget] at hrow
      rw [← hid, Option.some.inj hrow]

/-! ## Two tables compared -/

/-- A row is found where it was, when what it is looked for by stays. -/
theorem find?_updateAt {t : Rows δ} {id : ℕ} {v : δ} {p : ℕ → δ → Bool}
    (f : δ → δ) (hp : ∀ k u, p k (f u) = p k u) (h : t.find? p = some (id, v)) :
    (t.updateAt id f).find? p = some (id, f v) := by
  obtain ⟨hget, hv, hleast⟩ := find?_eq_some_iff.mp h
  refine find?_eq_some_iff.mpr ⟨?_, (hp id v).trans hv, fun k u hu hk => ?_⟩
  · rw [get?_updateAt, hget]
    exact congrArg some (if_pos rfl)
  · rw [get?_updateAt] at hu
    obtain ⟨u', hu', rfl⟩ := Option.map_eq_some_iff.mp hu
    refine hleast k u' hu' ?_
    split at hk
    · rwa [hp] at hk
    · exact hk

/-- **A table is known by its lookups**, as far as its rows go: a table whose
lookups are another's, each value changed by `g`, has its rows, each changed
by `g`. -/
theorem rows_eq_map {t t' : Rows δ} {g : ℕ → δ → δ}
    (h : ∀ id, t'.get? id = (t.get? id).map (g id)) :
    t'.rows = t.rows.map (fun r => (r.1, g r.1 r.2)) := by
  have hirrefl : Std.Irrefl (fun a b : ℕ × δ => a.1 < b.1) := ⟨fun a => Nat.lt_irrefl a.1⟩
  have hanti : Std.Antisymm (fun a b : ℕ × δ => a.1 < b.1) :=
    ⟨fun a b hab hba => absurd hab (Nat.lt_asymm hba)⟩
  refine t'.sorted.eq_of_mem_iff (List.pairwise_map.mpr t.sorted) (fun r => ?_)
  show (r.1, r.2) ∈ t'.rows ↔ _
  rw [← get?_eq_some_iff, h, Option.map_eq_some_iff, List.mem_map]
  constructor
  · rintro ⟨v, hv, hr⟩
    exact ⟨(r.1, v), get?_eq_some_iff.mp hv, Prod.ext rfl hr⟩
  · rintro ⟨⟨id, v⟩, hv, rfl⟩
    exact ⟨v, get?_eq_some_iff.mpr hv, rfl⟩

/-- Selections of rows under the same keys. -/
theorem filter_keys_eq {δ' : Type} {t : Rows δ} {t' : Rows δ'} {p : ℕ → δ → Bool}
    {q : ℕ → δ' → Bool} (h : ∀ k, (∃ v, t.get? k = some v ∧ p k v = true)
      ↔ ∃ v, t'.get? k = some v ∧ q k v = true) :
    (t.filter p).map Prod.fst = (t'.filter q).map Prod.fst := by
  have hirrefl : Std.Irrefl (fun a b : ℕ => a < b) := ⟨Nat.lt_irrefl⟩
  have hanti : Std.Antisymm (fun a b : ℕ => a < b) :=
    ⟨fun a b hab hba => absurd hab (Nat.lt_asymm hba)⟩
  refine (List.pairwise_map.mpr (t.sorted.filter _)).eq_of_mem_iff
    (List.pairwise_map.mpr (t'.sorted.filter _)) (fun k => ?_)
  have hmem : ∀ {ε : Type} (u : Rows ε) (s : ℕ → ε → Bool),
      k ∈ (u.filter s).map Prod.fst ↔ ∃ v, u.get? k = some v ∧ s k v = true := by
    intro ε u s
    rw [List.mem_map]
    constructor
    · rintro ⟨⟨k', v⟩, hr, rfl⟩
      exact ⟨v, mem_filter.mp hr⟩
    · rintro ⟨v, hv⟩
      exact ⟨(k, v), mem_filter.mpr hv, rfl⟩
  exact (hmem t p).trans ((h k).trans (hmem t' q).symm)

/-- What selects the same rows before and after selects as many. -/
theorem count_of_get? {t t' : Rows δ} {g : ℕ → δ → δ}
    (h : ∀ id, t'.get? id = (t.get? id).map (g id)) {p : ℕ → δ → Bool}
    (hp : ∀ id v, p id (g id v) = p id v) : t'.count p = t.count p := by
  unfold count filter
  rw [rows_eq_map h, List.filter_map, List.length_map]
  exact congrArg List.length (List.filter_congr (fun r _ => hp r.1 r.2))

theorem count_updateAt {t : Rows δ} {id : ℕ} {f : δ → δ} {p : ℕ → δ → Bool}
    (h : ∀ k v, p k (f v) = p k v) : (t.updateAt id f).count p = t.count p :=
  count_of_get? (get?_updateAt t id f) (fun k v => by
    by_cases hk : k = id
    · rw [if_pos hk, h]
    · rw [if_neg hk])

/-- An insertion counts if what is inserted is selected. -/
theorem count_create (t : Rows δ) (v : δ) (p : ℕ → δ → Bool) :
    (t.create v).count p = t.count p + if p t.next v then 1 else 0 := by
  unfold count filter create
  rw [List.filter_append, List.length_append]
  by_cases hv : p t.next v = true
  · rw [List.filter_cons, if_pos hv, if_pos hv]
    rfl
  · rw [List.filter_cons, if_neg hv, if_neg hv]
    rfl

/-- Insertions count if what is inserted is selected. -/
theorem count_createAll (t : Rows δ) (vs : List δ) (p : δ → Bool) :
    (t.createAll vs).count (fun _ v => p v) = t.count (fun _ v => p v) + vs.countP p := by
  induction vs generalizing t with
  | nil => rfl
  | cons v vs ih =>
    show ((t.create v).createAll vs).count (fun _ v => p v) = _
    rw [ih, count_create, List.countP_cons]
    omega

/-- Where the rows that are changed are selected no more, those selected were selected
before. -/
theorem filter_update_sublist {t : Rows δ} {p q : ℕ → δ → Bool} {f : δ → δ}
    (h : ∀ id v, p id v = true → q id (f v) = false) :
    ((t.update p f).filter q).Sublist (t.filter q) := by
  unfold filter update
  dsimp only
  induction t.rows with
  | nil => exact List.Sublist.refl _
  | cons r rs ih =>
    rw [List.map_cons]
    by_cases hr : p r.1 r.2 = true
    · rw [if_pos hr, List.filter_cons_of_neg (by simp [h r.1 r.2 hr])]
      exact ih.trans (List.Sublist.filter _ (List.sublist_cons_self r rs))
    · rw [if_neg hr, List.filter_cons, List.filter_cons]
      split
      · exact ih.cons_cons _
      · exact ih

/-- A removal takes rows from what is selected. -/
theorem filter_erase (t : Rows δ) (p q : ℕ → δ → Bool) :
    (t.erase p).filter q = (t.filter q).filter (fun r => !p r.1 r.2) :=
  List.filter_comm _ _ _

/-- An insertion is selected last. -/
theorem filter_create (t : Rows δ) (v : δ) (q : ℕ → δ → Bool) :
    (t.create v).filter q = t.filter q ++ if q t.next v then [(t.next, v)] else [] := by
  unfold filter create
  rw [List.filter_append, List.filter_cons, List.filter_nil]

/-- An insertion of what is not selected. -/
theorem filter_create_other {t : Rows δ} {v : δ} {q : ℕ → δ → Bool} (h : q t.next v = false) :
    (t.create v).filter q = t.filter q := by
  rw [filter_create, h, if_neg Bool.false_ne_true, List.append_nil]

/-- Insertions of what is not selected. -/
theorem filter_createAll_other {t : Rows δ} {vs : List δ} {q : ℕ → δ → Bool}
    (h : ∀ id, ∀ v ∈ vs, q id v = false) : (t.createAll vs).filter q = t.filter q := by
  induction vs generalizing t with
  | nil => rfl
  | cons v vs ih =>
    show ((t.create v).createAll vs).filter q = _
    rw [ih (fun id u hu => h id u (List.mem_cons_of_mem _ hu)),
      filter_create_other (h _ v List.mem_cons_self)]

/-- The rows' values, after insertions. -/
theorem values_createAll (t : Rows δ) (vs : List δ) :
    (t.createAll vs).rows.map Prod.snd = t.rows.map Prod.snd ++ vs := by
  induction vs generalizing t with
  | nil => exact (List.append_nil _).symm
  | cons v vs ih =>
    show ((t.create v).createAll vs).rows.map Prod.snd = _
    rw [ih]
    show (t.rows ++ [(t.next, v)]).map Prod.snd ++ vs = _
    rw [List.map_append, List.append_assoc]
    rfl

/-- A change of rows that are selected neither before nor after. -/
theorem filter_update_other {t : Rows δ} {p q : ℕ → δ → Bool} {f : δ → δ}
    (h : ∀ id v, t.get? id = some v → p id v = true → q id v = false ∧ q id (f v) = false) :
    (t.update p f).filter q = t.filter q := by
  unfold filter update
  rw [List.filter_map]
  refine (List.map_congr_left (g := id) (fun r hr => ?_)).trans
    ((List.map_id _).trans (List.filter_congr (fun r hr => ?_)))
  · obtain ⟨hmem, hq⟩ := List.mem_filter.mp hr
    by_cases hp : p r.1 r.2 = true
    · have hnot := (h r.1 r.2 (get?_eq_some_iff.mpr hmem) hp).2
      rw [Function.comp_apply, if_pos hp, hnot] at hq
      cases hq
    · exact Prod.ext rfl (if_neg hp)
  · rw [Function.comp_apply]
    by_cases hp : p r.1 r.2 = true
    · obtain ⟨hbefore, hafter⟩ := h r.1 r.2 (get?_eq_some_iff.mpr hr) hp
      rw [if_pos hp, hbefore, hafter]
    · rw [if_neg hp]

/-- A removal of rows that are not selected. -/
theorem filter_erase_other {t : Rows δ} {p q : ℕ → δ → Bool}
    (h : ∀ id v, t.get? id = some v → q id v = true → p id v = false) :
    (t.erase p).filter q = t.filter q := by
  rw [filter_erase, List.filter_eq_self]
  intro r hr
  obtain ⟨hget, hq⟩ := mem_filter.mp hr
  rw [h r.1 r.2 hget hq]
  rfl

/-! ## Totals -/

/-- What the rows come to, each counted as `f` says. -/
def total (t : Rows δ) (f : ℕ → δ → ℤ) : ℤ := (t.rows.map (fun r => f r.1 r.2)).sum

/-- The selected rows come to what all rows do when the others count for
nothing. -/
theorem sum_filter (t : Rows δ) (p : ℕ → δ → Bool) (f : ℕ → δ → ℤ) :
    ((t.filter p).map (fun r => f r.1 r.2)).sum
      = t.total (fun id v => if p id v then f id v else 0) := by
  unfold filter total
  induction t.rows with
  | nil => rfl
  | cons r rs ih =>
    rw [List.map_cons, List.sum_cons, ← ih]
    dsimp only
    by_cases hr : p r.1 r.2 = true
    · rw [List.filter_cons, if_pos hr, if_pos hr, List.map_cons, List.sum_cons]
    · rw [List.filter_cons, if_neg hr, if_neg hr, zero_add]

theorem total_congr {t : Rows δ} {f g : ℕ → δ → ℤ}
    (h : ∀ id v, t.get? id = some v → f id v = g id v) : t.total f = t.total g := by
  unfold total
  rw [List.map_congr_left (fun r hr => h r.1 r.2 (get?_eq_some_iff.mpr hr))]

theorem total_zero {t : Rows δ} {f : ℕ → δ → ℤ}
    (h : ∀ id v, t.get? id = some v → f id v = 0) : t.total f = 0 := by
  rw [total_congr (g := fun _ _ => 0) h]
  exact List.sum_eq_zero (by simp)

/-- The total of a table whose values were changed by `g`. -/
theorem total_of_get? {t t' : Rows δ} {g : ℕ → δ → δ}
    (h : ∀ id, t'.get? id = (t.get? id).map (g id)) (f : ℕ → δ → ℤ) :
    t'.total f = t.total (fun id v => f id (g id v)) := by
  unfold total
  rw [rows_eq_map h, List.map_map]
  rfl

/-- A change of one row changes the total by what that row counts. -/
theorem total_update_one {t : Rows δ} {p : ℕ → δ → Bool} {f : δ → δ} {id : ℕ} {v : δ}
    (hv : t.get? id = some v) (hp : p id v = true) (hone : ∀ k u, p k u = true → k = id)
    (g : ℕ → δ → ℤ) : (t.update p f).total g = t.total g - g id v + g id (f v) := by
  obtain ⟨as, bs, hrows⟩ := List.append_of_mem (get?_eq_some_iff.mp hv)
  have hnodup := t.nodup_keys
  rw [hrows, List.map_append, List.map_cons] at hnodup
  have hnot := (List.nodup_middle.mp hnodup).notMem
  -- the other rows are not selected
  have hother : ∀ r ∈ as ++ bs, g r.1 (if p r.1 r.2 then f r.2 else r.2) = g r.1 r.2 := by
    intro r hr
    rw [if_neg]
    intro hsel
    refine hnot ?_
    rw [← List.map_append]
    exact List.mem_map.mpr ⟨r, hr, hone _ _ hsel⟩
  have has := List.map_congr_left (fun r hr => hother r (List.mem_append_left _ hr))
  have hbs := List.map_congr_left (fun r hr => hother r (List.mem_append_right _ hr))
  unfold total update
  dsimp only
  rw [List.map_map, hrows, List.map_append, List.map_append, List.map_cons, List.map_cons,
    List.sum_append, List.sum_append, List.sum_cons, List.sum_cons]
  simp only [Function.comp_def]
  rw [has, hbs, if_pos hp]
  omega

@[simp] theorem total_create (t : Rows δ) (v : δ) (f : ℕ → δ → ℤ) :
    (t.create v).total f = t.total f + f t.next v := by
  unfold total create
  rw [List.map_append, List.sum_append]
  simp

theorem total_createAll (t : Rows δ) (vs : List δ) (f : δ → ℤ) :
    (t.createAll vs).total (fun _ => f) = t.total (fun _ => f) + (vs.map f).sum := by
  induction vs generalizing t with
  | nil => simp [createAll]
  | cons v vs ih =>
    show ((t.create v).createAll vs).total _ = _
    rw [ih, total_create, List.map_cons, List.sum_cons, add_assoc]

end Rows
