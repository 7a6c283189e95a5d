import Masadan.Rows

/-!
# What becomes of a table

Two things are worth knowing of a table before and after a change. One is what became of
its rows: `t.Follows R t'` says that the rows of `t'` are rows of `t`, each changed as `R`
allows, and rows that are new – whose keys `t` had not handed out. It is transitive when
`R` is, so it holds between any two moments of a run if every step keeps it, and it says
that a key never comes to stand for another row. That no row goes away is a fact of its
own, `t.Stays t'`.

The other is which rows a change touched at all: `t.Differs t' id v` says that `v` is the
row under `id` before or after, and that what stands under `id` is not the same before and
after. A bound on these rows bounds what the change did.

Each operation on a table has one lemma for each of the three.
-/

namespace Rows

variable {δ : Type} {R : δ → δ → Prop} {t t' t'' : Rows δ}

/-! ## Rows that follow rows -/

/-- **What became of the rows**: those there now were there before, as `R` allows, or
are new. -/
structure Follows (R : δ → δ → Prop) (t t' : Rows δ) : Prop where
  /-- Keys that were handed out stay handed out. -/
  next : t.next ≤ t'.next
  /-- A row there now was there before, or is new. -/
  origin : ∀ id v', t'.get? id = some v' → (∃ v, t.get? id = some v ∧ R v v') ∨ t.next ≤ id

/-- **No row has gone.** -/
def Stays (t t' : Rows δ) : Prop := ∀ id v, t.get? id = some v → ∃ v', t'.get? id = some v'

theorem Follows.refl (hR : ∀ v, R v v) (t : Rows δ) : t.Follows R t :=
  ⟨le_refl _, fun _ v hv => .inl ⟨v, hv, hR v⟩⟩

theorem Follows.of_eq (hR : ∀ v, R v v) (h : t' = t) : t.Follows R t' :=
  h ▸ Follows.refl hR t

/-- **Two changes make one.** -/
theorem Follows.trans (hR : ∀ {a b c}, R a b → R b c → R a c) (h : t.Follows R t')
    (h' : t'.Follows R t'') : t.Follows R t'' := by
  refine ⟨h.next.trans h'.next, fun id v'' hv'' => ?_⟩
  rcases h'.origin id v'' hv'' with ⟨v', hv', hstep'⟩ | hnew
  · rcases h.origin id v' hv' with ⟨v, hv, hstep⟩ | hnew
    · exact .inl ⟨v, hv, hR hstep hstep'⟩
    · exact .inr hnew
  · exact .inr (h.next.trans hnew)

/-- **A row that was there and is there is the same row.** -/
theorem Follows.same (h : t.Follows R t') {id : ℕ} {v v' : δ} (hv : t.get? id = some v)
    (hv' : t'.get? id = some v') : R v v' := by
  rcases h.origin id v' hv' with ⟨u, hu, hstep⟩ | hnew
  · rw [hv] at hu
    cases hu
    exact hstep
  · exact absurd (lt_next_of_get? hv) (Nat.not_lt.mpr hnew)

theorem Stays.refl (t : Rows δ) : t.Stays t := fun _ v hv => ⟨v, hv⟩

theorem Stays.of_eq (h : t' = t) : t.Stays t' := h ▸ Stays.refl t

theorem Stays.trans (h : t.Stays t') (h' : t'.Stays t'') : t.Stays t'' :=
  fun id v hv => let ⟨v', hv'⟩ := h id v hv; h' id v' hv'

/-- A row that stays is found again, as `R` allows. -/
theorem Follows.found (h : t.Follows R t') (hs : t.Stays t') {id : ℕ} {v : δ}
    (hv : t.get? id = some v) : ∃ v', t'.get? id = some v' ∧ R v v' := by
  obtain ⟨v', hv'⟩ := hs id v hv
  exact ⟨v', hv', h.same hv hv'⟩

section

variable (hR : ∀ v, R v v)
include hR

theorem follows_create (t : Rows δ) (v : δ) : t.Follows R (t.create v) := by
  refine ⟨Nat.le_succ _, fun id v' hv' => ?_⟩
  rw [get?_create] at hv'
  split at hv'
  · next h => exact .inr (Nat.le_of_eq h.symm)
  · exact .inl ⟨v', hv', hR v'⟩

theorem follows_createAll (hT : ∀ {a b c}, R a b → R b c → R a c) (t : Rows δ) (vs : List δ) :
    t.Follows R (t.createAll vs) := by
  induction vs generalizing t with
  | nil => exact Follows.refl hR t
  | cons v vs ih => exact (follows_create hR t v).trans hT (ih (t.create v))

theorem follows_update {p : ℕ → δ → Bool} {f : δ → δ}
    (hf : ∀ id v, t.get? id = some v → p id v = true → R v (f v)) :
    t.Follows R (t.update p f) := by
  refine ⟨le_refl _, fun id v' hv' => ?_⟩
  rw [get?_update] at hv'
  obtain ⟨v, hv, rfl⟩ := Option.map_eq_some_iff.mp hv'
  refine .inl ⟨v, hv, ?_⟩
  split
  · next hp => exact hf id v hv hp
  · exact hR v

theorem follows_erase (t : Rows δ) (p : ℕ → δ → Bool) : t.Follows R (t.erase p) := by
  refine ⟨le_refl _, fun id v' hv' => ?_⟩
  rw [get?_erase] at hv'
  exact .inl ⟨v', (Option.filter_eq_some_iff.mp hv').1, hR v'⟩

end

theorem stays_create (t : Rows δ) (v : δ) : t.Stays (t.create v) :=
  fun _ u hu => ⟨u, get?_create_of_some hu⟩

theorem stays_createAll (t : Rows δ) (vs : List δ) : t.Stays (t.createAll vs) :=
  fun _ u hu => ⟨u, get?_createAll_of_some hu⟩

theorem stays_update (t : Rows δ) (p : ℕ → δ → Bool) (f : δ → δ) : t.Stays (t.update p f) :=
  fun id v hv => ⟨if p id v then f v else v, by rw [get?_update, hv]; rfl⟩

theorem stays_updateAt (t : Rows δ) (id : ℕ) (f : δ → δ) : t.Stays (t.updateAt id f) :=
  fun k v hv => ⟨if k = id then f v else v, by rw [get?_updateAt, hv]; rfl⟩

/-- An updated row was there before. -/
theorem of_update {p : ℕ → δ → Bool} {f : δ → δ} {id : ℕ} {v : δ}
    (h : (t.update p f).get? id = some v) : ∃ u, t.get? id = some u := by
  rw [get?_update] at h
  obtain ⟨u, hu, _⟩ := Option.map_eq_some_iff.mp h
  exact ⟨u, hu⟩

/-- So was one that was not erased. -/
theorem of_erase {p : ℕ → δ → Bool} {id : ℕ} {v : δ} (h : (t.erase p).get? id = some v) :
    t.get? id = some v ∧ p id v = false := by
  rw [get?_erase, Option.filter_eq_some_iff] at h
  exact ⟨h.1, by simpa using h.2⟩

/-! ## Rows that differ -/

/-- **A row that is not the same before and after**: as it was, or as it is. -/
def Differs (t t' : Rows δ) (id : ℕ) (v : δ) : Prop :=
  (t.get? id = some v ∨ t'.get? id = some v) ∧ t.get? id ≠ t'.get? id

theorem not_differs (t : Rows δ) {id : ℕ} {v : δ} : ¬ t.Differs t id v := fun h => h.2 rfl

theorem Differs.of_eq {id : ℕ} {v : δ} (h : t.Differs t' id v) (heq : t' = t) : False :=
  not_differs t (heq ▸ h)

/-- A row that differs after two changes differs over one of them. -/
theorem Differs.split {id : ℕ} {v : δ} (h : t.Differs t'' id v) :
    t.Differs t' id v ∨ t'.Differs t'' id v := by
  obtain ⟨hrow, hne⟩ := h
  by_cases heq : t.get? id = t'.get? id
  · rw [heq] at hrow hne
    exact .inr ⟨hrow, hne⟩
  · rcases hrow with hv | hv''
    · exact .inl ⟨.inl hv, heq⟩
    · by_cases heq' : t'.get? id = t''.get? id
      · exact .inl ⟨.inr (heq'.trans hv''), heq⟩
      · exact .inr ⟨.inr hv'', heq'⟩

/-- An insertion touches the row it inserts. -/
theorem differs_create {v u : δ} {id : ℕ} (h : t.Differs (t.create v) id u) :
    id = t.next ∧ u = v := by
  obtain ⟨hrow, hne⟩ := h
  rw [get?_create] at hrow hne
  by_cases hid : id = t.next
  · rw [if_pos hid] at hrow
    refine ⟨hid, ?_⟩
    rcases hrow with hrow | hrow
    · rw [hid, get?_next] at hrow
      cases hrow
    · exact (Option.some.inj hrow).symm
  · rw [if_neg hid] at hne
    exact absurd rfl hne

/-- Insertions touch the rows they insert. -/
theorem differs_createAll {vs : List δ} {u : δ} {id : ℕ} (h : t.Differs (t.createAll vs) id u) :
    u ∈ vs := by
  obtain ⟨hrow, hne⟩ := h
  have hnone : t.get? id = none := by
    cases hold : t.get? id with
    | none => rfl
    | some v =>
      rw [hold, get?_createAll_of_some hold] at hne
      exact absurd rfl hne
  rcases hrow with hrow | hrow
  · rw [hnone] at hrow
    cases hrow
  · rcases get?_createAll hrow with hold | hnew
    · rw [hnone] at hold
      cases hold
    · exact hnew

/-- An update touches the rows its condition selects. -/
theorem differs_update {p : ℕ → δ → Bool} {f : δ → δ} {u : δ} {id : ℕ}
    (h : t.Differs (t.update p f) id u) :
    ∃ v, t.get? id = some v ∧ p id v = true ∧ (u = v ∨ u = f v) := by
  obtain ⟨hrow, hne⟩ := h
  rw [get?_update] at hrow hne
  cases hv : t.get? id with
  | none =>
    rw [hv] at hne
    exact absurd rfl hne
  | some v =>
    rw [hv, Option.map_some] at hrow hne
    by_cases hp : p id v = true
    · rw [if_pos hp] at hrow
      refine ⟨v, rfl, hp, hrow.imp (fun h => (Option.some.inj h).symm)
        (fun h => (Option.some.inj h).symm)⟩
    · rw [if_neg hp] at hne
      exact absurd rfl hne

theorem differs_updateAt {k : ℕ} {f : δ → δ} {u : δ} {id : ℕ}
    (h : t.Differs (t.updateAt k f) id u) :
    id = k ∧ ∃ v, t.get? k = some v ∧ (u = v ∨ u = f v) := by
  obtain ⟨v, hv, hp, hu⟩ := differs_update h
  obtain rfl : id = k := beq_iff_eq.mp hp
  exact ⟨rfl, v, hv, hu⟩

/-- A deletion touches the rows its condition selects. -/
theorem differs_erase {p : ℕ → δ → Bool} {u : δ} {id : ℕ} (h : t.Differs (t.erase p) id u) :
    t.get? id = some u ∧ p id u = true := by
  obtain ⟨hrow, hne⟩ := h
  rw [get?_erase] at hrow hne
  cases hv : t.get? id with
  | none =>
    rw [hv] at hne
    exact absurd rfl hne
  | some v =>
    rw [hv] at hrow hne
    by_cases hp : p id v = true
    · have hgone : (some v).filter (fun v => !p id v) = none := by
        simp [Option.filter, hp]
      rw [hgone] at hrow
      rcases hrow with hrow | hrow
      · cases hrow
        exact ⟨rfl, hp⟩
      · cases hrow
    · have hkept : (some v).filter (fun v => !p id v) = some v := by
        simp [Option.filter, hp]
      rw [hkept] at hne
      exact absurd rfl hne

/-- What is read of the selected rows, after a change of rows that makes no difference to
either. -/
theorem map_filter_update {γ : Type} {p q : ℕ → δ → Bool} {f : δ → δ} {g : ℕ × δ → γ}
    (h : ∀ id v, t.get? id = some v → p id v = true → q id (f v) = q id v ∧ g (id, f v) = g (id, v)) :
    ((t.update p f).filter q).map g = (t.filter q).map g := by
  have hrow : ∀ r ∈ t.rows, q r.1 (if p r.1 r.2 then f r.2 else r.2) = q r.1 r.2
      ∧ g (r.1, if p r.1 r.2 then f r.2 else r.2) = g r := by
    intro r hr
    by_cases hp : p r.1 r.2 = true
    · rw [if_pos hp]
      exact h r.1 r.2 (get?_eq_some_iff.mpr hr) hp
    · rw [if_neg hp]
      exact ⟨rfl, rfl⟩
  have hsel : t.rows.filter ((fun r => q r.1 r.2) ∘ fun r => (r.1, if p r.1 r.2 then f r.2 else r.2))
      = t.rows.filter (fun r => q r.1 r.2) := List.filter_congr (fun r hr => (hrow r hr).1)
  show ((t.rows.map (fun r => (r.1, if p r.1 r.2 then f r.2 else r.2))).filter
    (fun r => q r.1 r.2)).map g = (t.rows.filter (fun r => q r.1 r.2)).map g
  rw [List.filter_map, List.map_map, hsel]
  exact List.map_congr_left (fun r hr => (hrow r (List.mem_filter.mp hr).1).2)

/-! ## The same rows in two tables -/

/-- **Where two tables have the same rows of a kind, they have the same of any kind within
it.** -/
theorem filter_within {p p' q q' : ℕ → δ → Bool} (h : t.filter q = t'.filter q')
    (hp : ∀ id v, t.get? id = some v → p id v = true → q id v = true)
    (hp' : ∀ id v, t'.get? id = some v → p' id v = true → q' id v = true)
    (hpp' : ∀ id v, t.get? id = some v → t'.get? id = some v → p id v = p' id v) :
    t.filter p = t'.filter p' := by
  have hwithin : ∀ {t : Rows δ} {p q : ℕ → δ → Bool},
      (∀ id v, t.get? id = some v → p id v = true → q id v = true) →
      t.filter p = (t.filter q).filter (fun r => p r.1 r.2) := by
    intro t p q hpq
    unfold filter
    rw [List.filter_filter]
    refine List.filter_congr (fun r hr => ?_)
    have hget : t.get? r.1 = some r.2 := get?_eq_some_iff.mpr hr
    cases hpr : p r.1 r.2 with
    | false => rfl
    | true => exact (hpq r.1 r.2 hget hpr).symm
  rw [hwithin hp, hwithin hp', h]
  refine List.filter_congr (fun r hr => hpp' r.1 r.2 ?_ (mem_filter.mp hr).1)
  rw [← h] at hr
  exact (mem_filter.mp hr).1

/-- A row of the kind is in both. -/
theorem get?_within {q q' : ℕ → δ → Bool} (h : t.filter q = t'.filter q') {id : ℕ} {v : δ}
    (hv : t.get? id = some v) (hq : q id v = true) : t'.get? id = some v ∧ q' id v = true := by
  have hmem : (id, v) ∈ t.filter q := mem_filter.mpr ⟨hv, hq⟩
  rw [h] at hmem
  exact mem_filter.mp hmem

end Rows
