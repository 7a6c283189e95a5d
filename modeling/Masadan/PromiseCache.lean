import Mathlib.Data.List.Basic

/-!
# A cache of loads

What is cached is not a value but the promise of a load that may still be under way. The loads
are numbered as they start, so that a load knows nothing of what was there after it started is
a statement about numbers: whoever asks after an entry was dropped is given a load that was not
there when it was dropped, or started by somebody since (`get_since`), however many loads of
before are still under way and whatever becomes of them.

`key` is what a load is of, `bad` says that it has failed.
-/

/-- **A cache of loads**: the load each key's entry is, and the loads there have been. -/
structure PromiseCache (K L : Type*) where
  entry : K → Option ℕ
  loads : List L

namespace PromiseCache

variable {K L : Type*}

/-- A load goes on. -/
def step (c : PromiseCache K L) (i : ℕ) (f : L → L) : PromiseCache K L :=
  { c with loads := c.loads.modify i f }

/-- **A key's entry is not older** than the load of a number. -/
def Since (n : ℕ) (k : K) (c : PromiseCache K L) : Prop := ∀ i, c.entry k = some i → n ≤ i

theorem Since.step {c : PromiseCache K L} {n i : ℕ} {k : K} {f : L → L} (h : Since n k c) :
    Since n k (c.step i f) := h

@[simp] theorem length_step {c : PromiseCache K L} {i : ℕ} {f : L → L} :
    (c.step i f).loads.length = c.loads.length := List.length_modify _ _ _

theorem step_loads {c : PromiseCache K L} {i j : ℕ} {f : L → L} :
    (c.step i f).loads[j]? = (c.loads[j]?).map (fun l => if i = j then f l else l) :=
  List.getElem?_modify _ _ _ _

variable [DecidableEq K]

/-- A key's promise; without an entry, a load is started and cached. -/
def get (c : PromiseCache K L) (k : K) (load : L) : PromiseCache K L × ℕ :=
  match c.entry k with
  | some i => (c, i)
  | none =>
    (⟨fun j => if j = k then some c.loads.length else c.entry j, c.loads ++ [load]⟩, c.loads.length)

/-- Without the entry of a key. -/
def drop (c : PromiseCache K L) (k : K) : PromiseCache K L :=
  { c with entry := fun j => if j = k then none else c.entry j }

/-! ## Who asks later is not served what is older -/

section

variable {c : PromiseCache K L} {n i : ℕ} {k j : K} {load : L}

theorem since_drop : Since n k (c.drop k) := by
  intro i hi
  dsimp only [drop] at hi
  rw [if_pos rfl] at hi
  cases hi

theorem Since.drop (h : Since n k c) : Since n k (c.drop j) := by
  intro i hi
  dsimp only [PromiseCache.drop] at hi
  split at hi
  · cases hi
  · exact h i hi

theorem Since.get (h : Since n k c) (hn : n ≤ c.loads.length) : Since n k (c.get j load).1 := by
  unfold PromiseCache.get
  split
  · exact h
  · intro i hi
    dsimp only at hi
    split at hi
    · cases hi
      exact hn
    · exact h i hi

/-- **What is handed out is not older.** -/
theorem get_since (h : Since n k c) (hn : n ≤ c.loads.length) : n ≤ (c.get k load).2 := by
  unfold PromiseCache.get
  split
  · next i hi => exact h i hi
  · exact hn

/-- There are no fewer loads later. -/
theorem length_get : c.loads.length ≤ (c.get k load).1.loads.length := by
  unfold PromiseCache.get
  split
  · exact Nat.le_refl _
  · dsimp only
    rw [List.length_append]
    exact Nat.le_add_right _ _

@[simp] theorem loads_drop : (c.drop k).loads = c.loads := rfl

/-- What is there was there, or has been started. -/
theorem get_loads_cases {l : L} (h : (c.get k load).1.loads[i]? = some l) :
    c.loads[i]? = some l ∨ c.loads.length ≤ i ∧ l = load := by
  unfold PromiseCache.get at h
  split at h
  · exact .inl h
  · dsimp only at h
    rw [List.getElem?_append] at h
    split at h
    · exact .inl h
    · next hi =>
      refine .inr ⟨Nat.le_of_not_lt hi, ?_⟩
      exact List.mem_singleton.mp (List.mem_of_getElem? h)

/-- An entry of another key stays. -/
theorem drop_other (h : k ≠ j) : (c.drop j).entry k = c.entry k := if_neg h

end

/-! ## What is cached has not failed -/

/-- **Every entry is a load of its key that has not failed.** -/
def Good (key : L → K) (bad : L → Bool) (c : PromiseCache K L) : Prop :=
  ∀ k i, c.entry k = some i → ∃ l, c.loads[i]? = some l ∧ key l = k ∧ bad l = false

section

variable {key : L → K} {bad : L → Bool} {c : PromiseCache K L} {i : ℕ} {k : K} {load l : L}
  {f : L → L}

theorem Good.drop (h : Good key bad c) : Good key bad (c.drop k) := by
  intro j i hi
  dsimp only [PromiseCache.drop] at hi
  split at hi
  · cases hi
  · exact h j i hi

theorem Good.get (h : Good key bad c) (hkey : key load = k) (hbad : bad load = false) :
    Good key bad (c.get k load).1 := by
  intro j i hi
  unfold PromiseCache.get at hi ⊢
  split at hi
  · exact h j i hi
  · dsimp only at hi ⊢
    split at hi
    · next hj =>
      cases hi
      exact ⟨load, List.getElem?_concat_length, hkey.trans hj.symm, hbad⟩
    · obtain ⟨l, hl, hjl, hgood⟩ := h j i hi
      refine ⟨l, ?_, hjl, hgood⟩
      rw [List.getElem?_append_left (List.getElem?_eq_some_iff.mp hl).1]
      exact hl

omit [DecidableEq K] in
/-- A load that goes on and does not fail. -/
theorem Good.step (h : Good key bad c) (hkey : ∀ l, key (f l) = key l)
    (hbad : ∀ l, c.loads[i]? = some l → bad l = false → bad (f l) = false) :
    Good key bad (c.step i f) := by
  intro k j hj
  obtain ⟨l, hl, hkl, hgood⟩ := h k j hj
  show ∃ l, (c.loads.modify i f)[j]? = some l ∧ _
  rw [List.getElem?_modify, hl]
  refine ⟨if i = j then f l else l, rfl, ?_⟩
  by_cases hij : i = j
  · subst hij
    rw [if_pos rfl]
    exact ⟨(hkey l).trans hkl, hbad l hl hgood⟩
  · rw [if_neg hij]
    exact ⟨hkl, hgood⟩

/-- **A load that fails**, and the entry of its key goes with it, whichever load that is. -/
theorem Good.fail (h : Good key bad c) (hl : c.loads[i]? = some l) :
    Good key bad ((c.step i f).drop (key l)) := by
  intro k j hj
  dsimp only [PromiseCache.drop] at hj ⊢
  split at hj
  · cases hj
  · next hk =>
    obtain ⟨l', hl', hkl, hgood⟩ := h k j hj
    show ∃ l, (c.loads.modify i f)[j]? = some l ∧ _
    rw [List.getElem?_modify, hl']
    have hij : i ≠ j := by
      rintro rfl
      obtain rfl : l = l' := Option.some.inj (hl.symm.trans hl')
      exact hk hkl.symm
    refine ⟨if i = j then f l' else l', rfl, ?_⟩
    rw [if_neg hij]
    exact ⟨hkl, hgood⟩

/-- What is handed out is a load of the key. -/
theorem get_key (h : Good key bad c) (hkey : key load = k) :
    ∃ l, (c.get k load).1.loads[(c.get k load).2]? = some l ∧ key l = k := by
  unfold PromiseCache.get
  split
  · next i hi =>
    obtain ⟨l, hl, hkl, _⟩ := h k i hi
    exact ⟨l, hl, hkl⟩
  · exact ⟨load, List.getElem?_concat_length, hkey⟩

/-- **Nobody is handed a load that has failed.** -/
theorem get_not_bad (h : Good key bad c) (hl : c.loads[i]? = some l) (hbad : bad l = true) :
    (c.get k load).2 ≠ i := by
  unfold PromiseCache.get
  split
  · next j hj =>
    rintro rfl
    obtain ⟨l', hl', _, hgood⟩ := h k j hj
    obtain rfl : l = l' := Option.some.inj (hl.symm.trans hl')
    rw [hbad] at hgood
    cases hgood
  · rintro rfl
    exact absurd (List.getElem?_eq_some_iff.mp hl).1 (Nat.lt_irrefl _)

end

end PromiseCache
