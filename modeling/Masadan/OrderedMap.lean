import Mathlib.Algebra.BigOperators.Group.List.Basic
import Mathlib.Data.List.Induction
import Mathlib.Data.List.Nodup

/-!
# Maps that keep the order of their keys

A map that is read in the order in which its keys were first set, as JavaScript's `Map` is,
is a list of entries. Two ways of filling one from a sequence of rows are worked out here. A
tally adds what each row brings to what is there under the row's key: its keys are those of the
rows, in the order of their first rows, and what is under a key is the sum over the key's rows
(`lookup_tally`), so a tally splits the sum over all rows (`sum_tally`). A map of firsts sets a
key only when it is not there, and so keeps for each key its first row (`lookup_firsts`).
-/

namespace OrderedMap

variable {κ ν ρ M : Type} [DecidableEq κ]

/-- `map.set(k, v)`: a key that is there keeps its place, and a new one comes last. -/
def set : List (κ × ν) → κ → ν → List (κ × ν)
  | [], k, v => [(k, v)]
  | (j, u) :: rest, k, v => if j = k then (j, v) :: rest else (j, u) :: set rest k v

section

variable {m : List (κ × ν)} {j k : κ} {v : ν}

theorem lookup_cons (j : κ) (u : ν) (rest : List (κ × ν)) :
    List.lookup k ((j, u) :: rest) = if k = j then some u else rest.lookup k := by
  rw [List.lookup_cons]
  by_cases h : k = j
  · rw [beq_iff_eq.mpr h, if_pos h]
  · rw [beq_false_of_ne h, if_neg h]

theorem lookup_set : (set m k v).lookup j = if j = k then some v else m.lookup j := by
  induction m with
  | nil => exact lookup_cons k v []
  | cons e rest ih =>
    obtain ⟨i, u⟩ := e
    unfold set
    by_cases hi : i = k
    · rw [if_pos hi, lookup_cons, lookup_cons, hi]
      by_cases hj : j = k
      · rw [if_pos hj, if_pos hj]
      · rw [if_neg hj, if_neg hj, if_neg hj]
    · rw [if_neg hi, lookup_cons, lookup_cons, ih]
      by_cases hj : j = i
      · rw [if_pos hj, if_pos hj, if_neg (fun h => hi (hj.symm.trans h))]
      · rw [if_neg hj, if_neg hj]

/-- The keys of a map, after one of them is set. -/
theorem keys_set : (set m k v).map Prod.fst
    = if k ∈ m.map Prod.fst then m.map Prod.fst else m.map Prod.fst ++ [k] := by
  induction m with
  | nil => exact (if_neg List.not_mem_nil).symm
  | cons e rest ih =>
    obtain ⟨i, u⟩ := e
    unfold set
    by_cases hi : i = k
    · rw [if_pos hi, if_pos (by rw [List.map_cons, hi]; exact List.mem_cons_self)]
      rfl
    · rw [if_neg hi, List.map_cons, List.map_cons, ih]
      by_cases hk : k ∈ rest.map Prod.fst
      · rw [if_pos hk, if_pos (List.mem_cons_of_mem _ hk)]
      · rw [if_neg hk, if_neg (fun h => (List.mem_cons.mp h).elim (fun h => hi h.symm) hk),
          List.cons_append]

/-- An entry of a map is what is under its key. -/
theorem lookup_of_mem {e : κ × ν} (hkeys : (m.map Prod.fst).Nodup) (h : e ∈ m) :
    m.lookup e.1 = some e.2 := by
  induction m with
  | nil => exact absurd h List.not_mem_nil
  | cons first rest ih =>
    obtain ⟨i, u⟩ := first
    obtain ⟨hnot, hrest⟩ := List.nodup_cons.mp hkeys
    rw [lookup_cons]
    rcases List.mem_cons.mp h with rfl | h
    · exact if_pos rfl
    · have hmem : e.1 ∈ rest.map Prod.fst := List.mem_map_of_mem h
      have hne : e.1 ≠ i := fun heq => hnot (heq ▸ hmem)
      exact (if_neg hne).trans (ih hrest h)

end

/-! ## The order of first occurrence -/

theorem eraseDups_concat (l : List κ) (k : κ) :
    (l ++ [k]).eraseDups = if k ∈ l then l.eraseDups else l.eraseDups ++ [k] := by
  rw [List.eraseDups_append]
  unfold List.removeAll
  by_cases hk : k ∈ l
  · rw [if_pos hk, List.filter_cons_of_neg (by simpa using hk), List.filter_nil, List.eraseDups_nil,
      List.append_nil]
  · rw [if_neg hk, List.filter_cons_of_pos (by simpa using hk), List.filter_nil]
    rfl

theorem nodup_eraseDups (l : List κ) : l.eraseDups.Nodup := by
  induction l using List.reverseRecOn with
  | nil => exact List.nodup_nil
  | append_singleton l k ih =>
    rw [eraseDups_concat]
    split
    · exact ih
    · next hk =>
      rw [List.nodup_append]
      refine ⟨ih, List.nodup_singleton k, fun a ha b hb => ?_⟩
      rintro rfl
      rw [List.mem_singleton.mp hb] at ha
      exact hk (List.mem_eraseDups.mp ha)

/-- **The elements without repetition come in the order of their first occurrences.** -/
theorem eraseDups_inOrder (l : List κ) :
    l.eraseDups.Pairwise (fun a b => l.idxOf a < l.idxOf b) := by
  induction l using List.reverseRecOn with
  | nil => exact List.Pairwise.nil
  | append_singleton l k ih =>
    have hkeep : l.eraseDups.Pairwise (fun a b => (l ++ [k]).idxOf a < (l ++ [k]).idxOf b) := by
      refine ih.imp_of_mem (fun ha hb hab => ?_)
      rw [List.idxOf_append_of_mem (List.mem_eraseDups.mp ha),
        List.idxOf_append_of_mem (List.mem_eraseDups.mp hb)]
      exact hab
    rw [eraseDups_concat]
    split
    · exact hkeep
    · next hk =>
      rw [List.pairwise_append]
      refine ⟨hkeep, List.pairwise_singleton _ _, fun a ha b hb => ?_⟩
      rw [List.mem_singleton.mp hb, List.idxOf_append_of_mem (List.mem_eraseDups.mp ha),
        List.idxOf_append_of_notMem hk]
      exact Nat.lt_of_lt_of_le (List.idxOf_lt_length_of_mem (List.mem_eraseDups.mp ha))
        (Nat.le_add_right _ _)

/-! ## Tallies -/

/-- One more under a key. -/
def add [Zero M] [Add M] (m : List (κ × M)) (k : κ) (a : M) : List (κ × M) :=
  set m k ((m.lookup k).getD 0 + a)

/-- **A tally of rows**: what each brings, by its key. -/
def tally [Zero M] [Add M] (key : ρ → κ) (f : ρ → M) (rows : List ρ) : List (κ × M) :=
  rows.foldl (fun m x => add m (key x) (f x)) []

theorem tally_concat [Zero M] [Add M] (key : ρ → κ) (f : ρ → M) (rows : List ρ) (x : ρ) :
    tally key f (rows ++ [x]) = add (tally key f rows) (key x) (f x) := by
  unfold tally
  rw [List.foldl_append, List.foldl_cons, List.foldl_nil]

theorem keys_tally [Zero M] [Add M] (key : ρ → κ) (f : ρ → M) (rows : List ρ) :
    (tally key f rows).map Prod.fst = (rows.map key).eraseDups := by
  induction rows using List.reverseRecOn with
  | nil => rfl
  | append_singleton rows x ih =>
    rw [tally_concat, List.map_append, List.map_singleton, eraseDups_concat]
    unfold add
    rw [keys_set, ih]
    refine if_congr List.mem_eraseDups rfl rfl

/-- **What is under a key is the sum over the key's rows.** -/
theorem lookup_tally [AddMonoid M] (key : ρ → κ) (f : ρ → M) (rows : List ρ) (k : κ) :
    (tally key f rows).lookup k
      = if k ∈ rows.map key then some ((rows.filter (fun x => key x = k)).map f).sum else none := by
  induction rows using List.reverseRecOn with
  | nil => rfl
  | append_singleton rows x ih =>
    rw [tally_concat]
    unfold add
    rw [lookup_set, List.map_append, List.map_singleton, List.filter_append, List.map_append,
      List.sum_append]
    by_cases hk : k = key x
    · rw [if_pos hk, if_pos (List.mem_append_right _ (hk ▸ List.mem_singleton_self _)),
        List.filter_cons_of_pos (p := fun x => decide (key x = k)) (decide_eq_true hk.symm),
        List.filter_nil, List.map_singleton, List.sum_singleton, ← hk, ih]
      split
      · rfl
      · next hnew =>
        -- a key without rows has nothing under it
        have hnone : rows.filter (fun x => key x = k) = [] :=
          List.filter_eq_nil_iff.mpr (fun y hy h =>
            hnew (List.mem_map.mpr ⟨y, hy, of_decide_eq_true h⟩))
        rw [hnone]
        rfl
    · rw [if_neg hk, ih, List.filter_cons_of_neg (by simpa using fun h => hk h.symm),
        List.filter_nil, List.map_nil, List.sum_nil, add_zero]
      exact if_congr (by simp [hk]) rfl rfl

theorem sum_add [AddCommMonoid M] (m : List (κ × M)) (k : κ) (a : M) :
    ((add m k a).map Prod.snd).sum = (m.map Prod.snd).sum + a := by
  unfold add
  induction m with
  | nil =>
    show ([(k, (0 : M) + a)].map Prod.snd).sum = _
    rw [List.map_singleton, List.sum_singleton]
    rfl
  | cons e rest ih =>
    obtain ⟨i, u⟩ := e
    rw [lookup_cons]
    unfold set
    by_cases hi : i = k
    · rw [if_pos hi, if_pos hi.symm, List.map_cons, List.map_cons, List.sum_cons, List.sum_cons]
      exact add_right_comm _ _ _
    · rw [if_neg hi, if_neg (fun h => hi h.symm), List.map_cons, List.map_cons, List.sum_cons,
        List.sum_cons, ih, add_assoc]

/-- **A tally splits the sum over all rows.** -/
theorem sum_tally [AddCommMonoid M] (key : ρ → κ) (f : ρ → M) (rows : List ρ) :
    ((tally key f rows).map Prod.snd).sum = (rows.map f).sum := by
  induction rows using List.reverseRecOn with
  | nil => rfl
  | append_singleton rows x ih =>
    rw [tally_concat, sum_add, ih, List.map_append, List.map_singleton, List.sum_append,
      List.sum_singleton]

/-- An entry of a tally. -/
theorem mem_tally [AddMonoid M] {key : ρ → κ} {f : ρ → M} {rows : List ρ} {e : κ × M}
    (h : e ∈ tally key f rows) : e.2 = ((rows.filter (fun x => key x = e.1)).map f).sum := by
  have hkeys : ((tally key f rows).map Prod.fst).Nodup := by
    rw [keys_tally]
    exact nodup_eraseDups _
  have hlookup := lookup_of_mem hkeys h
  rw [lookup_tally] at hlookup
  split at hlookup
  · exact (Option.some.inj hlookup).symm
  · cases hlookup

/-! ## Firsts -/

/-- **The first row of each key**, as far as `val` tells it. -/
def firsts (key : ρ → κ) (val : ρ → ν) (rows : List ρ) : List (κ × ν) :=
  rows.foldl (fun m x => if (m.lookup (key x)).isSome then m else set m (key x) (val x)) []

theorem lookup_firsts (key : ρ → κ) (val : ρ → ν) (rows : List ρ) (k : κ) :
    (firsts key val rows).lookup k = (rows.find? (fun x => key x = k)).map val := by
  induction rows using List.reverseRecOn with
  | nil => rfl
  | append_singleton rows x ih =>
    unfold firsts at ih ⊢
    rw [List.foldl_append, List.foldl_cons, List.foldl_nil, List.find?_append, Option.map_or, ← ih]
    generalize List.foldl _ [] rows = m
    by_cases hx : (m.lookup (key x)).isSome = true
    · rw [if_pos hx]
      by_cases hk : key x = k
      · rw [← hk, Option.or_of_isSome hx]
      · rw [List.find?_cons_of_neg (by simpa using hk), List.find?_nil, Option.map_none,
          Option.or_none]
    · rw [if_neg hx, lookup_set]
      by_cases hk : k = key x
      · rw [if_pos hk, List.find?_cons_of_pos (p := fun x => decide (key x = k))
          (decide_eq_true hk.symm), hk,
          Option.not_isSome_iff_eq_none.mp hx]
        rfl
      · rw [if_neg hk, List.find?_cons_of_neg (by simpa using fun h => hk h.symm), List.find?_nil,
          Option.map_none, Option.or_none]

end OrderedMap
