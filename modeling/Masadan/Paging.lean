import Mathlib.Data.List.Sort

/-!
# Paging through a log that grows

A log is read page by page, from the greatest entry down. Each page but the first begins
strictly after a cursor, which is the last entry of the page before; whether another page
follows is told by one entry more than a page holds. The log may be another one at each
request.

Whatever is in it at every request is read once, in order (`Walk.Ok`). And if what comes to
the log is greater than all that was in it, the last page is reached (`walk_ends`).
-/

namespace Paging

variable {κ : Type} [LinearOrder κ]

/-- The entry comes after the cursor, if there is one. -/
def after : Option κ → κ → Bool
  | none, _ => true
  | some c, x => decide (x < c)

theorem after_some {c x : κ} : after (some c) x = true ↔ x < c := decide_eq_true_iff

/-- What follows the cursor, from the greatest down. -/
def following (log : List κ) (cursor : Option κ) : List κ :=
  (log.insertionSort (· ≥ ·)).filter (after cursor)

/-- **A page**, and the cursor of the next if there is more. -/
def page (limit : ℕ) (log : List κ) (cursor : Option κ) : List κ × Option κ :=
  let rest := following log cursor
  if rest.length ≤ limit then (rest, none) else (rest.take limit, (rest.take limit).getLast?)

/-! ## One page -/

variable {limit : ℕ} {log : List κ} {cursor : Option κ} {x c : κ}

theorem mem_following : x ∈ following log cursor ↔ x ∈ log ∧ after cursor x = true := by
  unfold following
  rw [List.mem_filter, List.mem_insertionSort]

/-- What follows goes strictly down. -/
theorem following_sorted (h : log.Nodup) : (following log cursor).Pairwise (· > ·) := by
  have hge : (log.insertionSort (· ≥ ·)).Pairwise (· ≥ ·) := List.pairwise_insertionSort _ log
  have hne : (log.insertionSort (· ≥ ·)).Nodup := (List.perm_insertionSort _ log).nodup_iff.mpr h
  refine List.Pairwise.filter _ ((hge.and hne).imp (fun hab => ?_))
  exact lt_of_le_of_ne hab.1 (Ne.symm hab.2)

/-- The last of what goes strictly down is the least. -/
theorem le_of_getLast? {l : List κ} (h : l.Pairwise (· > ·)) (hc : l.getLast? = some c) :
    ∀ x ∈ l, c ≤ x := by
  obtain ⟨front, rfl⟩ := List.getLast?_eq_some_iff.mp hc
  obtain ⟨_, _, hcross⟩ := List.pairwise_append.mp h
  intro x hx
  rcases List.mem_append.mp hx with hx | hx
  · exact (hcross x hx c List.mem_cons_self).le
  · rw [List.mem_singleton.mp hx]

/-- **What a page with a next cursor is**: full, down to the cursor, with more behind it. -/
structure More (limit : ℕ) (log : List κ) (cursor : Option κ) (items : List κ) (c : κ) : Prop where
  length : items.length = limit
  mem : c ∈ items
  least : ∀ x ∈ items, c ≤ x
  whole : ∀ x ∈ log, after cursor x = true → c ≤ x → x ∈ items
  probe : ∃ x ∈ log, after cursor x = true ∧ x < c

/-- **What a page is.** -/
structure PageOk (limit : ℕ) (log : List κ) (cursor : Option κ) (p : List κ × Option κ) :
    Prop where
  sorted : p.1.Pairwise (· > ·)
  drawn : ∀ x ∈ p.1, x ∈ log ∧ after cursor x = true
  last : p.2 = none → ∀ x ∈ log, after cursor x = true → x ∈ p.1
  more : ∀ c, p.2 = some c → More limit log cursor p.1 c

theorem page_ok (hlimit : 1 ≤ limit) (h : log.Nodup) (cursor : Option κ) :
    PageOk limit log cursor (page limit log cursor) := by
  have hsorted : (following log cursor).Pairwise (· > ·) := following_sorted h
  unfold page
  dsimp only
  split
  · exact ⟨hsorted, fun x hx => mem_following.mp hx, fun _ x hx ha => mem_following.mpr ⟨hx, ha⟩,
      fun _ hc => nomatch hc⟩
  · next hlong =>
    have hsome : (following log cursor).take limit ≠ [] := by
      rw [← List.length_pos_iff, List.length_take]
      omega
    refine ⟨hsorted.sublist (List.take_sublist _ _),
      fun x hx => mem_following.mp (List.mem_of_mem_take hx), fun hnone => ?_, fun c hc => ?_⟩
    · exact absurd (List.getLast?_eq_none_iff.mp hnone) hsome
    · have hleast := le_of_getLast? (hsorted.sublist (List.take_sublist _ _)) hc
      have hmem := List.mem_of_getLast? hc
      -- all that is left out is below the cursor
      rw [← List.take_append_drop limit (following log cursor)] at hsorted
      obtain ⟨_, _, hcross⟩ := List.pairwise_append.mp hsorted
      refine ⟨?_, hmem, hleast, fun x hx ha hcx => ?_, ?_⟩
      · rw [List.length_take]
        omega
      · have hthere : x ∈ following log cursor := mem_following.mpr ⟨hx, ha⟩
        rw [← List.take_append_drop limit (following log cursor)] at hthere
        rcases List.mem_append.mp hthere with hthere | hthere
        · exact hthere
        · exact absurd (hcross c hmem x hthere) (not_lt.mpr hcx)
      · have hdrop : (following log cursor).drop limit ≠ [] := by
          rw [← List.length_pos_iff, List.length_drop]
          omega
        obtain ⟨x, hx⟩ := List.exists_mem_of_ne_nil _ hdrop
        obtain ⟨hlog, ha⟩ := mem_following.mp (List.mem_of_mem_drop hx)
        exact ⟨x, hlog, ha, hcross c hmem x hx⟩

/-! ## Page after page -/

/-- What has been read, and the cursor of the next request if there is one. -/
structure Walk (κ : Type) where
  seen : List κ
  next : Option (Option κ)

/-- One request, if there is one to make. -/
def Walk.step (limit : ℕ) (w : Walk κ) (log : List κ) : Walk κ :=
  match w.next with
  | none => w
  | some cursor =>
    let p := page limit log cursor
    ⟨w.seen ++ p.1, p.2.map some⟩

/-- **After so many requests**, each with the log as it is then. -/
def walk (limit : ℕ) (logs : ℕ → List κ) : ℕ → Walk κ
  | 0 => ⟨[], some none⟩
  | n + 1 => (walk limit logs n).step limit (logs n)

/-- **What has been read is read once and in order**, each entry from some log; what was in
all of them has been read or is to come. -/
structure Walk.Ok (logs : ℕ → List κ) (n : ℕ) (w : Walk κ) : Prop where
  sorted : w.seen.Pairwise (· > ·)
  drawn : ∀ x ∈ w.seen, ∃ i < n, x ∈ logs i
  behind : ∀ x ∈ w.seen, ∀ cursor, w.next = some cursor → after cursor x = false
  covers : ∀ x, (∀ i < n, x ∈ logs i) →
    x ∈ w.seen ∨ ∃ cursor, w.next = some cursor ∧ after cursor x = true

theorem Walk.Ok.step {logs : ℕ → List κ} {n : ℕ} {w : Walk κ} (h : w.Ok logs n)
    (hlimit : 1 ≤ limit) (hnodup : (logs n).Nodup) : (w.step limit (logs n)).Ok logs (n + 1) := by
  have hdrawn : ∀ x ∈ w.seen, ∃ i < n + 1, x ∈ logs i := by
    intro x hx
    obtain ⟨i, hi, hlog⟩ := h.drawn x hx
    exact ⟨i, Nat.lt_succ_of_lt hi, hlog⟩
  have hearlier : ∀ x, (∀ i < n + 1, x ∈ logs i) → ∀ i < n, x ∈ logs i :=
    fun x hx i hi => hx i (Nat.lt_succ_of_lt hi)
  unfold Walk.step
  cases hnext : w.next with
  | none =>
    refine ⟨h.sorted, hdrawn, fun x _ cursor hc => ?_, fun x hx => ?_⟩
    · cases hnext.symm.trans hc
    · exact h.covers x (hearlier x hx)
  | some cursor =>
    have hpage := page_ok hlimit hnodup cursor
    dsimp only
    refine ⟨?_, fun x hx => ?_, fun x hx c' hc => ?_, fun x hx => ?_⟩
    · -- what was read before is not after the cursor
      refine List.pairwise_append.mpr ⟨h.sorted, hpage.sorted, fun x hx y hy => ?_⟩
      have hbehind := h.behind x hx cursor hnext
      have hafter := (hpage.drawn y hy).2
      cases cursor with
      | none => cases hbehind
      | some c =>
        have hle : c ≤ x := not_lt.mp (fun hlt => by
          rw [after_some.mpr hlt] at hbehind
          cases hbehind)
        exact (after_some.mp hafter).trans_le hle
    · rcases List.mem_append.mp hx with hx | hx
      · exact hdrawn x hx
      · exact ⟨n, Nat.lt_succ_self n, (hpage.drawn x hx).1⟩
    · obtain ⟨c, hsome, rfl⟩ := Option.map_eq_some_iff.mp hc
      have hmore := hpage.more c hsome
      rw [← Bool.not_eq_true, after_some, not_lt]
      rcases List.mem_append.mp hx with hx | hx
      · have hbehind := h.behind x hx cursor hnext
        have hafter := (hpage.drawn c hmore.mem).2
        cases cursor with
        | none => cases hbehind
        | some c₀ =>
          rw [← Bool.not_eq_true, after_some, not_lt] at hbehind
          exact (after_some.mp hafter).le.trans hbehind
      · exact hmore.least x hx
    · rcases h.covers x (hearlier x hx) with hseen | ⟨c', hc', ha⟩
      · exact .inl (List.mem_append_left _ hseen)
      · cases hnext.symm.trans hc'
        have hlog := hx n (Nat.lt_succ_self n)
        cases hp : (page limit (logs n) cursor).2 with
        | none => exact .inl (List.mem_append_right _ (hpage.last hp x hlog ha))
        | some c =>
          by_cases hcx : c ≤ x
          · exact .inl (List.mem_append_right _ ((hpage.more c hp).whole x hlog ha hcx))
          · exact .inr ⟨some c, rfl, after_some.mpr (not_le.mp hcx)⟩

theorem walk_ok {logs : ℕ → List κ} (hlimit : 1 ≤ limit) (hnodup : ∀ n, (logs n).Nodup) (n : ℕ) :
    (walk limit logs n).Ok logs n := by
  induction n with
  | zero =>
    exact ⟨.nil, fun _ hx => absurd hx List.not_mem_nil, fun _ hx => absurd hx List.not_mem_nil,
      fun _ _ => .inr ⟨none, rfl, rfl⟩⟩
  | succ n ih => exact ih.step hlimit (hnodup n)

/-! ## The last page -/

/-- **While there is a next request**, each one made has read a full page of what was there
at the first, and something of it is still to come. -/
structure Walk.Busy (limit : ℕ) (base : List κ) (n : ℕ) (w : Walk κ) : Prop where
  length : w.seen.length = n * limit
  drawn : ∀ x ∈ w.seen, x ∈ base
  probe : ∀ cursor, w.next = some cursor → cursor = none ∧ n = 0
    ∨ ∃ c y, cursor = some c ∧ c ∈ base ∧ y ∈ base ∧ y < c

theorem walk_busy {logs : ℕ → List κ} {base : List κ} (hlimit : 1 ≤ limit)
    (hnodup : ∀ n, (logs n).Nodup) (hfirst : ∀ x ∈ logs 0, x ∈ base)
    (hnew : ∀ n, ∀ x ∈ logs n, x ∈ base ∨ ∀ y ∈ base, y < x) (n : ℕ)
    (hn : (walk limit logs n).next ≠ none) : (walk limit logs n).Busy limit base n := by
  induction n with
  | zero =>
    refine ⟨(Nat.zero_mul limit).symm, fun _ hx => absurd hx List.not_mem_nil, fun cursor hc => ?_⟩
    cases hc
    exact .inl ⟨rfl, rfl⟩
  | succ n ih =>
    have hstep : walk limit logs (n + 1) = (walk limit logs n).step limit (logs n) := rfl
    rw [hstep] at hn ⊢
    unfold Walk.step at hn ⊢
    cases hnext : (walk limit logs n).next with
    | none =>
      rw [hnext] at hn
      exact absurd hnext hn
    | some cursor =>
      rw [hnext] at hn
      dsimp only at hn ⊢
      have hbusy := ih (by rw [hnext]; exact Option.some_ne_none _)
      have hpage := page_ok hlimit (hnodup n) cursor
      -- what follows the cursor was there at the first request
      have hbase : ∀ x ∈ logs n, after cursor x = true → x ∈ base := by
        intro x hx ha
        rcases hbusy.probe cursor hnext with ⟨_, rfl⟩ | ⟨c, y, rfl, hc, _⟩
        · exact hfirst x hx
        · rcases hnew n x hx with hx | hgreater
          · exact hx
          · exact absurd (hgreater c hc) (not_lt.mpr (after_some.mp ha).le)
      cases hp : (page limit (logs n) cursor).2 with
      | none =>
        rw [hp] at hn
        exact absurd rfl hn
      | some c =>
        have hmore := hpage.more c hp
        refine ⟨?_, fun x hx => ?_, fun c' hc' => ?_⟩
        · rw [List.length_append, hbusy.length, hmore.length, Nat.succ_mul]
        · rcases List.mem_append.mp hx with hx | hx
          · exact hbusy.drawn x hx
          · exact hbase x (hpage.drawn x hx).1 (hpage.drawn x hx).2
        · cases hc'
          obtain ⟨y, hy, ha, hlt⟩ := hmore.probe
          have hc := hpage.drawn c hmore.mem
          exact .inr ⟨c, y, rfl, hbase c hc.1 hc.2, hbase y hy ha, hlt⟩

/-- **The last page is reached**: within a request for each page there was, and one more. -/
theorem walk_ends {logs : ℕ → List κ} {base : List κ} (hlimit : 1 ≤ limit)
    (hnodup : ∀ n, (logs n).Nodup) (hfirst : ∀ x ∈ logs 0, x ∈ base)
    (hnew : ∀ n, ∀ x ∈ logs n, x ∈ base ∨ ∀ y ∈ base, y < x) :
    (walk limit logs (base.length / limit + 1)).next = none := by
  by_contra hn
  have hbusy := walk_busy hlimit hnodup hfirst hnew _ hn
  have hsorted := (walk_ok hlimit hnodup (base.length / limit + 1)).sorted
  have hseen : (walk limit logs (base.length / limit + 1)).seen.Nodup :=
    hsorted.imp (fun h => ne_of_gt h)
  have hle : (base.length / limit + 1) * limit ≤ base.length := by
    rw [← hbusy.length]
    exact (List.subperm_of_subset hseen hbusy.drawn).length_le
  have hlt : base.length < (base.length / limit + 1) * limit := by
    rw [Nat.mul_comm]
    exact Nat.lt_mul_div_succ _ hlimit
  exact absurd hle (not_le.mpr hlt)

end Paging
