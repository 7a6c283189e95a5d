import Masadan.Schema

/-!
# The rate limiter

`src/lib/rateLimit.ts`: fixed windows, kept in the memory of the one process. What
the limiter does between two waits nothing else comes in between, so it is a
function of the clock and of the windows.
-/

namespace Masadan

/-- The map of the windows, in the order their keys were set. -/
abbrev Windows := List (Text × Window)

/-- `set`: a key that is there keeps its place. -/
def Windows.set (windows : Windows) (key : Text) (w : Window) : Windows :=
  match windows with
  | [] => [(key, w)]
  | (k, v) :: rest => if k = key then (k, w) :: rest else (k, v) :: Windows.set rest key w

/-- `delete`. -/
def Windows.delete (windows : Windows) (key : Text) : Windows :=
  windows.filter (fun p => p.1 != key)

/-- Bounds memory under a deliberate flood. -/
def MAX_KEYS : ℕ := 10000

structure RateLimitResult where
  allowed : Bool
  remaining : ℤ
  retryAfterSec : ℤ
  deriving DecidableEq, Repr

def evictExpired (now : Time) (windows : Windows) : Windows :=
  windows.filter (fun p => !decide (p.2.resetAt ≤ now))

/-- `rl:` and the key. -/
def namespaced (key : Text) : Text := text "rl:" ++ key

/-- A key's first hit opens its window; expired windows go first when there are many. -/
def openWindow (key : Text) (limit : ℕ) (windowSec : ℤ) (now : Time) (windows : Windows) :
    Windows × RateLimitResult :=
  let kept := if windows.length ≥ MAX_KEYS then evictExpired now windows else windows
  (kept.set (namespaced key) ⟨1, now + windowSec * 1000⟩, ⟨true, limit - 1, 0⟩)

/-- **Counts one hit against a key**: refused once `limit` hits have landed in the
window. -/
def rateLimit (key : Text) (limit : ℕ) (windowSec : ℤ) (now : Time) (windows : Windows) :
    Windows × RateLimitResult :=
  match windows.lookup (namespaced key) with
  | none => openWindow key limit windowSec now windows
  | some entry =>
    if entry.resetAt ≤ now then openWindow key limit windowSec now windows
    else
      let count := entry.count + 1
      (windows.set (namespaced key) { entry with count := count },
        ⟨decide (count ≤ limit), max 0 ((limit : ℤ) - count),
          max 1 (-(-(entry.resetAt - now) / 1000))⟩)

/-- Forget one key's window. -/
def clearRateLimit (key : Text) (windows : Windows) : Windows := windows.delete (namespaced key)

/-! ## The map of the windows -/

/-- No key is there twice. -/
def Windows.Distinct (windows : Windows) : Prop := (windows.map Prod.fst).Nodup

section

variable {windows : Windows} {key k : Text} {w : Window}

theorem lookup_cons_if (j : Text) (v : Window) (rest : Windows) :
    List.lookup k ((j, v) :: rest) = if k = j then some v else List.lookup k rest := by
  rw [List.lookup_cons]
  by_cases hk : k = j
  · rw [beq_iff_eq.mpr hk, if_pos hk]
  · rw [beq_false_of_ne hk, if_neg hk]

theorem lookup_set : (windows.set key w).lookup k = if k = key then some w else windows.lookup k := by
  induction windows with
  | nil => exact lookup_cons_if key w []
  | cons p rest ih =>
    obtain ⟨j, v⟩ := p
    unfold Windows.set
    by_cases hj : j = key
    · rw [if_pos hj, lookup_cons_if, lookup_cons_if, hj]
      by_cases hk : k = key
      · rw [if_pos hk, if_pos hk]
      · rw [if_neg hk, if_neg hk, if_neg hk]
    · rw [if_neg hj, lookup_cons_if, lookup_cons_if, ih]
      by_cases hk : k = j
      · rw [if_pos hk, if_pos hk, if_neg (fun h => hj (hk.symm.trans h))]
      · rw [if_neg hk, if_neg hk]

theorem mem_keys_set : k ∈ (windows.set key w).map Prod.fst ↔ k = key ∨ k ∈ windows.map Prod.fst := by
  induction windows with
  | nil =>
    unfold Windows.set
    simp
  | cons p rest ih =>
    obtain ⟨j, v⟩ := p
    unfold Windows.set
    by_cases hj : j = key
    · rw [if_pos hj, hj]
      simp
    · rw [if_neg hj, List.map_cons, List.mem_cons, ih, List.map_cons, List.mem_cons]
      exact or_left_comm

theorem Windows.Distinct.set (h : windows.Distinct) : (windows.set key w).Distinct := by
  induction windows with
  | nil => exact List.nodup_singleton _
  | cons p rest ih =>
    obtain ⟨j, v⟩ := p
    obtain ⟨hnot, hrest⟩ := List.nodup_cons.mp h
    unfold Windows.set
    by_cases hj : j = key
    · rw [if_pos hj]
      exact h
    · rw [if_neg hj]
      refine List.nodup_cons.mpr ⟨fun hmem => ?_, ih hrest⟩
      rcases mem_keys_set.mp hmem with hjk | hmem
      · exact hj hjk
      · exact hnot hmem

theorem Windows.Distinct.filter (h : windows.Distinct) (p : Text × Window → Bool) :
    Windows.Distinct (windows.filter p) := List.Nodup.sublist (List.filter_sublist.map _) h

theorem lookup_delete : (windows.delete key).lookup k = if k = key then none else windows.lookup k := by
  induction windows with
  | nil => exact (ite_self _).symm
  | cons p rest ih =>
    obtain ⟨j, v⟩ := p
    unfold Windows.delete at ih ⊢
    rw [List.filter_cons, lookup_cons_if]
    by_cases hj : j = key
    · rw [hj, bne_self_eq_false, if_neg Bool.false_ne_true, ih]
      by_cases hk : k = key
      · rw [if_pos hk, if_pos hk]
      · rw [if_neg hk, if_neg hk, if_neg hk]
    · rw [bne_iff_ne.mpr hj, if_pos rfl, lookup_cons_if, ih]
      by_cases hk : k = j
      · rw [if_pos hk, if_pos hk, if_neg (fun h => hj (hk.symm.trans h))]
      · rw [if_neg hk, if_neg hk]

theorem lookup_eq_none (h : k ∉ windows.map Prod.fst) : List.lookup k windows = none := by
  rw [List.lookup_eq_none_iff]
  intro p hp
  exact bne_iff_ne.mpr (fun hk => h (List.mem_map.mpr ⟨p, hp, hk.symm⟩))

/-- **What is there after an eviction**: what was there and has not expired. -/
theorem lookup_evictExpired (h : windows.Distinct) (now : Time) :
    (evictExpired now windows).lookup k
      = (windows.lookup k).filter (fun w => !decide (w.resetAt ≤ now)) := by
  induction windows with
  | nil => rfl
  | cons p rest ih =>
    obtain ⟨j, v⟩ := p
    obtain ⟨hnot, hrest⟩ := List.nodup_cons.mp h
    unfold evictExpired at ih ⊢
    rw [List.filter_cons, lookup_cons_if]
    by_cases hv : v.resetAt ≤ now
    · have hgone : (!decide (v.resetAt ≤ now)) = false := by rw [decide_eq_true hv]; rfl
      rw [if_neg (by rw [hgone]; exact Bool.false_ne_true), ih hrest]
      by_cases hk : k = j
      · -- and no later entry has the key
        rw [if_pos hk, Option.filter_some, hgone, lookup_eq_none (hk ▸ hnot)]
        rfl
      · rw [if_neg hk]
    · have hkept : (!decide (v.resetAt ≤ now)) = true := by rw [decide_eq_false hv]; rfl
      rw [if_pos hkept, lookup_cons_if, ih hrest]
      by_cases hk : k = j
      · rw [if_pos hk, if_pos hk, Option.filter_some, hkept]
        rfl
      · rw [if_neg hk, if_neg hk]

end

/-! ## What a hit does -/

theorem namespaced_injective {k key : Text} (h : namespaced k = namespaced key) : k = key :=
  List.append_cancel_left h

/-- A hit on the key at the time opens a window. -/
def Windows.Opens (windows : Windows) (key : Text) (t : Time) : Prop :=
  ∀ w, windows.lookup (namespaced key) = some w → w.resetAt ≤ t

/-- The key has room for a hit at the time: no window of it is open, or it has counted fewer
hits than the limit. -/
def Windows.room (windows : Windows) (key : Text) (limit : ℕ) (t : Time) : Bool :=
  match windows.lookup (namespaced key) with
  | none => true
  | some w => decide (w.resetAt ≤ t) || decide (w.count < limit)

section

variable {windows : Windows} {key k : Text} {limit : ℕ} {windowSec now : Time} {w : Window}

theorem Windows.Distinct.openWindow (h : windows.Distinct) :
    (openWindow key limit windowSec now windows).1.Distinct := by
  unfold Masadan.openWindow
  dsimp only
  split
  · exact (h.filter _).set
  · exact h.set

theorem Windows.Distinct.rateLimit (h : windows.Distinct) :
    (rateLimit key limit windowSec now windows).1.Distinct := by
  unfold Masadan.rateLimit
  split
  · exact h.openWindow
  · split
    · exact h.openWindow
    · exact h.set

/-- **The hit that opens a window.** -/
theorem rateLimit_opens (h : windows.Opens key now) :
    (rateLimit key limit windowSec now windows).1.lookup (namespaced key)
        = some ⟨1, now + windowSec * 1000⟩
      ∧ (rateLimit key limit windowSec now windows).2.allowed = true := by
  have hopen : (openWindow key limit windowSec now windows).1.lookup (namespaced key)
      = some ⟨1, now + windowSec * 1000⟩ := by
    unfold openWindow
    dsimp only
    rw [lookup_set, if_pos rfl]
  unfold rateLimit
  split
  · exact ⟨hopen, rfl⟩
  · next entry hentry =>
    rw [if_pos (h entry hentry)]
    exact ⟨hopen, rfl⟩

/-- **A hit in an open window.** -/
theorem rateLimit_counts (h : windows.lookup (namespaced key) = some w) (hw : now < w.resetAt) :
    (rateLimit key limit windowSec now windows).1.lookup (namespaced key)
        = some ⟨w.count + 1, w.resetAt⟩
      ∧ (rateLimit key limit windowSec now windows).2.allowed = decide (w.count + 1 ≤ limit) := by
  unfold rateLimit
  rw [h]
  dsimp only
  rw [if_neg (not_le.mpr hw)]
  dsimp only
  rw [lookup_set, if_pos rfl]
  exact ⟨rfl, rfl⟩

/-- **A hit is allowed where there is room for it.** -/
theorem rateLimit_allowed :
    (rateLimit key limit windowSec now windows).2.allowed = windows.room key limit now := by
  unfold rateLimit Windows.room
  cases hw : windows.lookup (namespaced key) with
  | none => rfl
  | some entry =>
    dsimp only
    by_cases hopen : entry.resetAt ≤ now
    · rw [if_pos hopen, decide_eq_true hopen]
      rfl
    · rw [if_neg hopen, decide_eq_false hopen, Bool.false_or]
      exact decide_eq_decide.mpr Iff.rfl

/-- What a hit on one key leaves of another's: what was there, or nothing of a window that
has expired. -/
theorem rateLimit_other (hd : windows.Distinct) (hk : k ≠ key) :
    (rateLimit key limit windowSec now windows).1.lookup (namespaced k)
        = windows.lookup (namespaced k)
      ∨ (rateLimit key limit windowSec now windows).1.lookup (namespaced k) = none
        ∧ windows.Opens k now := by
  have hset : ∀ (u : Windows) (v : Window),
      (u.set (namespaced key) v).lookup (namespaced k) = u.lookup (namespaced k) := by
    intro u v
    rw [lookup_set, if_neg (fun h => hk (namespaced_injective h))]
  have hopen : (openWindow key limit windowSec now windows).1.lookup (namespaced k)
        = windows.lookup (namespaced k)
      ∨ (openWindow key limit windowSec now windows).1.lookup (namespaced k) = none
        ∧ windows.Opens k now := by
    unfold openWindow
    dsimp only
    rw [hset]
    split
    · rw [lookup_evictExpired hd]
      cases hw : windows.lookup (namespaced k) with
      | none => exact .inl rfl
      | some w =>
        rw [Option.filter_some]
        by_cases hexpired : w.resetAt ≤ now
        · right
          rw [decide_eq_true hexpired]
          refine ⟨rfl, fun v hv => ?_⟩
          obtain rfl : w = v := Option.some.inj (hw.symm.trans hv)
          exact hexpired
        · left
          rw [decide_eq_false hexpired]
          rfl
    · exact .inl rfl
  unfold rateLimit
  split
  · exact hopen
  · split
    · exact hopen
    · exact .inl (hset _ _)

/-- An open window is left alone by hits on other keys. -/
theorem rateLimit_keeps (hd : windows.Distinct) (hk : k ≠ key)
    (h : windows.lookup (namespaced k) = some w) (hw : now < w.resetAt) :
    (rateLimit key limit windowSec now windows).1.lookup (namespaced k) = some w := by
  rcases rateLimit_other hd hk with hsame | ⟨_, hopens⟩
  · exact hsame.trans h
  · exact absurd (hopens w h) (not_le.mpr hw)

/-- And where none is open none is opened. -/
theorem rateLimit_stays (hd : windows.Distinct) (hk : k ≠ key) (h : windows.Opens k now) :
    (rateLimit key limit windowSec now windows).1.Opens k now := by
  intro v hv
  rcases rateLimit_other hd hk with hsame | ⟨hnone, _⟩
  · exact h v (hsame.symm.trans hv)
  · cases hnone.symm.trans hv

end

end Masadan
