import Masadan.Eviction
import Mathlib.Data.List.Infix

/-!
# How many keys the limiter holds

A hit that opens a window when the map holds `MAX_KEYS` drops what has expired, and then
adds its key. Nothing else is dropped: so the map stays within `MAX_KEYS` as long as each
window opens where fewer than that are running (`memory_bounded`), and a flood of keys
within one window goes past it (`memory_bounded_fails`).
-/

namespace Masadan

/-- How many of the windows have not expired. -/
def Windows.live (now : Time) (windows : Windows) : ℕ :=
  windows.countP (fun p => decide (now < p.2.resetAt))

/-- The map after a trace of calls, each with limits of its own and at any time. -/
def Windows.after (windows : Windows) (trace : List (Limits × Time × LimiterCall)) : Windows :=
  trace.foldl (fun u c => (c.1.call u c.2).1) windows

/-- **There is room for the call**: a hit that opens a window finds fewer than `MAX_KEYS`
running. -/
def Windows.HasRoom (windows : Windows) (c : Time × LimiterCall) : Prop :=
  match c.2 with
  | .rateLimit key => windows.Opens key c.1 → windows.live c.1 < MAX_KEYS
  | .clearRateLimit _ => True

section

variable {windows : Windows} {key : Text} {limit : ℕ} {windowSec now : Time} {w : Window}

theorem length_set : (windows.set key w).length
    = if key ∈ windows.map Prod.fst then windows.length else windows.length + 1 := by
  induction windows with
  | nil => rfl
  | cons p rest ih =>
    obtain ⟨j, v⟩ := p
    unfold Windows.set
    by_cases hj : j = key
    · rw [if_pos hj, if_pos (by rw [hj]; exact List.mem_cons_self)]
      rfl
    · have hmem : key ∈ ((j, v) :: rest).map Prod.fst ↔ key ∈ rest.map Prod.fst := by
        rw [List.map_cons, List.mem_cons]
        exact or_iff_right (fun h => hj h.symm)
      rw [if_neg hj, List.length_cons, ih]
      by_cases hkey : key ∈ rest.map Prod.fst
      · rw [if_pos hkey, if_pos (hmem.mpr hkey)]
        rfl
      · rw [if_neg hkey, if_neg (fun h => hkey (hmem.mp h))]
        rfl

theorem length_evictExpired : (evictExpired now windows).length = windows.live now := by
  unfold evictExpired Windows.live
  rw [List.countP_eq_length_filter]
  congr 1
  refine List.filter_congr (fun p _ => ?_)
  rw [← decide_not]
  exact decide_eq_decide.mpr not_le

/-- A key whose window is not running has no window after an eviction. -/
theorem evictExpired_drops (hd : windows.Distinct) (h : windows.Opens key now) :
    namespaced key ∉ (evictExpired now windows).map Prod.fst := by
  intro hmem
  obtain ⟨p, hp, hkey⟩ := List.mem_map.mp hmem
  have hnone : (evictExpired now windows).lookup (namespaced key) = none := by
    rw [lookup_evictExpired hd]
    cases hw : windows.lookup (namespaced key) with
    | none => rfl
    | some w => rw [Option.filter_some, decide_eq_true (h w hw)]; rfl
  rw [List.lookup_eq_none_iff] at hnone
  exact bne_iff_ne.mp (hnone p hp) hkey.symm

/-- A hit in a running window adds no key. -/
theorem length_rateLimit_counts (h : windows.lookup (namespaced key) = some w)
    (hw : now < w.resetAt) :
    (rateLimit key limit windowSec now windows).1.length = windows.length := by
  have hmem : namespaced key ∈ windows.map Prod.fst :=
    by_contra (fun hnot => nomatch h.symm.trans (lookup_eq_none hnot))
  unfold rateLimit
  rw [h]
  dsimp only
  rw [if_neg (not_le.mpr hw)]
  dsimp only
  rw [length_set, if_pos hmem]

theorem rateLimit_eq_openWindow (h : windows.Opens key now) :
    rateLimit key limit windowSec now windows = openWindow key limit windowSec now windows := by
  unfold rateLimit
  split
  · rfl
  · next entry hentry => rw [if_pos (h entry hentry)]

/-- **A hit that opens a window keeps the map within the bound** exactly where there is
room for one more. -/
theorem length_opens_le (hd : windows.Distinct) (hbound : windows.length ≤ MAX_KEYS)
    (h : windows.Opens key now) :
    (rateLimit key limit windowSec now windows).1.length ≤ MAX_KEYS
      ↔ windows.live now < MAX_KEYS := by
  rw [rateLimit_eq_openWindow h]
  unfold openWindow
  dsimp only
  by_cases hfull : windows.length ≥ MAX_KEYS
  · rw [if_pos hfull, length_set, if_neg (evictExpired_drops hd h), length_evictExpired]
    exact Nat.succ_le_iff
  · have hlive : windows.live now ≤ windows.length := List.countP_le_length
    rw [if_neg hfull, length_set]
    refine iff_of_true ?_ (by omega)
    split
    · omega
    · omega

end

section

variable {windows : Windows} {c : Limits × Time × LimiterCall}

theorem Windows.Distinct.call (hd : windows.Distinct) : ((c.1.call windows c.2).1).Distinct := by
  obtain ⟨l, t, call⟩ := c
  cases call with
  | rateLimit key => exact hd.rateLimit
  | clearRateLimit key => exact hd.filter _

/-- One call. -/
theorem length_call_le (hd : windows.Distinct) (hbound : windows.length ≤ MAX_KEYS) :
    (c.1.call windows c.2).1.length ≤ MAX_KEYS ↔ windows.HasRoom c.2 := by
  obtain ⟨l, t, call⟩ := c
  cases call with
  | clearRateLimit key =>
    have hlen : (Masadan.clearRateLimit key windows).length ≤ windows.length :=
      List.length_filter_le _ _
    exact iff_of_true (hlen.trans hbound) trivial
  | rateLimit key =>
    show (rateLimit key (l.limit key) (l.windowSec key) t windows).1.length ≤ MAX_KEYS
      ↔ (windows.Opens key t → windows.live t < MAX_KEYS)
    by_cases hopens : windows.Opens key t
    · rw [length_opens_le hd hbound hopens]
      exact ⟨fun h _ => h, fun h => h hopens⟩
    · refine iff_of_true ?_ (fun h => absurd h hopens)
      unfold Windows.Opens at hopens
      push Not at hopens
      obtain ⟨w, hw, hlt⟩ := hopens
      rw [length_rateLimit_counts hw hlt]
      exact hbound

/-- A trace, from any map within the bound. -/
theorem length_after_le (hd : windows.Distinct) (hbound : windows.length ≤ MAX_KEYS)
    (trace : List (Limits × Time × LimiterCall)) :
    (∀ u ∈ trace.inits, (windows.after u).length ≤ MAX_KEYS)
      ↔ ∀ u c v, trace = u ++ c :: v → (windows.after u).HasRoom c.2 := by
  induction trace generalizing windows with
  | nil =>
    refine iff_of_true (fun u hu => ?_) (fun u c v h => ?_)
    · obtain rfl : u = [] := by simpa using hu
      exact hbound
    · exact absurd h.symm (List.append_ne_nil_of_right_ne_nil u (List.cons_ne_nil c v))
  | cons c rest ih =>
    -- the call, and then what comes after it
    have hstep : (c.1.call windows c.2).1.length ≤ MAX_KEYS ↔ windows.HasRoom c.2 :=
      length_call_le hd hbound
    constructor
    · intro h u c' v htrace
      have hfirst : (c.1.call windows c.2).1.length ≤ MAX_KEYS :=
        h [c] (List.mem_inits _ _ |>.mpr ⟨rest, rfl⟩)
      cases u with
      | nil =>
        obtain ⟨rfl, rfl⟩ := List.cons.inj htrace
        exact hstep.mp hfirst
      | cons c'' u =>
        obtain ⟨rfl, rfl⟩ := List.cons.inj htrace
        refine (ih hd.call hfirst).mp (fun u' hu' => ?_) u c' v rfl
        refine h (c :: u') ((List.mem_inits _ _).mpr ?_)
        exact List.prefix_cons_inj _ |>.mpr ((List.mem_inits _ _).mp hu')
    · intro h u hu
      cases u with
      | nil => exact hbound
      | cons c' u =>
        obtain ⟨rfl, hpre⟩ := List.cons_prefix_cons.mp ((List.mem_inits _ _).mp hu)
        have hfirst := hstep.mpr (h [] c' rest rfl)
        refine (ih hd.call hfirst).mpr (fun u' c'' v htrace => ?_) u ((List.mem_inits _ _).mpr hpre)
        exact h (c' :: u') c'' v (congrArg (c' :: ·) htrace)

end

/-- **The limiter's memory.** Along a trace of calls, with any keys, limits and clock
readings, the map never holds more than `MAX_KEYS` windows exactly if each window that is
opened is opened while fewer than `MAX_KEYS` are running. -/
theorem memory_bounded (trace : List (Limits × Time × LimiterCall)) :
    (∀ u ∈ trace.inits, (Windows.after [] u).length ≤ MAX_KEYS)
      ↔ ∀ u c v, trace = u ++ c :: v → (Windows.after [] u).HasRoom c.2 := by
  have hd : Windows.Distinct [] := List.nodup_nil
  exact length_after_le hd (Nat.zero_le _) trace

/-! ## A flood -/

theorem mem_set {windows : Windows} {key : Text} {w : Window} {p : Text × Window}
    (h : p ∈ windows.set key w) : p = (key, w) ∨ p ∈ windows := by
  induction windows with
  | nil => exact .inl (List.mem_singleton.mp h)
  | cons q rest ih =>
    obtain ⟨j, v⟩ := q
    unfold Windows.set at h
    by_cases hj : j = key
    · rw [if_pos hj, hj] at h
      exact (List.mem_cons.mp h).imp_right (List.mem_cons_of_mem _)
    · rw [if_neg hj] at h
      rcases List.mem_cons.mp h with rfl | h
      · exact .inr List.mem_cons_self
      · exact (ih h).imp_right (List.mem_cons_of_mem _)

/-- A failed sign-in from an address, at one moment. -/
def floodHit (ip : Text) : Limits × Time × LimiterCall :=
  (⟨fun _ => 10, fun _ => 600⟩, 0, .rateLimit (text "login:ip:" ++ ip))

/-- A hit on a new key, while all are running. -/
theorem call_floodHit {windows : Windows} {ip : Text} (hlive : ∀ p ∈ windows, 0 < p.2.resetAt)
    (hnew : namespaced (text "login:ip:" ++ ip) ∉ windows.map Prod.fst) :
    ((floodHit ip).1.call windows (floodHit ip).2).1
      = windows.set (namespaced (text "login:ip:" ++ ip)) ⟨1, 600000⟩ := by
  have hkept : evictExpired 0 windows = windows :=
    List.filter_eq_self.mpr (fun p hp => by
      rw [Bool.not_eq_true', decide_eq_false_iff_not, not_le]
      exact hlive p hp)
  have hopens : windows.Opens (text "login:ip:" ++ ip) 0 :=
    fun w hw => nomatch hw.symm.trans (lookup_eq_none hnew)
  show (rateLimit (text "login:ip:" ++ ip) 10 600 0 windows).1 = _
  rw [rateLimit_eq_openWindow hopens]
  unfold openWindow
  dsimp only
  rw [hkept, ite_self]
  rfl

/-- **A flood of addresses stays in the map**, all of it. -/
theorem length_flood {ips : List Text} (hips : ips.Nodup) {windows : Windows}
    (hlive : ∀ p ∈ windows, 0 < p.2.resetAt)
    (hnew : ∀ ip ∈ ips, namespaced (text "login:ip:" ++ ip) ∉ windows.map Prod.fst) :
    (windows.after (ips.map floodHit)).length = windows.length + ips.length := by
  induction ips generalizing windows with
  | nil => rfl
  | cons ip rest ih =>
    obtain ⟨hnot, hrest⟩ := List.nodup_cons.mp hips
    have hip := hnew ip List.mem_cons_self
    show (Windows.after ((floodHit ip).1.call windows (floodHit ip).2).1
      (rest.map floodHit)).length = _
    rw [call_floodHit hlive hip, ih hrest]
    · rw [length_set, if_neg hip, List.length_cons]
      omega
    · intro p hp
      rcases mem_set hp with rfl | hp
      · exact (by decide : (0 : ℤ) < 600000)
      · exact hlive p hp
    · intro ip' hip' hmem
      rcases mem_keys_set.mp hmem with hsame | hmem
      · have : ip' = ip := List.append_cancel_left (namespaced_injective hsame)
        exact hnot (this ▸ hip')
      · exact hnew ip' (List.mem_cons_of_mem _ hip') hmem

/-- The addresses of a flood: `1`, `11`, and so on. -/
def forged (n : ℕ) : List Text := (List.range n).map (fun i => List.replicate (i + 1) 49)

theorem forged_nodup (n : ℕ) : (forged n).Nodup := by
  refine List.Nodup.map (fun i j hij => ?_) List.nodup_range
  have hlen := congrArg List.length hij
  rw [List.length_replicate, List.length_replicate] at hlen
  omega

/-- Sign-ins from one address more than the map is to hold, within one window. -/
theorem memory_bounded_fails :
    ¬ ∀ u ∈ ((forged (MAX_KEYS + 1)).map floodHit).inits,
      (Windows.after [] u).length ≤ MAX_KEYS := by
  intro h
  have hall := h _ ((List.mem_inits _ _).mpr List.prefix_rfl)
  rw [length_flood (forged_nodup _) (List.forall_mem_nil _) (fun ip _ => List.not_mem_nil)] at hall
  unfold forged at hall
  rw [List.length_map, List.length_range, List.length_nil] at hall
  omega

end Masadan
