import Masadan.FixedWindow
import Masadan.RateLimit

/-!
# Eviction is invisible

The limiter forgets expired windows when it holds many. A window that has expired is opened
anew by the next hit as one that was forgotten is, and as the clock does not go back an
expired window stays expired: so no call can tell (`Sees`). What is left of the limiter is
one fixed window for each key, and its bounds are those of `FixedWindow`.
-/

namespace Masadan

/-! ## A limiter that forgets nothing -/

/-- The windows by their keys. -/
abbrev Ideal := Text → Option Window

def Ideal.open (key : Text) (limit : ℕ) (windowSec : ℤ) (now : Time) (ideal : Ideal) :
    Ideal × RateLimitResult :=
  (Function.update ideal key (some ⟨1, now + windowSec * 1000⟩), ⟨true, limit - 1, 0⟩)

/-- `rateLimit` without eviction. -/
def Ideal.rateLimit (key : Text) (limit : ℕ) (windowSec : ℤ) (now : Time) (ideal : Ideal) :
    Ideal × RateLimitResult :=
  match ideal key with
  | none => ideal.open key limit windowSec now
  | some entry =>
    if entry.resetAt ≤ now then ideal.open key limit windowSec now
    else
      let count := entry.count + 1
      (Function.update ideal key (some { entry with count := count }),
        ⟨decide (count ≤ limit), max 0 ((limit : ℤ) - count),
          max 1 (-(-(entry.resetAt - now) / 1000))⟩)

def Ideal.clear (key : Text) (ideal : Ideal) : Ideal := Function.update ideal key none

/-! ## Traces -/

inductive LimiterCall where
  | rateLimit (key : Text)
  | clearRateLimit (key : Text)
  deriving DecidableEq, Repr

/-- What each key is limited to. -/
structure Limits where
  limit : Text → ℕ
  windowSec : Text → ℤ

/-- One call, at a time, on the limiter. -/
def Limits.call (l : Limits) (windows : Windows) (c : Time × LimiterCall) :
    Windows × Option RateLimitResult :=
  match c.2 with
  | .rateLimit key =>
    let r := Masadan.rateLimit key (l.limit key) (l.windowSec key) c.1 windows
    (r.1, some r.2)
  | .clearRateLimit key => (Masadan.clearRateLimit key windows, none)

/-- One call on the limiter that forgets nothing. -/
def Limits.idealCall (l : Limits) (ideal : Ideal) (c : Time × LimiterCall) :
    Ideal × Option RateLimitResult :=
  match c.2 with
  | .rateLimit key =>
    let r := ideal.rateLimit key (l.limit key) (l.windowSec key) c.1
    (r.1, some r.2)
  | .clearRateLimit key => (ideal.clear key, none)

/-- What a trace of calls answers, and leaves. -/
def Limits.run {σ : Type} (call : σ → Time × LimiterCall → σ × Option RateLimitResult) :
    σ → List (Time × LimiterCall) → σ × List (Option RateLimitResult)
  | s, [] => (s, [])
  | s, c :: cs =>
    let r := Limits.run call (call s c).1 cs
    (r.1, (call s c).2 :: r.2)

/-- How many hits of a key a trace lets through. -/
def Limits.allowed {σ : Type} (call : σ → Time × LimiterCall → σ × Option RateLimitResult)
    (key : Text) : σ → List (Time × LimiterCall) → ℕ
  | _, [] => 0
  | s, c :: cs => (if c.2 = .rateLimit key ∧ ((call s c).2.any (fun r => r.allowed)) = true
      then 1 else 0) + Limits.allowed call key (call s c).1 cs

/-! ## No call can tell -/

/-- **The map holds what the other limiter holds**, up to windows that have expired. -/
structure Sees (now : Time) (windows : Windows) (ideal : Ideal) : Prop where
  distinct : windows.Distinct
  same : ∀ key, windows.lookup (namespaced key) = ideal key
    ∨ windows.lookup (namespaced key) = none ∧ ∃ w, ideal key = some w ∧ w.resetAt ≤ now

section

variable {now t : Time} {windows : Windows} {ideal : Ideal} {key : Text} {limit : ℕ}
  {windowSec : ℤ}

/-- What has expired stays so. -/
theorem Sees.later (h : Sees now windows ideal) (ht : now ≤ t) : Sees t windows ideal where
  distinct := h.distinct
  same key := by
    refine (h.same key).imp_right (fun hgone => ?_)
    obtain ⟨hnone, w, hw, hexpired⟩ := hgone
    exact ⟨hnone, w, hw, hexpired.trans ht⟩

/-- **An eviction goes unseen.** -/
theorem Sees.evict (h : Sees now windows ideal) : Sees now (evictExpired now windows) ideal where
  distinct := h.distinct.filter _
  same key := by
    rw [lookup_evictExpired h.distinct]
    rcases h.same key with hsame | ⟨hnone, hgone⟩
    · cases hw : ideal key with
      | none =>
        rw [hsame, hw]
        exact .inl rfl
      | some w =>
        rw [hsame, hw, Option.filter_some]
        by_cases hexpired : w.resetAt ≤ now
        · right
          rw [decide_eq_true hexpired]
          exact ⟨rfl, w, rfl, hexpired⟩
        · left
          rw [decide_eq_false hexpired]
          rfl
    · rw [hnone]
      exact .inr ⟨rfl, hgone⟩

theorem Sees.set (h : Sees now windows ideal) (w : Window) :
    Sees now (windows.set (namespaced key) w) (Function.update ideal key (some w)) where
  distinct := h.distinct.set
  same k := by
    rw [lookup_set]
    by_cases hk : k = key
    · rw [hk, if_pos rfl, Function.update_self]
      exact .inl rfl
    · rw [if_neg (fun hn => hk (namespaced_injective hn)), Function.update_of_ne hk]
      exact h.same k

theorem Sees.clear (h : Sees now windows ideal) :
    Sees now (clearRateLimit key windows) (ideal.clear key) where
  distinct := h.distinct.filter _
  same k := by
    unfold clearRateLimit Ideal.clear
    rw [lookup_delete]
    by_cases hk : k = key
    · rw [hk, if_pos rfl, Function.update_self]
      exact .inl rfl
    · rw [if_neg (fun hn => hk (namespaced_injective hn)), Function.update_of_ne hk]
      exact h.same k

/-- A window is opened. -/
theorem Sees.open (h : Sees now windows ideal) :
    Sees now (openWindow key limit windowSec now windows).1
      (ideal.open key limit windowSec now).1 := by
  unfold openWindow Ideal.open
  dsimp only
  split
  · exact h.evict.set _
  · exact h.set _

/-- **A hit is answered alike.** -/
theorem Sees.rateLimit (h : Sees now windows ideal) (key : Text) (limit : ℕ) (windowSec : ℤ) :
    (Masadan.rateLimit key limit windowSec now windows).2
        = (ideal.rateLimit key limit windowSec now).2
      ∧ Sees now (Masadan.rateLimit key limit windowSec now windows).1
        (ideal.rateLimit key limit windowSec now).1 := by
  unfold Masadan.rateLimit Ideal.rateLimit
  rcases h.same key with hsame | ⟨hnone, w, hw, hexpired⟩
  · rw [hsame]
    cases ideal key with
    | none => exact ⟨rfl, h.open⟩
    | some w =>
      dsimp only
      by_cases hexpired : w.resetAt ≤ now
      · rw [if_pos hexpired, if_pos hexpired]
        exact ⟨rfl, h.open⟩
      · rw [if_neg hexpired, if_neg hexpired]
        exact ⟨rfl, h.set _⟩
  · -- the one opens a window for want of one, the other because it has expired
    rw [hnone, hw]
    dsimp only
    rw [if_pos hexpired]
    exact ⟨rfl, h.open⟩

variable (l : Limits)

theorem Sees.call (h : Sees now windows ideal) {c : Time × LimiterCall} (hc : now ≤ c.1) :
    (l.call windows c).2 = (l.idealCall ideal c).2
      ∧ Sees c.1 (l.call windows c).1 (l.idealCall ideal c).1 := by
  obtain ⟨t, call⟩ := c
  cases call with
  | rateLimit key =>
    obtain ⟨hanswer, hsees⟩ := (h.later hc).rateLimit key (l.limit key) (l.windowSec key)
    exact ⟨congrArg some hanswer, hsees⟩
  | clearRateLimit key => exact ⟨rfl, (h.later hc).clear⟩

/-- **A trace is answered alike.** -/
theorem Sees.run (h : Sees now windows ideal) {trace : List (Time × LimiterCall)}
    (hnow : ∀ c ∈ trace, now ≤ c.1) (hclock : trace.Pairwise (fun c c' => c.1 ≤ c'.1)) :
    (Limits.run l.call windows trace).2 = (Limits.run l.idealCall ideal trace).2
      ∧ ∀ t, now ≤ t → (∀ c ∈ trace, c.1 ≤ t) →
        Sees t (Limits.run l.call windows trace).1 (Limits.run l.idealCall ideal trace).1 := by
  induction trace generalizing now windows ideal with
  | nil => exact ⟨rfl, fun t ht _ => h.later ht⟩
  | cons c cs ih =>
    obtain ⟨hhead, hrest⟩ := List.pairwise_cons.mp hclock
    obtain ⟨hanswer, hsees⟩ := h.call l (hnow c List.mem_cons_self)
    obtain ⟨hanswers, hlater⟩ := ih hsees hhead hrest
    refine ⟨?_, fun t _ hts => ?_⟩
    · show _ :: _ = _ :: _
      rw [hanswer, hanswers]
    · exact hlater t (hts c List.mem_cons_self) (fun c' hc' => hts c' (List.mem_cons_of_mem _ hc'))

/-- And as many get through. -/
theorem Sees.allowed (h : Sees now windows ideal) {trace : List (Time × LimiterCall)}
    (hnow : ∀ c ∈ trace, now ≤ c.1) (hclock : trace.Pairwise (fun c c' => c.1 ≤ c'.1)) :
    Limits.allowed l.call key windows trace = Limits.allowed l.idealCall key ideal trace := by
  induction trace generalizing now windows ideal with
  | nil => rfl
  | cons c cs ih =>
    obtain ⟨hhead, hrest⟩ := List.pairwise_cons.mp hclock
    obtain ⟨hanswer, hsees⟩ := h.call l (hnow c List.mem_cons_self)
    unfold Limits.allowed
    rw [hanswer, ih hsees hhead hrest]

end

/-! ## One key is one fixed window -/

def Window.win (w : Window) : FixedWindow.Win := ⟨w.count, w.resetAt⟩

/-- When a key is hit in a trace. -/
def hits (key : Text) (trace : List (Time × LimiterCall)) : List ℤ :=
  trace.filterMap (fun c => if c.2 = .rateLimit key then some c.1 else none)

section

variable {ideal : Ideal} {key : Text} (l : Limits)

/-- A hit on the key. -/
theorem idealCall_hit (ideal : Ideal) (hlimit : 1 ≤ l.limit key) (t : Time) :
    ((l.idealCall ideal (t, .rateLimit key)).2.any (fun r => r.allowed) = true
        ↔ (FixedWindow.hit (l.windowSec key * 1000) t ((ideal key).map Window.win)).count
          ≤ l.limit key)
      ∧ ((l.idealCall ideal (t, .rateLimit key)).1 key).map Window.win
        = some (FixedWindow.hit (l.windowSec key * 1000) t ((ideal key).map Window.win)) := by
  show ((ideal.rateLimit key (l.limit key) (l.windowSec key) t).2.allowed = true ↔ _)
    ∧ ((ideal.rateLimit key (l.limit key) (l.windowSec key) t).1 key).map Window.win = _
  unfold Ideal.rateLimit FixedWindow.hit
  cases ideal key with
  | none =>
    dsimp only [Option.map]
    unfold Ideal.open
    dsimp only
    rw [Function.update_self]
    exact ⟨iff_of_true rfl hlimit, rfl⟩
  | some w =>
    dsimp only [Option.map, Window.win]
    by_cases hexpired : w.resetAt ≤ t
    · rw [if_pos hexpired, if_pos hexpired]
      unfold Ideal.open
      dsimp only
      rw [Function.update_self]
      exact ⟨iff_of_true rfl hlimit, rfl⟩
    · rw [if_neg hexpired, if_neg hexpired]
      dsimp only
      rw [Function.update_self]
      exact ⟨decide_eq_true_iff, rfl⟩

theorem ideal_rateLimit_other {key k : Text} (hk : k ≠ key) (limit : ℕ) (windowSec t : ℤ) :
    (ideal.rateLimit key limit windowSec t).1 k = ideal k := by
  unfold Ideal.rateLimit
  split
  · exact Function.update_of_ne hk _ _
  · split
    · exact Function.update_of_ne hk _ _
    · exact Function.update_of_ne hk _ _

/-- A hit on the limiter that forgets nothing. -/
theorem ideal_rateLimit_window (ideal : Ideal) (key : Text) (limit : ℕ) (windowSec t : ℤ) :
    (ideal.rateLimit key limit windowSec t).2.allowed
        = FixedWindow.room limit t ((ideal key).map Window.win)
      ∧ ((ideal.rateLimit key limit windowSec t).1 key).map Window.win
        = some (FixedWindow.hit (windowSec * 1000) t ((ideal key).map Window.win)) := by
  unfold Ideal.rateLimit FixedWindow.hit FixedWindow.room
  cases ideal key with
  | none =>
    dsimp only [Option.map, Ideal.open]
    rw [Function.update_self]
    exact ⟨rfl, rfl⟩
  | some w =>
    dsimp only [Option.map, Window.win]
    by_cases hexpired : w.resetAt ≤ t
    · rw [if_pos hexpired, if_pos hexpired, decide_eq_true hexpired]
      dsimp only [Ideal.open]
      rw [Function.update_self]
      exact ⟨rfl, rfl⟩
    · rw [if_neg hexpired, if_neg hexpired, decide_eq_false hexpired]
      dsimp only
      rw [Function.update_self]
      exact ⟨decide_eq_decide.mpr Nat.succ_le_iff, rfl⟩

/-- A call on another key. -/
theorem idealCall_other {c : Time × LimiterCall} (hhit : c.2 ≠ .rateLimit key)
    (hclear : c.2 ≠ .clearRateLimit key) : (l.idealCall ideal c).1 key = ideal key := by
  obtain ⟨t, call⟩ := c
  cases call with
  | rateLimit k =>
    exact ideal_rateLimit_other (fun h => hhit (congrArg LimiterCall.rateLimit h.symm)) _ _ t
  | clearRateLimit k =>
    exact Function.update_of_ne
      (fun h => hclear (congrArg LimiterCall.clearRateLimit h.symm)) _ _

/-- **What gets through of a key** between two clears is what gets through its fixed
window. -/
theorem allowed_granted (hlimit : 1 ≤ l.limit key) {trace : List (Time × LimiterCall)}
    (hclear : ∀ c ∈ trace, c.2 ≠ .clearRateLimit key) :
    Limits.allowed l.idealCall key ideal trace = FixedWindow.granted (l.limit key)
      (l.windowSec key * 1000) ((ideal key).map Window.win) (hits key trace) := by
  induction trace generalizing ideal with
  | nil => rfl
  | cons c cs ih =>
    have hrest : Limits.allowed l.idealCall key (l.idealCall ideal c).1 cs = _ := ih
      (fun c' hc' => hclear c' (List.mem_cons_of_mem _ hc'))
    unfold Limits.allowed hits
    rw [List.filterMap_cons, hrest]
    by_cases hhit : c.2 = .rateLimit key
    · obtain ⟨t, call⟩ := c
      obtain rfl : call = .rateLimit key := hhit
      obtain ⟨hallowed, hwindow⟩ := idealCall_hit l ideal hlimit t
      rw [if_pos rfl, FixedWindow.granted_cons, hwindow]
      congr 1
      simp only [true_and, hallowed]
    · rw [if_neg hhit, if_neg (fun h => hhit h.1), zero_add,
        idealCall_other l hhit (hclear c List.mem_cons_self)]
      rfl

end

/-! ## Every trace -/

/-- The limiter as it starts. -/
theorem Sees.start (now : Time) : Sees now [] (fun _ => none) where
  distinct := List.nodup_nil
  same _ := .inl rfl

theorem Sees.of_start (l : Limits) {trace : List (Time × LimiterCall)}
    (hclock : trace.Pairwise (fun c c' => c.1 ≤ c'.1)) :
    (Limits.run l.call [] trace).2 = (Limits.run l.idealCall (fun _ => none) trace).2
      ∧ ∀ t, (∀ c ∈ trace, c.1 ≤ t) →
        Sees t (Limits.run l.call [] trace).1 (Limits.run l.idealCall (fun _ => none) trace).1 := by
  cases trace with
  | nil => exact ⟨rfl, fun t _ => .start t⟩
  | cons c cs =>
    have hnow : ∀ c' ∈ c :: cs, c.1 ≤ c'.1 :=
      List.forall_mem_cons.mpr ⟨le_rfl, (List.pairwise_cons.mp hclock).1⟩
    obtain ⟨hanswers, hlater⟩ := (Sees.start c.1).run l hnow hclock
    exact ⟨hanswers, fun t ht => hlater t (ht c List.mem_cons_self) ht⟩

theorem Sees.closed {now t : Time} {windows : Windows} {ideal : Ideal} {key : Text}
    (h : Sees now windows ideal) (ht : now ≤ t) (hopens : windows.Opens key t) :
    FixedWindow.Closed t ((ideal key).map Window.win) := by
  intro v hv
  obtain ⟨w, hw, rfl⟩ := Option.map_eq_some_iff.mp hv
  rcases h.same key with hsame | ⟨_, w', hw', hexpired⟩
  · exact hopens w (hsame.trans hw)
  · obtain rfl : w = w' := Option.some.inj (hw.symm.trans hw')
    exact hexpired.trans ht

/-! ## The limiter, key by key -/

/-- The window of each key. -/
abbrev Meters := Text → Option FixedWindow.Win

/-- A hit on a key. -/
def Meters.hit (m : Meters) (key : Text) (windowSec : ℤ) (t : Time) : Meters :=
  Function.update m key (some (FixedWindow.hit (windowSec * 1000) t (m key)))

/-- A key is forgotten. -/
def Meters.clear (m : Meters) (key : Text) : Meters := Function.update m key none

/-- What a map of windows holds. -/
def Windows.meters (windows : Windows) : Meters :=
  fun key => (windows.lookup (namespaced key)).map Window.win

/-- **The map reads as one window for each key**, up to windows that have expired. -/
def Reads (now : Time) (windows : Windows) (m : Meters) : Prop :=
  ∃ ideal, Sees now windows ideal ∧ ∀ key, (ideal key).map Window.win = m key

section

variable {now t : Time} {windows : Windows} {m : Meters} {key k : Text}

theorem Meters.hit_self {windowSec : ℤ} :
    m.hit key windowSec t key = some (FixedWindow.hit (windowSec * 1000) t (m key)) :=
  Function.update_self ..

theorem Meters.hit_other {windowSec : ℤ} (h : k ≠ key) : m.hit key windowSec t k = m k :=
  Function.update_of_ne h ..

theorem Reads.start (hd : windows.Distinct) (now : Time) : Reads now windows windows.meters :=
  ⟨fun key => windows.lookup (namespaced key), ⟨hd, fun _ => .inl rfl⟩, fun _ => rfl⟩

theorem Reads.later (h : Reads now windows m) (ht : now ≤ t) : Reads t windows m := by
  obtain ⟨ideal, hsees, hread⟩ := h
  exact ⟨ideal, hsees.later ht, hread⟩

/-- **A hit is answered by the window of its key**, and hits no other. -/
theorem Reads.rateLimit (h : Reads now windows m) (key : Text) (limit : ℕ) (windowSec : ℤ) :
    (Masadan.rateLimit key limit windowSec now windows).2.allowed
        = FixedWindow.room limit now (m key)
      ∧ Reads now (Masadan.rateLimit key limit windowSec now windows).1
        (m.hit key windowSec now) := by
  obtain ⟨ideal, hsees, hread⟩ := h
  obtain ⟨hanswer, hsees'⟩ := hsees.rateLimit key limit windowSec
  obtain ⟨hallowed, hwindow⟩ := ideal_rateLimit_window ideal key limit windowSec now
  rw [hread] at hallowed hwindow
  refine ⟨by rw [hanswer, hallowed], _, hsees', fun k => ?_⟩
  by_cases hk : k = key
  · rw [hk, hwindow, Meters.hit_self]
  · rw [ideal_rateLimit_other hk, hread, Meters.hit_other hk]

theorem Reads.clear (h : Reads now windows m) (key : Text) :
    Reads now (clearRateLimit key windows) (m.clear key) := by
  obtain ⟨ideal, hsees, hread⟩ := h
  refine ⟨_, hsees.clear, fun k => ?_⟩
  unfold Ideal.clear Meters.clear
  by_cases hk : k = key
  · rw [hk, Function.update_self, Function.update_self]
    rfl
  · rw [Function.update_of_ne hk, Function.update_of_ne hk, hread]

end

/-- **Eviction is invisible, and windows hold.** The limiter answers a trace as one that
forgets nothing; and between two clears of a key no more than its limit get through in a
window, and no more than twice its limit in a span as long as one. -/
theorem eviction_invisible (l : Limits) (hlimit : ∀ key, 1 ≤ l.limit key)
    (hwindow : ∀ key, 1 ≤ l.windowSec key) (trace : List (Time × LimiterCall))
    (hclock : trace.Pairwise (fun c c' => c.1 ≤ c'.1)) :
    (Limits.run l.call [] trace).2 = (Limits.run l.idealCall (fun _ => none) trace).2
      ∧ ∀ (key : Text) (pre mid post : List (Time × LimiterCall)), trace = pre ++ mid ++ post →
        (∀ c ∈ mid, c.2 ≠ .clearRateLimit key) →
        (∀ t rest, mid = (t, .rateLimit key) :: rest →
          (Limits.run l.call [] pre).1.Opens key t →
          (∀ c ∈ rest, c.1 < t + l.windowSec key * 1000) →
          Limits.allowed l.call key (Limits.run l.call [] pre).1 mid ≤ l.limit key)
        ∧ ∀ a, (∀ c ∈ mid, a ≤ c.1 ∧ c.1 ≤ a + l.windowSec key * 1000) →
          Limits.allowed l.call key (Limits.run l.call [] pre).1 mid ≤ 2 * l.limit key := by
  refine ⟨(Sees.of_start l hclock).1, ?_⟩
  rintro key pre mid post rfl hclear
  obtain ⟨hboth, _, _⟩ := List.pairwise_append.mp hclock
  obtain ⟨hpre, hmid, hbefore⟩ := List.pairwise_append.mp hboth
  -- what gets through of the part is what gets through the key's fixed window
  have hgranted : Limits.allowed l.call key (Limits.run l.call [] pre).1 mid
      = FixedWindow.granted (l.limit key) (l.windowSec key * 1000)
        (((Limits.run l.idealCall (fun _ => none) pre).1 key).map Window.win) (hits key mid) := by
    cases mid with
    | nil => rfl
    | cons c cs =>
      have hsees := (Sees.of_start l hpre).2 c.1 (fun c' hc' => hbefore c' hc' c List.mem_cons_self)
      rw [hsees.allowed l (List.forall_mem_cons.mpr ⟨le_rfl, (List.pairwise_cons.mp hmid).1⟩) hmid]
      exact allowed_granted l (hlimit key) hclear
  have hhits : ∀ {trace : List (Time × LimiterCall)} {t : ℤ}, t ∈ hits key trace →
      ∃ c ∈ trace, c.1 = t := by
    intro trace t ht
    obtain ⟨c, hc, hct⟩ := List.mem_filterMap.mp ht
    split at hct
    · exact ⟨c, hc, Option.some.inj hct⟩
    · cases hct
  constructor
  · rintro t rest rfl hopens hrest
    have hsees := (Sees.of_start l hpre).2 t (fun c' hc' => hbefore c' hc' _ List.mem_cons_self)
    have hcons : hits key ((t, .rateLimit key) :: rest) = t :: hits key rest :=
      List.filterMap_cons_some (if_pos rfl)
    rw [hgranted, hcons]
    refine FixedWindow.granted_window (hsees.closed le_rfl hopens) (fun t' ht' => ?_)
    obtain ⟨c, hc, rfl⟩ := hhits ht'
    exact hrest c hc
  · intro a hspan
    rw [hgranted]
    refine FixedWindow.granted_span (a := a) ?_ _ (fun t ht => ?_)
    · have hlen := hwindow key
      omega
    · obtain ⟨c, hc, rfl⟩ := hhits ht
      exact hspan c hc

/-- Two hits on a key that is limited to one a second. -/
theorem eviction_invisible_twice :
    Limits.allowed (Limits.call ⟨fun _ => 1, fun _ => 1⟩) [] []
      [(0, .rateLimit []), (5, .rateLimit [])] ≤ 1 := by
  have h := eviction_invisible ⟨fun _ => 1, fun _ => 1⟩ (fun _ => le_rfl) (fun _ => le_rfl)
    [(0, .rateLimit []), (5, .rateLimit [])] (by decide)
  exact (h.2 [] [] _ [] rfl (by decide)).1 0 _ rfl (fun w hw => nomatch hw) (by decide)

end Masadan
