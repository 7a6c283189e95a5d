import Mathlib.Algebra.Order.Ring.Int

/-!
# Stamps that are not always written

Something stays alive as long as it is used: a use is good if it comes no later than `idle`
after the last good one, whose time is kept as a stamp. A stamp that is written only when it
has become `touch` old lags behind one that each good use writes (`lag`), and by less than
`touch` (`stamp_fresh`).

So what the lagging stamp lets pass the other lets pass too (`good_of_throttled`), and what
comes `touch` before the end of a use's time passes with either (`throttled_good`).
-/

namespace Throttle

/-- A use at a time, which may be no good for a reason of its own. -/
structure Use where
  time : ℤ
  valid : Bool

variable {idle touch : ℤ}

/-- The use is good. -/
def good (idle stamp : ℤ) (u : Use) : Bool := u.valid && !decide (stamp + idle < u.time)

/-- The stamp that each good use writes. -/
def exact (idle stamp : ℤ) (u : Use) : ℤ := if good idle stamp u then u.time else stamp

/-- The stamp that is written when it is old. -/
def throttled (idle touch stamp : ℤ) (u : Use) : ℤ :=
  if good idle stamp u then if stamp + touch ≤ u.time then u.time else stamp else stamp

theorem good_iff {stamp : ℤ} {u : Use} :
    good idle stamp u = true ↔ u.valid = true ∧ u.time ≤ stamp + idle := by
  unfold good
  rw [Bool.and_eq_true, Bool.not_eq_true', decide_eq_false_iff_not, not_lt]

/-- A later stamp lets more pass. -/
theorem good_mono {s e : ℤ} {u : Use} (h : s ≤ e) (hs : good idle s u = true) :
    good idle e u = true := by
  obtain ⟨hvalid, htime⟩ := good_iff.mp hs
  exact good_iff.mpr ⟨hvalid, by omega⟩

/-- **One use keeps the lag on its side**, and no stamp is ahead of the clock. -/
theorem lag_step {s e : ℤ} {u : Use} (hse : s ≤ e) (heu : e ≤ u.time) :
    throttled idle touch s u ≤ exact idle e u ∧ exact idle e u ≤ u.time := by
  unfold throttled exact
  by_cases hs : good idle s u = true
  · rw [if_pos hs, if_pos (good_mono hse hs)]
    split
    · exact ⟨le_rfl, le_rfl⟩
    · exact ⟨hse.trans heu, le_rfl⟩
  · rw [if_neg hs]
    split
    · exact ⟨hse.trans heu, le_rfl⟩
    · exact ⟨hse, heu⟩

/-- **The throttled stamp lags** along a trace. -/
theorem lag {s e : ℤ} (hse : s ≤ e) {trace : List Use} (hstart : ∀ u ∈ trace, e ≤ u.time)
    (hclock : trace.Pairwise (fun u v => u.time ≤ v.time)) :
    trace.foldl (throttled idle touch) s ≤ trace.foldl (exact idle) e := by
  induction trace generalizing s e with
  | nil => exact hse
  | cons u rest ih =>
    obtain ⟨hhead, hrest⟩ := List.pairwise_cons.mp hclock
    have hstep : throttled idle touch s u ≤ exact idle e u ∧ exact idle e u ≤ u.time :=
      lag_step hse (hstart u List.mem_cons_self)
    obtain ⟨hlag, hnow⟩ := hstep
    exact ih hlag (fun v hv => hnow.trans (hhead v hv)) hrest

/-- **What passes with the throttled stamp passes with the other.** -/
theorem good_of_throttled {s : ℤ} {trace : List Use} (hstart : ∀ u ∈ trace, s ≤ u.time)
    (hclock : trace.Pairwise (fun u v => u.time ≤ v.time)) {u : Use}
    (h : good idle (trace.foldl (throttled idle touch) s) u = true) :
    good idle (trace.foldl (exact idle) s) u = true :=
  good_mono (lag le_rfl hstart hclock) h

/-- The throttled stamp does not go back. -/
theorem le_throttled (htouch : 0 ≤ touch) (s : ℤ) (trace : List Use) :
    s ≤ trace.foldl (throttled idle touch) s := by
  induction trace generalizing s with
  | nil => exact le_rfl
  | cons u rest ih =>
    have hstep : s ≤ throttled idle touch s u := by
      unfold throttled
      split
      · split
        · omega
        · exact le_rfl
      · exact le_rfl
    exact hstep.trans (ih _)

/-- **After a good use the stamp is less than `touch` behind it.** -/
theorem stamp_fresh (htouch : 0 < touch) {s : ℤ} {u : Use} (h : good idle s u = true) :
    u.time < throttled idle touch s u + touch := by
  unfold throttled
  rw [if_pos h]
  split
  · omega
  · omega

/-- **What comes `touch` before the end of a good use's time passes.** -/
theorem throttled_good (htouch : 0 < touch) {s : ℤ} {p : Use} (hp : good idle s p = true)
    (mid : List Use) {u : Use} (hvalid : u.valid = true) (hu : u.time ≤ p.time + (idle - touch)) :
    good idle (mid.foldl (throttled idle touch) (throttled idle touch s p)) u = true := by
  have hfresh := stamp_fresh htouch hp
  have hkept : throttled idle touch s p
      ≤ mid.foldl (throttled idle touch) (throttled idle touch s p) :=
    le_throttled htouch.le _ mid
  exact good_iff.mpr ⟨hvalid, by omega⟩

end Throttle
