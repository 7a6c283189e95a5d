import Mathlib.Algebra.Order.Ring.Int
import Mathlib.Tactic.Linarith

/-!
# Fixed windows

A limiter with fixed windows counts the hits of a key. The first hit opens a window, which
lasts a set time; the hits in it are counted, and are let through up to a limit; the first
hit after it has ended opens the next.

So no more than the limit get through in a window (`granted_window`). In a span as long as a
window there are hits of two windows at most, the one it begins in and the next, and no more
than twice the limit get through (`granted_span`).
-/

namespace FixedWindow

/-- **A window**: the hits that were counted in it, and when it ends. -/
structure Win where
  count : ℕ
  ends : ℤ

/-- The window after a hit: the one that was open, or a new one. -/
def hit (len t : ℤ) : Option Win → Win
  | none => ⟨1, t + len⟩
  | some w => if w.ends ≤ t then ⟨1, t + len⟩ else ⟨w.count + 1, w.ends⟩

/-- A hit is let through: it opens a window, or the one that is open has counted fewer hits than
the limit. -/
def room (limit : ℕ) (t : ℤ) : Option Win → Bool
  | none => true
  | some w => decide (w.ends ≤ t) || decide (w.count < limit)

/-- How many hits are let through, of hits at some times one after another. -/
def granted (limit : ℕ) (len : ℤ) : Option Win → List ℤ → ℕ
  | _, [] => 0
  | w, t :: ts => (if (hit len t w).count ≤ limit then 1 else 0)
      + granted limit len (some (hit len t w)) ts

variable {limit : ℕ} {len : ℤ}

@[simp] theorem granted_nil (w : Option Win) : granted limit len w [] = 0 := rfl

@[simp] theorem granted_cons (w : Option Win) (t : ℤ) (ts : List ℤ) :
    granted limit len w (t :: ts) = (if (hit len t w).count ≤ limit then 1 else 0)
      + granted limit len (some (hit len t w)) ts := rfl

/-- No window is open at the time. -/
def Closed (t : ℤ) (w : Option Win) : Prop := ∀ v, w = some v → v.ends ≤ t

theorem hit_closed {t : ℤ} {w : Option Win} (h : Closed t w) : hit len t w = ⟨1, t + len⟩ := by
  cases w with
  | none => rfl
  | some v => exact if_pos (h v rfl)

theorem hit_open {t : ℤ} {w : Win} (h : t < w.ends) :
    hit len t (some w) = ⟨w.count + 1, w.ends⟩ := if_neg (not_le.mpr h)

/-- **While a window is open**, what is left of its limit gets through. -/
theorem granted_open {ts : List ℤ} {w : Win} (h : ∀ t ∈ ts, t < w.ends) :
    granted limit len (some w) ts ≤ limit - w.count := by
  induction ts generalizing w with
  | nil => simp
  | cons t ts ih =>
    have ht := h t List.mem_cons_self
    have hrest : granted limit len (some ⟨w.count + 1, w.ends⟩) ts ≤ limit - (w.count + 1) :=
      ih (fun t' ht' => h t' (List.mem_cons_of_mem _ ht'))
    rw [granted_cons, hit_open ht]
    dsimp only
    split
    · omega
    · omega

/-- **In a window no more than the limit get through.** -/
theorem granted_window {t : ℤ} {ts : List ℤ} {w : Option Win} (h : Closed t w)
    (hts : ∀ t' ∈ ts, t' < t + len) : granted limit len w (t :: ts) ≤ limit := by
  have hrest : granted limit len (some ⟨1, t + len⟩) ts ≤ limit - 1 := granted_open hts
  rw [granted_cons, hit_closed h]
  dsimp only
  split
  · omega
  · omega

/-- In a span that begins while a window is open: what is left of its limit, and the limit of
the next. -/
theorem granted_span_open {a : ℤ} {ts : List ℤ} {w : Win} (hw : a < w.ends)
    (hts : ∀ t ∈ ts, a ≤ t ∧ t ≤ a + len) :
    granted limit len (some w) ts ≤ limit - w.count + limit := by
  induction ts generalizing w with
  | nil => simp
  | cons t ts ih =>
    have hrest : ∀ t' ∈ ts, a ≤ t' ∧ t' ≤ a + len := fun t' ht' => hts t' (List.mem_cons_of_mem _ ht')
    by_cases ht : t < w.ends
    · have hthen : granted limit len (some ⟨w.count + 1, w.ends⟩) ts ≤ limit - (w.count + 1) + limit :=
        ih hw hrest
      rw [granted_cons, hit_open ht]
      dsimp only
      split
      · omega
      · omega
    · -- the next window lasts beyond the span
      have hnext : granted limit len (some w) (t :: ts) ≤ limit := by
        refine granted_window (fun v hv => ?_) (fun t' ht' => ?_)
        · cases hv
          exact not_lt.mp ht
        · have hle := (hrest t' ht').2
          linarith
      omega

/-- **In a span as long as a window no more than twice the limit get through.** -/
theorem granted_span (hlen : 0 < len) {a : ℤ} {ts : List ℤ} (w : Option Win)
    (hts : ∀ t ∈ ts, a ≤ t ∧ t ≤ a + len) : granted limit len w ts ≤ 2 * limit := by
  cases ts with
  | nil => simp
  | cons t ts =>
    by_cases hw : Closed t w
    · have hstart := (hts t List.mem_cons_self).1
      have hrest : granted limit len (some ⟨1, t + len⟩) ts ≤ limit - 1 + limit :=
        granted_span_open (by dsimp only; linarith)
          (fun t' ht' => hts t' (List.mem_cons_of_mem _ ht'))
      rw [granted_cons, hit_closed hw]
      dsimp only
      split
      · omega
      · omega
    · obtain ⟨v, hv⟩ := not_forall.mp hw
      obtain ⟨rfl, hlate⟩ := Classical.not_imp.mp hv
      have hstart := (hts t List.mem_cons_self).1
      have hopen : granted limit len (some v) (t :: ts) ≤ limit - v.count + limit :=
        granted_span_open (hstart.trans_lt (not_le.mp hlate)) hts
      omega

/-! ## In one window -/

/-- **So many hits have been counted in the span**, which is as long as a window and begins
without one: none yet, or those of a window that lasts to its end. -/
def Stands (len a : ℤ) (n : ℕ) (w : Option Win) : Prop :=
  n = 0 ∧ Closed a w ∨ ∃ v, w = some v ∧ v.count = n ∧ a + len ≤ v.ends

section

variable {a t : ℤ} {n : ℕ} {w : Option Win} (h : Stands len a n w) (ha : a ≤ t) (ht : t < a + len)

include h ha ht

theorem Stands.hit : Stands len a (n + 1) (some (hit len t w)) := by
  right
  rcases h with ⟨rfl, hclosed⟩ | ⟨v, rfl, rfl, hends⟩
  · rw [hit_closed (fun v hv => (hclosed v hv).trans ha)]
    exact ⟨_, rfl, rfl, by dsimp only; linarith⟩
  · rw [hit_open (ht.trans_le hends)]
    exact ⟨_, rfl, rfl, hends⟩

theorem Stands.room (hlimit : 0 < limit) : room limit t w = decide (n < limit) := by
  rcases h with ⟨rfl, hclosed⟩ | ⟨v, rfl, rfl, hends⟩
  · rw [decide_eq_true hlimit]
    cases w with
    | none => rfl
    | some v =>
      unfold FixedWindow.room
      dsimp only
      rw [decide_eq_true ((hclosed v rfl).trans ha), Bool.true_or]
  · unfold FixedWindow.room
    dsimp only
    rw [decide_eq_false (not_le.mpr (ht.trans_le hends)), Bool.false_or]

end

/-! ## Windows that nothing tells apart -/

/-- The windows are the same, or end at one time and are both full. -/
def Alike (limit : ℕ) (w v : Option Win) : Prop :=
  w = v ∨ ∃ m n ends, w = some ⟨m, ends⟩ ∧ v = some ⟨n, ends⟩ ∧ limit ≤ m ∧ limit ≤ n

theorem Alike.room_eq {w v : Option Win} (h : Alike limit w v) (t : ℤ) :
    room limit t w = room limit t v := by
  rcases h with rfl | ⟨m, n, ends, rfl, rfl, hm, hn⟩
  · rfl
  · unfold room
    dsimp only
    rw [decide_eq_false (not_lt.mpr hm), decide_eq_false (not_lt.mpr hn)]

/-- What is let through makes them the same. -/
theorem Alike.hit_eq {w v : Option Win} {t : ℤ} (h : Alike limit w v)
    (hroom : room limit t w = true) : hit len t w = hit len t v := by
  rcases h with rfl | ⟨m, n, ends, rfl, rfl, hm, hn⟩
  · rfl
  · -- a full window lets through only the hit that ends it
    unfold room at hroom
    dsimp only at hroom
    rw [decide_eq_false (not_lt.mpr hm), Bool.or_false] at hroom
    have hends : ends ≤ t := of_decide_eq_true hroom
    rw [hit_closed (fun w hw => by cases hw; exact hends),
      hit_closed (fun w hw => by cases hw; exact hends)]

/-- And a hit that is not let through tells nothing. -/
theorem Alike.turned {w v : Option Win} {t : ℤ} (h : Alike limit w v)
    (hroom : room limit t w = false) : Alike limit (some (hit len t w)) v := by
  cases w with
  | none => cases hroom
  | some w =>
    obtain ⟨hopen, hfull⟩ := Bool.or_eq_false_iff.mp hroom
    have hlt : t < w.ends := not_le.mp (of_decide_eq_false hopen)
    have hle : limit ≤ w.count := not_lt.mp (of_decide_eq_false hfull)
    rw [hit_open hlt]
    rcases h with rfl | ⟨m, n, ends, hw, rfl, _, hn⟩
    · exact .inr ⟨w.count + 1, w.count, w.ends, rfl, rfl, by omega, hle⟩
    · obtain rfl : w = ⟨m, ends⟩ := Option.some.inj hw
      exact .inr ⟨m + 1, n, ends, rfl, rfl, Nat.le_succ_of_le hle, hn⟩

end FixedWindow
