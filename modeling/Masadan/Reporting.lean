import Masadan.Calendar
import Masadan.VisitFinality

/-!
# The day's takings

The admin screen shows what was taken on a day, and what was sent to the kitchen. The server
computes both over a period, from the visits that were settled in it and the orders created
in it; a day is a period from midnight to midnight.

A visit that is settled says how it was paid, whichever requests write visits and in
whatever order they do, so cash and card make up what was taken. Where the clocks never
change, every day that dates reach has bounds (`dayBounds_eq_some_iff`), the days follow each
other, and the report over several days is the sum of theirs (`takings_reconcile`).
-/

namespace Masadan

open Calendar

/-! ## Days -/

/-- `setHours(0, 0, 0, 0)`, where local time is ahead by a fixed offset. -/
def setHoursZero (offset t : Time) : Option Time :=
  timeClip (makeDate (day (t + offset)) 0 - offset)

def getDate (offset t : Time) : ℤ := dateOf (day (t + offset))

def setDate (offset : Time) (date : ℤ) (t : Time) : Option Time :=
  timeClip (makeDate (makeDay (yearOf (day (t + offset))) (monthOf (day (t + offset))) date)
    (timeWithinDay (t + offset)) - offset)

/-- Day boundaries in the server's local timezone, as far as dates reach. -/
def dayBounds (offset now : Time) (daysAgo : ℤ) : Option (Time × Time) := do
  let midnight ← setHoursZero offset now
  let start ← setDate offset (getDate offset midnight - daysAgo) midnight
  let stop ← setDate offset (getDate offset start + 1) start
  return (start, stop)

/-- **Moving the day of the month moves the time by as many days.** -/
theorem setDate_add (offset t : Time) (k : ℤ) :
    setDate offset (getDate offset t + k) t = timeClip (t + k * msPerDay) := by
  have hself := makeDate_day (t + offset)
  unfold setDate getDate
  rw [makeDay_add]
  congr 1
  unfold makeDate at hself ⊢
  rw [Int.add_mul]
  omega

/-- **The bounds of a day**, counted from the midnight before. -/
theorem dayBounds_eq (offset now : Time) (daysAgo : ℤ) :
    dayBounds offset now daysAgo = (do
      let midnight ← timeClip (makeDate (day (now + offset)) 0 - offset)
      let start ← timeClip (midnight - daysAgo * msPerDay)
      let stop ← timeClip (start + msPerDay)
      return (start, stop)) := by
  unfold dayBounds setHoursZero
  refine congrArg _ (funext fun midnight => ?_)
  rw [sub_eq_add_neg, setDate_add, neg_mul, ← sub_eq_add_neg]
  refine congrArg _ (funext fun start => ?_)
  rw [setDate_add, one_mul]

/-- The last midnight of local time. -/
def lastMidnight (offset now : ℤ) : ℤ := makeDate (day (now + offset)) 0 - offset

/-- **A day has bounds exactly when the last midnight, its beginning and its end are times that
a date can have.** It is a day long, and begins as many days before that midnight as it should. -/
theorem dayBounds_eq_some_iff {offset now : Time} {daysAgo : ℤ} {bounds : Time × Time} :
    dayBounds offset now daysAgo = some bounds
      ↔ bounds.1 = lastMidnight offset now - daysAgo * msPerDay ∧ bounds.2 = bounds.1 + msPerDay
        ∧ (lastMidnight offset now).natAbs ≤ 8640000000000000
        ∧ bounds.1.natAbs ≤ 8640000000000000 ∧ bounds.2.natAbs ≤ 8640000000000000 := by
  rw [dayBounds_eq]
  constructor
  · intro h
    obtain ⟨midnight, hmidnight, h⟩ := Option.bind_eq_some_iff.mp h
    obtain ⟨start, hstart, h⟩ := Option.bind_eq_some_iff.mp h
    obtain ⟨stop, hstop, h⟩ := Option.bind_eq_some_iff.mp h
    cases h
    obtain ⟨rfl, hreach⟩ := timeClip_eq_some_iff.mp hmidnight
    obtain ⟨hstart, hreach₁⟩ := timeClip_eq_some_iff.mp hstart
    obtain ⟨hstop, hreach₂⟩ := timeClip_eq_some_iff.mp hstop
    exact ⟨hstart, hstop, hreach, hstart ▸ hreach₁, hstop ▸ hreach₂⟩
  · rintro ⟨hstart, hstop, hreach, hreach₁, hreach₂⟩
    refine Option.bind_eq_some_iff.mpr ⟨_, timeClip_eq_some_iff.mpr ⟨rfl, hreach⟩, ?_⟩
    refine Option.bind_eq_some_iff.mpr ⟨_, timeClip_eq_some_iff.mpr ⟨hstart, hstart ▸ hreach₁⟩, ?_⟩
    exact Option.bind_eq_some_iff.mpr ⟨_, timeClip_eq_some_iff.mpr ⟨hstop, hstop ▸ hreach₂⟩, rfl⟩

/-- **Every day around has bounds**: dates reach a hundred million days either way. -/
theorem dayBounds_of_near (offset : ℤ) {now daysAgo : ℤ}
    (h : now.natAbs + (daysAgo.natAbs + 2) * 86400000 ≤ 8640000000000000) :
    (dayBounds offset now daysAgo).isSome = true := by
  have hday : lastMidnight offset now + timeWithinDay (now + offset) = now := by
    have hself := makeDate_day (now + offset)
    unfold lastMidnight
    unfold makeDate at hself ⊢
    omega
  have hpos : 0 ≤ timeWithinDay (now + offset) := Int.emod_nonneg _ (by decide)
  have hlt : timeWithinDay (now + offset) < 86400000 := Int.emod_lt_of_pos _ (by decide)
  generalize timeWithinDay (now + offset) = r at hday hpos hlt
  have hreach : ∀ m : ℤ, m + r = now → m.natAbs ≤ 8640000000000000
      ∧ (m - daysAgo * 86400000).natAbs ≤ 8640000000000000
      ∧ (m - daysAgo * 86400000 + 86400000).natAbs ≤ 8640000000000000 := by
    intro m hm
    omega
  exact Option.isSome_iff_exists.mpr ⟨(lastMidnight offset now - daysAgo * msPerDay,
    lastMidnight offset now - daysAgo * msPerDay + msPerDay),
    dayBounds_eq_some_iff.mpr ⟨rfl, rfl, hreach _ hday⟩⟩

/-- **Days in a row follow each other.** -/
theorem days_chain {offset now : Time} {k : ℤ} {n : ℕ} {bounds : ℕ → Time × Time}
    (h : ∀ i ≤ n, dayBounds offset now (k + i) = some (bounds i)) : Chain bounds n where
  forward i hi := by
    obtain ⟨_, hend, _⟩ := dayBounds_eq_some_iff.mp (h i hi)
    rw [hend]
    exact Int.le_add_of_nonneg_right (by decide)
  meets i hi := by
    obtain ⟨hnext, hend, _⟩ := dayBounds_eq_some_iff.mp (h (i + 1) hi)
    obtain ⟨hbegin, _⟩ := dayBounds_eq_some_iff.mp (h i (Nat.le_of_lt hi))
    rw [hend, hnext, hbegin, Int.natCast_add_one, ← Int.add_assoc, Int.add_mul (k + i)]
    omega

/-! ## The report -/

structure PeriodReport where
  start : Time
  stop : Time
  /-- Money taken: visits closed as settled in this period. -/
  settledKurus : ℤ
  cashKurus : ℤ
  cardKurus : ℤ
  settledVisits : ℕ
  /-- Average per settled table. -/
  avgCheckKurus : ℤ
  /-- Kitchen volume: orders created in this period. -/
  ordersPlaced : ℕ
  ordersRejected : ℕ
  itemsSold : ℕ
  deriving DecidableEq, Repr

/-- What was handed over, or else the bill. -/
def amountOf (v : TableVisit) : ℤ := v.paidAmountKurus.getD (v.totalKurus.getD 0)

/-- `Math.round` of a quotient, for amounts below `2^52`. -/
def roundDiv (a : ℤ) (n : ℕ) : ℤ := (2 * a + n) / (2 * n)

/-- The visits settled in a period. -/
def World.takings (w : World) (venueId : Id) (start stop : Time) : List TableVisit :=
  (w.tableVisits.filter (fun _ v => v.venueId == venueId && v.status == .closed
    && v.closedReason == some .settled && within start stop v.closedAt)).map Prod.snd

def World.ordersPlaced (w : World) (venueId : Id) (start stop : Time) : ℕ :=
  w.orders.count (fun _ o => o.venueId == venueId && within start stop (some o.createdAt))

def World.ordersRejected (w : World) (venueId : Id) (start stop : Time) : ℕ :=
  w.orders.count (fun _ o => o.venueId == venueId && o.status == .rejected
    && within start stop (some o.createdAt))

def World.itemsSold (w : World) (venueId : Id) (start stop : Time) : ℕ :=
  ((w.orderItems.filter (fun _ i => (w.orders.get? i.orderId).any (fun o =>
    o.venueId == venueId && notVoid o.status && within start stop (some o.createdAt)))).map
      (fun r => r.2.qty)).sum

/-- The report, from what the four queries found. -/
def report (start stop : Time) (visits : List TableVisit)
    (ordersPlaced ordersRejected itemsSold : ℕ) : PeriodReport :=
  let settledKurus := (visits.map amountOf).sum
  { start, stop, settledKurus
    cashKurus := ((visits.filter (fun v => v.paymentMethod == some .cash)).map amountOf).sum
    cardKurus := ((visits.filter (fun v => v.paymentMethod == some .card)).map amountOf).sum
    settledVisits := visits.length
    avgCheckKurus := if visits.length > 0 then roundDiv settledKurus visits.length else 0
    ordersPlaced, ordersRejected, itemsSold }

def periodReport (venueId : Id) (start stop : Time) : Api PeriodReport := do
  let visits ← query (fun w => w.takings venueId start stop)
  let ordersPlaced ← query (fun w => w.ordersPlaced venueId start stop)
  let ordersRejected ← query (fun w => w.ordersRejected venueId start stop)
  let itemsSold ← query (fun w => w.itemsSold venueId start stop)
  return report start stop visits ordersPlaced ordersRejected itemsSold

/-- The report on the database as it is. -/
def World.periodReport (w : World) (venueId : Id) (start stop : Time) : PeriodReport :=
  report start stop (w.takings venueId start stop) (w.ordersPlaced venueId start stop)
    (w.ordersRejected venueId start stop) (w.itemsSold venueId start stop)

/-- Undisturbed, the four queries see one database. -/
theorem periodReport_alone (w : World) (venueId : Id) (start stop : Time) :
    Alone (fun w' x => w' = w ∧ x = .ok (w.periodReport venueId start stop))
      (periodReport venueId start stop) w := by
  unfold periodReport
  exact alone_query (alone_query (alone_query (alone_query ⟨rfl, rfl⟩)))

/-! ## Sums over days -/

/-- The figures of some days, which are numbered back from the last, add up to those of
the whole span. -/
structure AddsUp (w : World) (venueId : Id) (bounds : ℕ → Time × Time) (n : ℕ) : Prop where
  settledKurus : ∑ i ∈ Finset.range (n + 1),
      (w.periodReport venueId (bounds i).1 (bounds i).2).settledKurus
    = (w.periodReport venueId (bounds n).1 (bounds 0).2).settledKurus
  settledVisits : ∑ i ∈ Finset.range (n + 1),
      (w.periodReport venueId (bounds i).1 (bounds i).2).settledVisits
    = (w.periodReport venueId (bounds n).1 (bounds 0).2).settledVisits
  ordersPlaced : ∑ i ∈ Finset.range (n + 1),
      (w.periodReport venueId (bounds i).1 (bounds i).2).ordersPlaced
    = (w.periodReport venueId (bounds n).1 (bounds 0).2).ordersPlaced
  ordersRejected : ∑ i ∈ Finset.range (n + 1),
      (w.periodReport venueId (bounds i).1 (bounds i).2).ordersRejected
    = (w.periodReport venueId (bounds n).1 (bounds 0).2).ordersRejected
  itemsSold : ∑ i ∈ Finset.range (n + 1),
      (w.periodReport venueId (bounds i).1 (bounds i).2).itemsSold
    = (w.periodReport venueId (bounds n).1 (bounds 0).2).itemsSold

/-- How many rows of a span there are. -/
theorem length_filter_eq_spanSum {ρ : Type} (base : ρ → Bool) (key : ρ → Option ℤ)
    (rows : List ρ) (start stop : Time) :
    (rows.filter fun r => base r && within start stop (key r)).length
      = spanSum base key (fun _ => 1) rows start stop := by
  unfold spanSum
  rw [List.map_const', List.sum_replicate_nat, Nat.mul_one]

/-- The takings, by what they come to. -/
theorem takings_eq_spanSum {M : Type} [AddCommMonoid M] (w : World) (venueId : Id)
    (f : TableVisit → M) (start stop : Time) :
    ((w.takings venueId start stop).map f).sum
      = spanSum (fun r : Id × TableVisit => r.2.venueId == venueId && r.2.status == .closed
          && r.2.closedReason == some .settled) (fun r => r.2.closedAt) (fun r => f r.2)
          w.tableVisits.rows start stop := by
  unfold World.takings Rows.filter spanSum
  rw [List.map_map]
  rfl

/-- An order's item is sold when the order is created. -/
theorem itemsSold_eq_spanSum (w : World) (venueId : Id) (start stop : Time) :
    w.itemsSold venueId start stop
      = spanSum (fun r : Id × OrderItem => (w.orders.get? r.2.orderId).any (fun o =>
          o.venueId == venueId && notVoid o.status))
          (fun r => (w.orders.get? r.2.orderId).map (fun o => o.createdAt)) (fun r => r.2.qty)
          w.orderItems.rows start stop := by
  unfold World.itemsSold Rows.filter spanSum
  congr 2
  refine List.filter_congr fun r _ => ?_
  dsimp only
  cases w.orders.get? r.2.orderId with
  | none => rfl
  | some o => rfl

/-- **The figures of spans in a row add up.** -/
theorem periodReport_addsUp (w : World) (venueId : Id) {bounds : ℕ → Time × Time} {n : ℕ}
    (h : Chain bounds n) : AddsUp w venueId bounds n where
  settledKurus := by
    unfold World.periodReport report
    dsimp only
    simp only [takings_eq_spanSum]
    exact spanSum_chain _ _ _ _ h
  settledVisits := by
    unfold World.periodReport report World.takings Rows.filter
    dsimp only
    simp only [List.length_map, length_filter_eq_spanSum]
    exact spanSum_chain _ _ _ _ h
  ordersPlaced := by
    unfold World.periodReport report World.ordersPlaced Rows.count Rows.filter
    dsimp only
    simp only [length_filter_eq_spanSum]
    exact spanSum_chain _ _ _ _ h
  ordersRejected := by
    unfold World.periodReport report World.ordersRejected Rows.count Rows.filter
    dsimp only
    simp only [length_filter_eq_spanSum]
    exact spanSum_chain _ _ _ _ h
  itemsSold := by
    unfold World.periodReport report
    dsimp only
    simp only [itemsSold_eq_spanSum]
    exact spanSum_chain _ _ _ _ h

/-! ## Cash and card -/

/-- A visit that is settled says how it was paid. -/
def TableVisit.Split (v : TableVisit) : Prop :=
  v.closedReason = some .settled → v.paymentMethod.isSome = true

def MethodsKept (w : World) : Prop := ∀ id v, w.tableVisits.get? id = some v → v.Split

/-- Visits that say how they were paid were paid in cash or by card. -/
theorem sum_methods {visits : List TableVisit}
    (h : ∀ v ∈ visits, v.paymentMethod.isSome = true) :
    ((visits.filter (fun v => v.paymentMethod == some .cash)).map amountOf).sum
        + ((visits.filter (fun v => v.paymentMethod == some .card)).map amountOf).sum
      = (visits.map amountOf).sum := by
  induction visits with
  | nil => rfl
  | cons v visits ih =>
    have hrest := ih fun u hu => h u (List.mem_cons_of_mem v hu)
    have hmethod := h v List.mem_cons_self
    rw [List.filter_cons, List.filter_cons, List.map_cons, List.sum_cons, ← hrest]
    cases hv : v.paymentMethod with
    | none =>
      rw [hv] at hmethod
      cases hmethod
    | some method =>
      cases method with
      | cash =>
        rw [if_pos (beq_self_eq_true _), if_neg (by decide), List.map_cons, List.sum_cons]
        omega
      | card =>
        rw [if_neg (by decide), if_pos (beq_self_eq_true _), List.map_cons, List.sum_cons]
        omega

/-- **Cash and card make up what was taken.** -/
theorem MethodsKept.split {w : World} (h : MethodsKept w) (venueId : Id) (start stop : Time) :
    (w.periodReport venueId start stop).cashKurus + (w.periodReport venueId start stop).cardKurus
      = (w.periodReport venueId start stop).settledKurus := by
  refine sum_methods fun v hv => ?_
  obtain ⟨r, hr, rfl⟩ := List.mem_map.mp hv
  obtain ⟨hget, hp⟩ := Rows.mem_filter.mp hr
  simp only [Bool.and_eq_true, beq_iff_eq] at hp
  exact h r.1 r.2 hget hp.1.2

/-- What a write makes of a visit says how it was paid, if the visit did. -/
def KeepsSplit (data : Time → TableVisit → TableVisit) : Prop :=
  ∀ now v, v.Split → (data now v).Split

/-- Every settled visit keeps saying how it was paid. -/
abbrev methodProtocol : Protocol visitServer where
  Inv := MethodsKept
  Evolves _ _ := True
  refl _ := trivial

theorem method_allows : AllowsHarmless methodProtocol :=
  fun _ _ _ _ _ _ hsame hw => ⟨fun id v hv => hw id v (hsame.tableVisits ▸ hv), trivial, trivial⟩

/-- An update whose data keeps the methods keeps them all. -/
theorem methodsKept_update {w w' : World} (h : MethodsKept w) (p : Id → TableVisit → Bool)
    {f : TableVisit → TableVisit} (hf : ∀ v, v.Split → (f v).Split)
    (hw : w'.tableVisits = w.tableVisits.update p f) : MethodsKept w' := by
  intro id u hu
  rw [hw, Rows.get?_update] at hu
  obtain ⟨v, hv, rfl⟩ := Option.map_eq_some_iff.mp hu
  split
  · exact hf v (h id v hv)
  · exact h id v hv

theorem takes_keepsSplit {r : VisitRequest} (v : View api World) (w : World) (c : Choice)
    (op : Call) (hop : op.VisitData KeepsSplit KeepsSplit) (hw : MethodsKept w) :
    methodProtocol.Takes r v ⟨op, w, (World.exec c op w).1⟩ := by
  rcases visitData_cases hop with ⟨id, data, rfl, hdata⟩
    | ⟨id, data, orderIds, provider, sessionIds, rfl, hdata⟩ | hharmless
  · refine ⟨?_, trivial, trivial⟩
    show MethodsKept (w.tableVisitUpdate id data).1
    unfold World.tableVisitUpdate
    split
    · exact hw
    · exact methodsKept_update hw (fun k _ => k == id) (hdata w.now) rfl
  · refine ⟨?_, trivial, trivial⟩
    show MethodsKept (w.settleTransaction id data orderIds provider sessionIds).1
    rcases settleTransaction_cases (Prod.mk.eta (p := w.settleTransaction id data orderIds
      provider sessionIds)).symm with h | ⟨u, _, _, _, h⟩
    · rw [h.1]
      exact hw
    · exact methodsKept_update hw _ (hdata w.now) (congrArg World.tableVisits h)
  · exact method_allows.exec hharmless c hw

/-- **The requests keep the methods.** -/
theorem methodSound : methodProtocol.Sound (fun _ _ _ => True) where
  env e w hw := by
    cases e with
    | tick ms => exact ⟨hw, trivial⟩
    | crash => exact ⟨hw, trivial⟩
  entry r w hw := by
    have hwork : ∀ {α : Type} (p : Api α) (f : α → VisitAnswer),
        p.Calls (Call.VisitData KeepsSplit KeepsSplit) (fun _ => True) →
        methodProtocol.Ok r (fun _ _ => True) ⟨w, []⟩ (f <$> p) :=
      fun p f hp => Protocol.ok_map (Protocol.ok_mono (Protocol.ok_of_calls hp
        (fun v w c op hop hw _ => takes_keepsSplit v w c op hop hw)) (fun _ _ _ => trivial))
    cases r with
    | requestBill visitId venueId =>
      exact hwork _ _ (requestBill_data visitId venueId (fun _ _ hv => hv))
    | clearBillRequest visitId venueId =>
      exact hwork _ _ (clearBillRequest_data visitId venueId (fun _ _ hv => hv))
    | settle visitId venueId input =>
      -- the settlement records its method
      exact hwork _ _ (settleVisit_data visitId venueId (fun _ _ _ _ _ => rfl))
    | sweep =>
      -- what the sweep closes is not settled
      exact hwork _ _ (closeAbandonedVisits_data (fun _ _ _ _ h => nomatch h))

/-- **Takings reconcile**: whatever requests wrote the visits, cash and card make up what was
taken in any period; and of days in a row, as far as dates reach, each begins as the next one
ends, they share no instant and leave none out, and their reports add up to the report over
all of them. -/
theorem takings_reconcile (w₀ : World) (h₀ : MethodsKept w₀) (acts : List visitServer.Action)
    (venueId : Id) :
    (∀ start stop, ((visitRun w₀ acts).world.periodReport venueId start stop).cashKurus
        + ((visitRun w₀ acts).world.periodReport venueId start stop).cardKurus
      = ((visitRun w₀ acts).world.periodReport venueId start stop).settledKurus)
    ∧ ∀ (offset now : Time) (k : ℤ) (n : ℕ) (bounds : ℕ → Time × Time),
      (∀ i ≤ n, dayBounds offset now (k + i) = some (bounds i)) →
        Chain bounds n
        ∧ (∀ t, (bounds n).1 ≤ t → t < (bounds 0).2 →
          ∃! i, i ≤ n ∧ (bounds i).1 ≤ t ∧ t < (bounds i).2)
        ∧ AddsUp (visitRun w₀ acts).world venueId bounds n := by
  refine ⟨fun start stop => ?_, fun offset now k n bounds hdays => ?_⟩
  · exact (methodSound.run h₀ (methodProtocol.meets_cond (fun _ _ _ _ _ => rfl) _ acts)).inv.split
      venueId start stop
  · have hchain := days_chain hdays
    exact ⟨hchain, fun t => hchain.once, periodReport_addsUp _ venueId hchain⟩

/-- A table pays 25 lira in cash. -/
def paidInCash : List visitServer.Action :=
  .arrive (.settle 0 0 ⟨.cash, some 2500, 0, false⟩) :: List.replicate 7 (.step 0 plain)

/-- Days where local time is three hours ahead, the last one first. -/
def lastDays (i : ℕ) : Time × Time := (-10800000 - i * 86400000, 75600000 - i * 86400000)

/-- The report on the hour of that payment, and on three days. -/
theorem takings_reconcile_cash :
    ((visitRun tableOpen paidInCash).world.periodReport 0 0 3600000).settledKurus = 2500
      ∧ ((visitRun tableOpen paidInCash).world.periodReport 0 0 3600000).cashKurus
          + ((visitRun tableOpen paidInCash).world.periodReport 0 0 3600000).cardKurus = 2500
      ∧ (∀ i ≤ 2, dayBounds 10800000 0 (0 + (i : ℕ)) = some (lastDays i))
      ∧ AddsUp (visitRun tableOpen paidInCash).world 0 lastDays 2 := by
  have hkept : MethodsKept tableOpen := by
    intro id v hv
    cases List.mem_singleton.mp (Rows.get?_eq_some_iff.mp hv)
    intro h
    cases h
  have hall := takings_reconcile tableOpen hkept paidInCash 0
  have hdays : ∀ i ≤ 2, dayBounds 10800000 0 (0 + (i : ℕ)) = some (lastDays i) := by decide
  refine ⟨by decide, (hall.1 0 3600000).trans (by decide), hdays, ?_⟩
  exact (hall.2 10800000 0 0 2 lastDays hdays).2.2

end Masadan
