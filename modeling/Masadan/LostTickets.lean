import Masadan.LastPaper

/-!
# No ticket is lost

An acceptance and its ticket are two commits, and between them there is only a
job in the process. Here any database call may fail, and the process may die
and be started again. What the outbox holds survives, and the sweep finds it;
what a job has not yet written dies with the job, or with the call it makes.

So an accepted order has a delivery once nothing of it is on its way, *if* no
call of a job fails before its delivery is written and no crash comes between
the acceptance and the writing (`no_ticket_lost`). Nothing sees to that, and
the sweep looks at deliveries only: `no_ticket_lost_fails` is one crash.
-/

namespace Masadan

/-- The outbox has a delivery of the order, whatever its status. -/
def World.Delivered (w : World) (id : Id) : Prop :=
  ∃ k d, w.posDeliveries.get? k = some d ∧ d.orderId = id

theorem delivered_of_lastPaper {w : World} {id : Id} (h : (w.lastPaper id).isSome = true) :
    w.Delivered id := by
  rw [← hasDeliveries_eq] at h
  obtain ⟨⟨k, d⟩, hfind⟩ := Option.isSome_iff_exists.mp h
  obtain ⟨hget, hid⟩ := Rows.find?_eq_some hfind
  exact ⟨k, d, hget, beq_iff_eq.mp hid⟩

/-- **What is asked of the calls of a job**: its reading and its writing do not fail
while the order has no delivery. -/
def writesFirst (id : Id) (r : KitchenRequest) (v : View api World) (c : Choice) (op : Call)
    (w : World) : Bool :=
  match op with
  | .posDeliveryCreate data =>
    decide (data.orderId = id → c.fault = true → (w.lastPaper id).isSome = true)
  | .query _ =>
    match r, v.past with
    | .enqueue j, [] => decide (j.orderId = id → c.fault = true → (w.lastPaper id).isSome = true)
    | _, _ => true
  | _ => true

/-- The protocol under that condition. -/
abbrev ticketProtocol (id : Id) : Protocol (kitchenServer true) :=
  kitchenProtocol true id (writesFirst id)

/-- **What is asked of a run**: that of the jobs, and that no crash comes between an
acceptance and the writing of the order's first delivery. -/
def ticketsSurvive (id : Id) (p : (kitchenServer true).Pool) (a : (kitchenServer true).Action) :
    Bool :=
  (ticketProtocol id).cond p a && match a with
    | .env .crash => (p.world.lastPaper id).isSome
      || p.threads.all (fun t => ticketOwed t.req t.view t.prog != some id)
    | _ => true

theorem ticketPayable (id : Id) :
    Payable true id (writesFirst id) (fun w => (w.lastPaper id).isSome = true) where
  frame w w' hs hp := by
    rw [hs.paper]
    exact hp
  written r v c w data o amendment _ hid _ _ := by
    rw [lastPaper_create, if_pos hid]
    rfl
  corrected r v c w w' venueId o input plan entry ho hplan hg hedit hp := by
    rcases orderEditTransaction_cases hedit with ⟨_, hfalse⟩ | ⟨_, _, _, _, _, _, _, _, hdeliveries, _⟩
    · cases hfalse
    · refine .inl ?_
      unfold World.lastPaper
      rw [hdeliveries]
      exact hp
  read_fails j b c q w hid hg hf := of_decide_eq_true hg hid hf
  write_fails r v c data w hid hg hf := of_decide_eq_true hg hid hf

theorem ticketSolvent (id : Id) :
    (ticketProtocol id).Solvent (ticketDebt true id (fun w => (w.lastPaper id).isSome = true))
      (ticketsSurvive id) := by
  refine kitchen_solvent (ticketPayable id) (fun p a h => (Bool.and_eq_true_iff.mp h).1)
    (fun p hp _ hc => ?_)
  rcases Bool.or_eq_true_iff.mp (Bool.and_eq_true_iff.mp hp).2 with hpaper | hnobody
  · exact hpaper
  · refine hc.paid (fun t ht howes => ?_)
    have hnot := List.all_eq_true.mp hnobody t ht
    rw [bne_iff_ne] at hnot
    exact hnot howes

/-- **No accepted order is lost to the kitchen.** In every run in which calls fail and
the process crashes, but not those of a job before its writing nor between an
acceptance and the writing, an order that was accepted at some moment has a
delivery whenever no ticket of it is on its way. -/
theorem no_ticket_lost (w₀ : World) (acts : List (kitchenServer true).Action) (id : Id)
    (h₀ : w₀.Readable id)
    (hfirst : ∀ o, w₀.orders.get? id = some o → o.status = .accepted →
      (w₀.lastPaper id).isSome = true)
    (hm : Sys.Pool.Meets (ticketsSurvive id) (Sys.Pool.init w₀) acts = true)
    (haccepted : ∃ pre post o, acts = pre ++ post
      ∧ (kitchenRun true w₀ pre).world.orders.get? id = some o ∧ o.status = .accepted)
    (hnone : ∀ t ∈ (kitchenRun true w₀ acts).threads,
      ticketOwed t.req t.view t.prog ≠ some id) :
    (kitchenRun true w₀ acts).world.Delivered id := by
  obtain ⟨pre, post, o, rfl, ho, hs⟩ := haccepted
  have hcovered := (ticketSolvent id).covered h₀ (fun ⟨o, ho, hs⟩ => hfirst o ho hs) hm ⟨o, ho, hs⟩
  exact delivered_of_lastPaper (hcovered.paid hnone)

/-! ### A crash after the acceptance -/

/-- The order is accepted; the process dies before the job has read anything; it is
started again, and the sweep runs. -/
def crashed : List (kitchenServer true).Action :=
  [.arrive accept, .step 0 plain, .step 0 plain, .step 0 plain, .env .crash, .arrive .sweep]
    ++ List.replicate 5 (.step 0 plain)

/-- **A ticket can be lost**: after a restart and a sweep, with nothing in flight, an
accepted order has no delivery. -/
theorem no_ticket_lost_fails :
    ¬ ∀ (w₀ : World) (acts : List (kitchenServer true).Action) (id : Id), w₀.Readable id →
      (∀ o, w₀.orders.get? id = some o → o.status = .received) →
      (∃ pre post o, acts = pre ++ post
        ∧ (kitchenRun true w₀ pre).world.orders.get? id = some o ∧ o.status = .accepted) →
      (∃ t ∈ (kitchenRun true w₀ acts).threads, t.req = .sweep) →
      (kitchenRun true w₀ acts).Quiet → (kitchenRun true w₀ acts).world.Delivered id := by
  intro h
  have hempty : (kitchenRun true oneOrder crashed).world.posDeliveries.rows = [] := by decide
  have hquiet : (kitchenRun true oneOrder crashed).Quiet := Sys.Pool.quiet_of_all (by decide)
  have haccepted : ((kitchenRun true oneOrder (crashed.take 3)).world.orders.get? 0).map
      (fun o => o.status) = some .accepted := by decide
  obtain ⟨o₁, ho₁, hs₁⟩ := Option.map_eq_some_iff.mp haccepted
  have hreceived : ∀ o, oneOrder.orders.get? 0 = some o → o.status = .received := by
    intro o ho
    cases ho
    rfl
  obtain ⟨k, d, hd, _⟩ := h oneOrder crashed 0 rfl hreceived
    ⟨crashed.take 3, crashed.drop 3, o₁, (List.take_append_drop 3 _).symm, ho₁, hs₁⟩
    ⟨_, List.mem_singleton.mpr rfl, rfl⟩ hquiet
  have hmem := Rows.get?_eq_some_iff.mp hd
  rw [hempty] at hmem
  cases hmem

/-- No ticket is lost to a crash while the delivery is being pushed, nor to a sweep whose
first update fails. -/
theorem no_ticket_lost_pushed : (kitchenRun true oneOrder
    ([.arrive accept] ++ List.replicate 4 (.step 0 plain) ++ List.replicate 3 (.step 1 plain)
      ++ [.env .crash, .arrive .sweep, .step 0 plain, .step 0 ⟨true, false⟩, .arrive .sweep]
      ++ List.replicate 7 (.step 1 plain))).world.Delivered 0 := by
  refine no_ticket_lost oneOrder _ 0 rfl (fun o ho hs => ?_) (by decide) ?_
    (Debt.nobody_of_quiet (D := ticketDebt true 0 (fun w => (w.lastPaper 0).isSome = true))
      (Sys.Pool.quiet_of_all (by decide)))
  · cases ho
    cases hs
  · exact ⟨[.arrive accept, .step 0 plain, .step 0 plain], _,
      ⟨0, 0, 0, some 0, 1, .accepted, none, 200, .unpaid, none, none, 0⟩, rfl, by decide, rfl⟩

end Masadan
