import Masadan.Kitchen

/-!
# The kitchen's last paper

Several jobs may write tickets of one order: the acceptance's, and one for each
correction. Each reads the order at its own time and writes at its own time,
and the kitchen works from the paper that came last.

It is right when every ticket is still true when it is written, and every
correction notices the paper that is there when it commits
(`last_paper_right`). Neither is checked: a correction looks for paper when it
reads the order, and a job may be overtaken by a correction between its reading
and its writing (`last_paper_right_fails`).
-/

namespace Masadan

/-- **The order's last paper is right**: it was rendered from the order's live lines
and its total as they are. -/
def World.PaperRight (w : World) (id : Id) : Prop :=
  ∃ o paper, w.orders.get? id = some o ∧ w.lastPaper id = some paper
    ∧ paper.ticket.lines = (w.liveItems id).map (fun i => i.2.ticketLine)
    ∧ paper.ticket.totalKurus = o.totalKurus

/-- The lines and the total of the order, as a ticket would have them. -/
def World.onTicket (w : World) (id : Id) : List (Id × OrderItem) × Option ℤ :=
  (w.liveItems id, (w.orders.get? id).map (fun o => o.totalKurus))

/-- The transaction of an edit would commit: the lines it changes are as it read them,
and the order is still editable. -/
def World.WouldCommit (w : World) (orderId : Id) (statuses : List OrderStatus)
    (edits : List LineEdit) : Prop :=
  stillAsRead w edits ∧ ∃ o ∈ w.orders.get? orderId, o.status ∈ statuses

instance (w : World) (orderId : Id) (statuses : List OrderStatus) (edits : List LineEdit) :
    Decidable (w.WouldCommit orderId statuses edits) :=
  inferInstanceAs (Decidable (_ ∧ ∃ o ∈ w.orders.get? orderId, o.status ∈ statuses))

/-- **What is asked of the order's tickets and corrections.** A job writes its ticket
while the order is as it read it; and when a correction commits, there is paper
of the order if and only if there was when it read the order. -/
def paperUpToDate (id : Id) (v : View api World) (op : Call) (w : World) : Bool :=
  match op with
  | .posDeliveryCreate data =>
    decide (data.orderId = id → v.since.onTicket id = w.onTicket id)
  | .orderEditTransaction orderId statuses edits _ _ =>
    decide (orderId = id → w.WouldCommit id statuses edits →
      (v.since.lastPaper id).isSome = (w.lastPaper id).isSome)
  | _ => true

/-- The protocol under that condition. -/
abbrev paperProtocol (id : Id) : Protocol (kitchenServer false) :=
  kitchenProtocol false id (fun _ v _ op w => paperUpToDate id v op w)

/-- What a job reads. -/
theorem orderToEnqueue_spec {w : World} {id : Id} {o : OrderForTicket}
    (h : w.orderToEnqueue id = some o) :
    w.orders.get? id = some o.order ∧ o.items = (w.liveItems id).map Prod.snd := by
  unfold World.orderToEnqueue World.orderForTicket at h
  split at h
  · cases h
  · next order horder =>
    split at h
    · cases h
      exact ⟨horder, rfl⟩
    · cases h

/-- A correction that commits would. -/
theorem wouldCommit_of_edit {w w' w₁ : World} {id venueId : Id} {o : OrderForEdit}
    {input : OrderEditInput} {plan : EditPlan} {entry : NewOrderEdit}
    (ho : w₁.orderForEdit id venueId = some o) (hplan : planEdit o input = .ok plan)
    (hedit : w.orderEditTransaction id EDITABLE_STATUSES plan.edits plan.totalKurus entry
      = (w', true)) : w.WouldCommit id EDITABLE_STATUSES plan.edits := by
  rcases orderEditTransaction_cases hedit with ⟨_, hfalse⟩ | ⟨items, order, _, happ, horder, hstatus, _⟩
  · cases hfalse
  · exact ⟨stillAsRead_of_applyEdits ho hplan happ, order, horder, hstatus⟩

theorem paperPayable (id : Id) :
    Payable false id (fun _ v _ op w => paperUpToDate id v op w) (fun w => w.PaperRight id) where
  frame w w' hs hp := by
    obtain ⟨o, paper, ho, hpaper, hlines, htotal⟩ := hp
    have hmap := hs.total
    rw [ho, Option.map_some] at hmap
    obtain ⟨o', ho', heq⟩ := Option.map_eq_some_iff.mp hmap
    exact ⟨o', paper, ho', hs.paper.trans hpaper, hs.lines ▸ hlines, htotal.trans heq.symm⟩
  written r v c w data o amendment hread hid hticket hg := by
    obtain ⟨hlines, htotal⟩ := Prod.mk.inj (of_decide_eq_true hg hid)
    obtain ⟨horder, hitems⟩ := orderToEnqueue_spec hread
    rw [horder, Option.map_some] at htotal
    obtain ⟨o', ho', heq⟩ := Option.map_eq_some_iff.mp htotal.symm
    refine ⟨o', data.payload, ho', ?_, ?_, ?_⟩
    · rw [lastPaper_create, if_pos hid]
    · rw [hticket]
      show o.items.map OrderItem.ticketLine = (w.liveItems id).map _
      rw [hitems, hlines, List.map_map]
      rfl
    · rw [hticket]
      exact heq.symm
  corrected r v c w w' venueId o input plan entry ho hplan hg hedit hp := by
    obtain ⟨_, paper, _, hpaper, _⟩ := hp
    have hseen := of_decide_eq_true hg rfl (wouldCommit_of_edit ho hplan hedit)
    rw [hpaper, Option.isSome_some] at hseen
    obtain ⟨row, _, rfl⟩ := Option.map_eq_some_iff.mp ho
    refine .inr ((planEdit_spec hplan).2.2.2.trans ?_)
    show (v.since.posDeliveries.find? _).isSome = true
    rw [hasDeliveries_eq]
    exact hseen
  read_fails j b c q w _ _ hf := by cases hf
  write_fails r v c data w _ _ hf := by cases hf

theorem paperSolvent (id : Id) :
    (paperProtocol id).Solvent (ticketDebt false id (fun w => w.PaperRight id))
      (paperProtocol id).cond :=
  kitchen_solvent (paperPayable id) (fun _ _ h => h) (fun _ _ hrough => by cases hrough)

/-- **The last paper is right.** In every run in which jobs write what they read and
corrections notice the paper that is there, an order that was accepted at some
moment, or had its right paper at first, has a right last paper whenever no
ticket of it is on its way. -/
theorem last_paper_right (w₀ : World) (acts : List (kitchenServer false).Action) (id : Id)
    (h₀ : w₀.Readable id)
    (hfirst : ∀ o, w₀.orders.get? id = some o → o.status = .accepted → w₀.PaperRight id)
    (hm : Sys.Pool.Meets (paperProtocol id).cond (Sys.Pool.init w₀) acts = true)
    (haccepted : w₀.PaperRight id ∨ ∃ pre post o, acts = pre ++ post
      ∧ (kitchenRun false w₀ pre).world.orders.get? id = some o ∧ o.status = .accepted)
    (hnone : ∀ t ∈ (kitchenRun false w₀ acts).threads,
      ticketOwed t.req t.view t.prog ≠ some id) :
    (kitchenRun false w₀ acts).world.PaperRight id := by
  have hS := paperSolvent id
  have hcovered : (ticketDebt false id (fun w => w.PaperRight id)).Covered
      (kitchenRun false w₀ acts) := by
    rcases haccepted with hright | ⟨pre, post, o, rfl, ho, hs⟩
    · exact (Protocol.PoolHonest.init h₀).covered_run hS (.inl hright) hm
    · exact hS.covered h₀ (fun ⟨o, ho, hs⟩ => hfirst o ho hs) hm ⟨o, ho, hs⟩
  exact hcovered.paid hnone

/-! ### A correction between the job's reading and its own commit -/

/-- One order of two dishes, received. -/
def oneOrder : World :=
  { kitchenOpen with
    orders := Rows.ofList [⟨0, 0, 0, some 0, 1, .received, none, 200, .unpaid, none, none, 0⟩]
    orderItems := Rows.ofList [⟨0, some 0, [], 100, 2, [], [], none⟩] }

/-- The desk accepts the order. -/
def accept : KitchenRequest := .patch (some ⟨0, 0, []⟩) 0 ⟨some .accepted, none⟩

/-- The desk takes one of the dishes off. -/
def takeOff : KitchenRequest := .items (some ⟨0, 0, []⟩) 0 (some [(0, 1)])

/-- The order is accepted; the correction reads it, and finds no paper; the job reads
it and writes its ticket; the correction commits. -/
def overtaken : List (kitchenServer false).Action :=
  [.arrive accept, .step 0 plain, .step 0 plain, .step 0 plain, .step 0 plain]
    ++ [.arrive takeOff, .step 2 plain] ++ List.replicate 4 (.step 1 plain)
    ++ [.step 2 plain, .step 2 plain]

/-- **The last paper can be wrong** when everything has come to its end. -/
theorem last_paper_right_fails :
    ¬ ∀ (w₀ : World) (acts : List (kitchenServer false).Action) (id : Id), w₀.Readable id →
      (∀ o, w₀.orders.get? id = some o → o.status = .received) →
      (∃ pre post o, acts = pre ++ post
        ∧ (kitchenRun false w₀ pre).world.orders.get? id = some o ∧ o.status = .accepted) →
      (kitchenRun false w₀ acts).Quiet → (kitchenRun false w₀ acts).world.PaperRight id := by
  intro h
  have hpaper : ((kitchenRun false oneOrder overtaken).world.lastPaper 0).map
      (fun p => p.ticket.totalKurus) = some 200 := by decide
  have htotal : ((kitchenRun false oneOrder overtaken).world.orders.get? 0).map
      (fun o => o.totalKurus) = some 100 := by decide
  have hquiet : (kitchenRun false oneOrder overtaken).Quiet := Sys.Pool.quiet_of_all (by decide)
  have haccepted : ((kitchenRun false oneOrder (overtaken.take 3)).world.orders.get? 0).map
      (fun o => o.status) = some .accepted := by decide
  obtain ⟨o₁, ho₁, hs₁⟩ := Option.map_eq_some_iff.mp haccepted
  have hreceived : ∀ o, oneOrder.orders.get? 0 = some o → o.status = .received := by
    intro o ho
    cases ho
    rfl
  obtain ⟨o, paper, ho, hlast, _, hsame⟩ := h oneOrder overtaken 0 rfl hreceived
    ⟨overtaken.take 3, overtaken.drop 3, o₁, (List.take_append_drop 3 _).symm, ho₁, hs₁⟩ hquiet
  rw [hlast, Option.map_some, hsame] at hpaper
  rw [ho, Option.map_some, Option.some.inj hpaper] at htotal
  exact absurd htotal (by decide)

/-- The last paper is right after an acceptance, its ticket, a correction and its
amendment. -/
theorem last_paper_right_amended : (kitchenRun false oneOrder
    ([.arrive accept] ++ List.replicate 4 (.step 0 plain) ++ List.replicate 4 (.step 1 plain)
      ++ [.arrive takeOff] ++ List.replicate 4 (.step 2 plain)
      ++ List.replicate 4 (.step 3 plain))).world.PaperRight 0 := by
  refine last_paper_right oneOrder _ 0 rfl (fun o ho hs => ?_) (by decide) (.inr ?_)
    (Debt.nobody_of_quiet (D := ticketDebt false 0 (fun w => w.PaperRight 0))
      (Sys.Pool.quiet_of_all (by decide)))
  · cases ho
    cases hs
  · exact ⟨[.arrive accept, .step 0 plain, .step 0 plain], _,
      ⟨0, 0, 0, some 0, 1, .accepted, none, 200, .unpaid, none, none, 0⟩, rfl, by decide, rfl⟩

end Masadan
