import Masadan.Handlers

/-!
# The law of order statuses

Two routes write an order's status: the desk's `PATCH`, along its transition
graph, and the customer's cancel, from `received` to `cancelled`. The law is
that every committed change follows an edge of the two together, so that
`served`, `rejected` and `cancelled` are final and a customer is never told
that an order is withdrawn which the desk accepted.

The cancel keeps the law by itself: its update names the status it expects.
The desk's update names only the order. It is right when the status is still
the one the request read, and `transitions_law` is that case, over every
interleaving; when the status has moved on in between, it moves the order
from wherever it now is, and `transitions_law_fails` is a customer's
withdrawal undone by an acceptance.
-/

namespace Masadan

open Relation

/-! ## The graph -/

/-- **The edges a status may move along**: the desk's, and the customer's
withdrawal. -/
def Edge (s t : OrderStatus) : Prop :=
  t ∈ transitions s ∨ (s = CUSTOMER_CANCELLABLE ∧ t = .cancelled)

instance : DecidableRel Edge := fun _ _ => inferInstanceAs (Decidable (_ ∨ _))

/-- The statuses no edge leaves. -/
def Final (s : OrderStatus) : Prop := ∀ t, ¬ Edge s t

theorem final_iff (s : OrderStatus) :
    Final s ↔ s = .served ∨ s = .rejected ∨ s = .cancelled := by
  constructor
  · intro h
    cases s with
    | received => exact absurd (by decide) (h .accepted)
    | accepted => exact absurd (by decide) (h .ready)
    | preparing => exact absurd (by decide) (h .ready)
    | ready => exact absurd (by decide) (h .served)
    | served => exact .inl rfl
    | rejected => exact .inr (.inl rfl)
    | cancelled => exact .inr (.inr rfl)
  · rintro (rfl | rfl | rfl) t <;> cases t <;> decide

/-- No path leaves a final status. -/
theorem Final.eq_of_path {s t : OrderStatus} (hs : Final s) (h : ReflTransGen Edge s t) :
    t = s := by
  induction h with
  | refl => rfl
  | tail _ hstep ih => exact absurd (ih ▸ hstep) (hs _)

/-- **Only an order nobody has taken can be withdrawn**: a path to `cancelled`
starts at `received`, or is there already. -/
theorem path_to_cancelled {s : OrderStatus} (h : ReflTransGen Edge s .cancelled) :
    s = .received ∨ s = .cancelled := by
  rcases ReflTransGen.cases_tail h with h | ⟨t, hpath, hedge⟩
  · exact .inr h.symm
  · have ht : t = .received := by cases t <;> revert hedge <;> decide
    subst ht
    rcases ReflTransGen.cases_tail hpath with h | ⟨u, _, hedge'⟩
    · exact .inl h.symm
    · exact absurd hedge' (by cases u <;> decide)

/-! ## The requests -/

/-- The requests the law is about, with the job an acceptance leaves
running. -/
inductive StatusRequest where
  | patch (staff : Option StaffClaims) (id : Id) (body : PatchBody)
  | cancel (cookie : Option ℕ) (caller : Caller) (id : Id)
  | enqueue (job : Job)

inductive StatusAnswer where
  | patch (a : PatchAnswer)
  | cancel (a : CancelAnswer)
  | done

def StatusRequest.prog : StatusRequest → Api StatusAnswer
  | .patch staff id body => StatusAnswer.patch <$> patchOrder staff id body
  | .cancel cookie caller id => StatusAnswer.cancel <$> cancelOrder cookie caller id
  | .enqueue job => (fun _ => StatusAnswer.done) <$> enqueuePosDelivery job.orderId job.amendment

def StatusRequest.external : StatusRequest → Bool
  | .enqueue _ => false
  | _ => true

/-- The server serving these requests. -/
abbrev statusServer : Sys api :=
  server StatusRequest.prog StatusRequest.external (fun job => [.enqueue job]) false

/-- An order's status. -/
def World.statusOf (w : World) (id : Id) : Option OrderStatus :=
  (w.orders.get? id).map (fun o => o.status)

/-- A run of the desk and the customers, from a world. -/
abbrev statusRun (w₀ : World) (acts : List statusServer.Action) : statusServer.Pool :=
  (Sys.Pool.init (Y := statusServer) w₀).run acts

/-- **The law**, for one order over one run. -/
structure StatusLaw (w₀ : World) (id : Id) (acts : List statusServer.Action) : Prop where
  /-- Every committed change follows an edge. -/
  edges : ∀ pre a post, acts = pre ++ a :: post → ∀ s,
    (statusRun w₀ pre).world.statusOf id = some s →
    ∃ s', (statusRun w₀ (pre ++ [a])).world.statusOf id = some s' ∧ (s' = s ∨ Edge s s')
  /-- Final statuses are never left. -/
  final : ∀ pre post, acts = pre ++ post → ∀ s, (statusRun w₀ pre).world.statusOf id = some s →
    s = .served ∨ s = .rejected ∨ s = .cancelled →
    (statusRun w₀ acts).world.statusOf id = some s
  /-- A cancel that answered ok and an accept or a reject that answered ok never
  both happen. -/
  exclusive : ∀ cookie caller staff body s, s = .accepted ∨ s = .rejected →
    (statusRun w₀ acts).Answered (.cancel cookie caller id) (.cancel .ok) →
    ¬ (statusRun w₀ acts).Answered (.patch staff id body) (.patch (.ok s))

/-! ## The protocol -/

/-- Every order's status stays, or moves along an edge. -/
def StatusMoves (w w' : World) : Prop :=
  ∀ id s, w.statusOf id = some s → ∃ s', w'.statusOf id = some s' ∧ (s' = s ∨ Edge s s')

theorem StatusMoves.of_orders_eq {w w' : World} (h : w'.orders = w.orders) :
    StatusMoves w w' := by
  intro id s hs
  refine ⟨s, ?_, .inl rfl⟩
  rw [World.statusOf, h]
  exact hs

/-- **The desk acts on what it read**: when an order's row is updated by id, its
status is the one the request last saw. -/
def actsOnWhatItRead (v : View api World) (op : Call) (w : World) : Bool :=
  match op with
  | .orderUpdate id _ => v.since.statusOf id == w.statusOf id
  | _ => true

/-- What the programs promise each other: statuses move along edges, given that
the desk acts on what it read. -/
abbrev statusProtocol : Protocol statusServer where
  Inv _ := True
  Evolves := StatusMoves
  refl _ := StatusMoves.of_orders_eq rfl
  Guard _ v _ op w := actsOnWhatItRead v op w

/-- Over any number of steps a status moves along a path. -/
theorem rely_status {w w' : World} (h : statusProtocol.Rely w w') {id : Id} {s : OrderStatus}
    (hs : w.statusOf id = some s) :
    ∃ s', w'.statusOf id = some s' ∧ ReflTransGen Edge s s' := by
  refine h.stable (D := fun u : World => ∃ s', u.statusOf id = some s' ∧ ReflTransGen Edge s s') ?_
    ⟨s, hs, .refl⟩
  rintro u u' hstep ⟨t, ht, hpath⟩
  obtain ⟨t', ht', hmove⟩ := hstep id t ht
  rcases hmove with rfl | hedge
  · exact ⟨t', ht', hpath⟩
  · exact ⟨t', ht', hpath.tail hedge⟩

theorem status_allows : AllowsHarmless statusProtocol :=
  fun _ _ _ _ _ _ h _ => ⟨trivial, StatusMoves.of_orders_eq h.orders, trivial⟩

/-! ## Each handler keeps it -/

/-- From the status a handler reports, the order has only moved along edges. -/
def Since (id : Id) (s : OrderStatus) (v : View api World) : Prop :=
  ∃ s', v.since.statusOf id = some s' ∧ ReflTransGen Edge s s'

/-- What the desk's answer promises about the order. -/
def patchPost (id : Id) (v : View api World) : Except DbError PatchAnswer → Prop
  | .ok (.ok s) => Since id s v
  | _ => True

/-- What the customer's answer promises about the order. -/
def cancelPost (id : Id) (v : View api World) : Except DbError CancelAnswer → Prop
  | .ok .ok => Since id .cancelled v
  | _ => True

theorem statusOf_eq_some {w : World} {id : Id} {s : OrderStatus} :
    w.statusOf id = some s ↔ ∃ o, w.orders.get? id = some o ∧ o.status = s :=
  Option.map_eq_some_iff

/-- Updating the orders moves statuses along edges when it does so for every
order it matches. -/
theorem statusMoves_update {w : World} {p : Id → Order → Bool} {f : Order → Order}
    (h : ∀ id o, w.orders.get? id = some o → p id o = true → Edge o.status (f o).status) :
    StatusMoves w { w with orders := w.orders.update p f } := by
  intro id s hs
  obtain ⟨o, ho, rfl⟩ := statusOf_eq_some.mp hs
  refine ⟨(if p id o then f o else o).status, statusOf_eq_some.mpr ⟨_, ?_, rfl⟩, ?_⟩
  · show (w.orders.update p f).get? id = _
    rw [Rows.get?_update, ho]
    rfl
  · by_cases hp : p id o = true
    · rw [if_pos hp]
      exact .inr (h id o ho hp)
    · rw [if_neg hp]
      exact .inl rfl

/-- The desk's update, along its graph from the status the order has. -/
theorem orderUpdate_moveTo {w w' : World} {id : Id} {s t : OrderStatus} {reason : Option Text}
    {x : Except DbError Order} (hs : w.statusOf id = some s)
    (ht : (transitions s).contains t = true)
    (hx : w.orderUpdate id (moveTo t reason) = (w', x)) :
    ∃ o, x = .ok o ∧ o.status = t ∧ StatusMoves w w' ∧ w'.statusOf id = some t := by
  obtain ⟨o, ho, rfl⟩ := statusOf_eq_some.mp hs
  unfold World.orderUpdate at hx
  rw [ho] at hx
  obtain ⟨rfl, rfl⟩ := Prod.mk.inj hx
  refine ⟨_, rfl, rfl, statusMoves_update (fun k o' ho' hk => ?_),
    statusOf_eq_some.mpr ⟨moveTo t reason o, ?_, rfl⟩⟩
  · rw [beq_iff_eq.mp hk, ho] at ho'
    cases ho'
    exact .inl (List.contains_iff_mem.mp ht)
  · show (w.orders.updateAt id (moveTo t reason)).get? id = _
    rw [Rows.get?_updateAt, ho]
    simp

/-- The customer's update: it withdraws the order if nobody has taken it, and says
whether it did. -/
theorem withdraw_moves (w : World) (id : Id) :
    StatusMoves w { w with orders := w.orders.update (withdrawable id) withdrawn }
      ∧ (w.orders.count (withdrawable id) ≠ 0 →
        World.statusOf { w with orders := w.orders.update (withdrawable id) withdrawn } id
          = some .cancelled) := by
  refine ⟨statusMoves_update (fun k o _ hk => .inr ⟨?_, rfl⟩), fun hcount => ?_⟩
  · exact beq_iff_eq.mp (Bool.and_eq_true_iff.mp hk).2
  · obtain ⟨k, o, ho, hsel⟩ := Rows.exists_of_count hcount
    have hk : k = id := beq_iff_eq.mp (Bool.and_eq_true_iff.mp hsel).1
    subst hk
    refine statusOf_eq_some.mpr ⟨withdrawn o, ?_, rfl⟩
    show (w.orders.update _ _).get? k = _
    rw [Rows.get?_update, ho, Option.map_some, if_pos hsel]

/-- What a handler does after its write is harmless, and the order moves on
along edges meanwhile. -/
theorem ok_report {r : StatusRequest} {v : View api World} {α : Type} {p : Api α} (a₀ : α)
    {Q : View api World → Except DbError α → Prop} {id : Id} {s : OrderStatus}
    (hp : p.Calls Call.Harmless (· = a₀)) (hs : v.since.statusOf id = some s)
    (hQ : ∀ v', Since id s v' → Q v' (.ok a₀)) (he : ∀ v' e, Q v' (.error e)) :
    statusProtocol.Ok r Q v p := by
  refine Protocol.ok_mono (Protocol.ok_extend (Protocol.ok_of_calls hp
    (fun v w c op hop hw _ => status_allows r v w _ op hop (exec_harmless hop w) hw)))
    (fun v' x hx => ?_)
  obtain ⟨ha, _, _, hv⟩ := hx
  cases x with
  | ok a =>
    rw [ha a rfl]
    exact hQ v' (rely_status hv hs)
  | error e => exact he v' e

theorem patchOrder_ok {r : StatusRequest} {v : View api World} (staff : Option StaffClaims)
    (id : Id) (body : PatchBody) :
    statusProtocol.Ok r (patchPost id) v (patchOrder staff id body) := by
  unfold patchOrder
  cases staff with
  | none => exact trivial
  | some staff =>
    refine ok_query status_allows _ (fun w₁ _ _ => ?_)
    split
    · exact trivial
    · next order hfound =>
      split
      · exact trivial
      · next status hstatus =>
        split
        · exact trivial
        · obtain ⟨hget, _⟩ := Option.filter_eq_some_iff.mp hfound
          obtain ⟨_, hedge⟩ := Option.filter_eq_some_iff.mp hstatus
          refine ok_write (fun w c w' x _ _ hg hx => ?_)
          -- the status is still the one the request read
          have hsame : w₁.statusOf id = w.statusOf id := by simpa [actsOnWhatItRead] using hg
          have hnow : w.statusOf id = some order.status := by
            rw [← hsame]
            exact statusOf_eq_some.mpr ⟨order, hget, rfl⟩
          obtain ⟨o, rfl, rfl, hmoves, hnew⟩ := orderUpdate_moveTo hnow hedge hx
          refine ⟨⟨trivial, hmoves, trivial⟩, ?_⟩
          show statusProtocol.Ok _ _ _ (if _ then _ else _)
          refine ok_report (PatchAnswer.ok o.status) ?_ hnew (fun v' h => h) (fun _ _ => trivial)
          split
          · exact Prog.calls_bind (Prog.calls_perform (S := api) trivial)
              (fun _ _ => Prog.calls_bind (Prog.calls_perform (S := api) trivial) (fun _ _ => rfl))
          · exact Prog.calls_bind (Prog.calls_perform (S := api) trivial) (fun _ _ => rfl)

theorem cancelOrder_ok {r : StatusRequest} {v : View api World} (cookie : Option ℕ)
    (caller : Caller) (id : Id) :
    statusProtocol.Ok r (cancelPost id) v (cancelOrder cookie caller id) := by
  unfold cancelOrder
  refine ok_harmless_bind status_allows (getActiveSession_calls cookie none)
    (fun v₁ session _ _ _ => ?_) (fun _ _ _ _ => trivial)
  split
  · exact trivial
  · next session =>
    refine ok_query status_allows _ (fun w₁ _ _ => ?_)
    split
    · exact trivial
    · split
      · exact trivial
      · refine ok_write (fun w c w' x _ _ _ hx => ?_)
        obtain ⟨rfl, rfl⟩ := Prod.mk.inj hx
        obtain ⟨hmoves, hnew⟩ := withdraw_moves w id
        refine ⟨⟨trivial, hmoves, trivial⟩, ?_⟩
        show statusProtocol.Ok _ _ _ (if _ then _ else _)
        split
        · exact trivial
        · next hcount =>
          exact ok_report CancelAnswer.ok
            (Prog.calls_bind (logAttempt_calls _ _ _) (fun _ _ =>
              Prog.calls_bind (Prog.calls_perform (S := api) trivial) (fun _ _ => rfl)))
            (hnew hcount) (fun v' h => h) (fun _ _ => trivial)

/-- What each answer promises. -/
def statusPost : StatusRequest → View api World → Except DbError StatusAnswer → Prop
  | .patch _ id _, v, .ok (.patch a) => patchPost id v (.ok a)
  | .cancel _ _ id, v, .ok (.cancel a) => cancelPost id v (.ok a)
  | _, _, _ => True

theorem statusSound : statusProtocol.Sound statusPost where
  env e w _ := by
    cases e with
    | tick ms => exact ⟨trivial, StatusMoves.of_orders_eq rfl⟩
    | crash => exact ⟨trivial, StatusMoves.of_orders_eq rfl⟩
  entry r w _ := by
    cases r with
    | patch staff id body =>
      refine Protocol.ok_map (Protocol.ok_mono (patchOrder_ok staff id body) (fun v x hx => ?_))
      cases x with
      | ok a => exact hx
      | error e => exact trivial
    | cancel cookie caller id =>
      refine Protocol.ok_map (Protocol.ok_mono (cancelOrder_ok cookie caller id)
        (fun v x hx => ?_))
      cases x with
      | ok a => exact hx
      | error e => exact trivial
    | enqueue job =>
      refine Protocol.ok_map (Protocol.ok_mono (Protocol.ok_of_calls
        (enqueuePosDelivery_calls job.orderId job.amendment) (fun v w c op hop _ _ => ?_))
        (fun v x hx => ?_))
      · obtain ⟨deliveries, heq⟩ := exec_outboxWork (c := c) hop w
        have horders : (World.exec c op w).1.orders = w.orders := by rw [heq]
        exact ⟨trivial, StatusMoves.of_orders_eq horders, trivial⟩
      · cases x with
        | ok a => exact trivial
        | error e => exact trivial

/-! ## The law -/

theorem statusPost_answered {w₀ : World} {p : statusServer.Pool}
    (h : statusProtocol.PoolOk statusPost w₀ p) {r : StatusRequest} {a : StatusAnswer}
    (hr : p.Answered r a) :
    ∃ v, statusPost r v (.ok a) ∧ statusProtocol.Rely v.since p.world := by
  obtain ⟨t, ht, rfl, hout⟩ := hr
  exact ⟨t.view, h.post ht hout, h.since t ht⟩

/-- **Statuses move along the graph, and nobody is told otherwise**, in every run
in which each update of the desk finds the order as its request read it. -/
theorem transitions_law (w₀ : World) (id : Id) (acts : List statusServer.Action)
    (h : (Sys.Pool.init (Y := statusServer) w₀).Meets statusProtocol.cond acts = true) :
    StatusLaw w₀ id acts where
  edges pre a post hacts s hs := by
    subst hacts
    exact statusSound.run_step trivial h id s hs
  final pre post hacts s hs hfinal := by
    subst hacts
    obtain ⟨s', hs', hpath⟩ := rely_status (statusSound.run_rely trivial h) hs
    rw [hs', ((final_iff s).mpr hfinal).eq_of_path hpath]
  exclusive cookie caller staff body s hs hcancel hpatch := by
    have hok : statusProtocol.PoolOk statusPost w₀ (statusRun w₀ acts) :=
      statusSound.run trivial h
    obtain ⟨v, ⟨t, ht, hpath⟩, hv⟩ := statusPost_answered hok hcancel
    obtain ⟨v', ⟨t', ht', hpath'⟩, hv'⟩ := statusPost_answered hok hpatch
    -- the order is cancelled now, and was accepted or rejected before
    obtain ⟨u, hu, hpathu⟩ := rely_status hv ht
    obtain ⟨u', hu', hpathu'⟩ := rely_status hv' ht'
    rw [hu] at hu'
    cases hu'
    have hcancelled : u = .cancelled :=
      ((final_iff .cancelled).mpr (.inr (.inr rfl))).eq_of_path (hpath.trans hpathu)
    subst hcancelled
    rcases path_to_cancelled (hpath'.trans hpathu') with rfl | rfl
    · rcases hs with hs | hs <;> cases hs
    · rcases hs with hs | hs <;> cases hs

/-! ## A withdrawal undone -/

/-- One table, one phone, and an order nobody has taken. -/
def orderPlaced : World :=
  { World.blank 0 with
    venues := Rows.ofList [⟨[], [], [], none⟩]
    tables := Rows.ofList [⟨0, [], [], 1, true⟩]
    tableSessions := Rows.ofList [⟨0, 0, 7, none, 0, 0, HARD_CAP_MS, none⟩]
    orders := Rows.ofList [⟨0, 0, 0, none, 1, .received, none, 0, .unpaid, none, none, 0⟩] }

/-- The desk accepts. -/
def acceptRequest : StatusRequest := .patch (some ⟨0, 0, []⟩) 0 ⟨some .accepted, none⟩

/-- The customer withdraws. -/
def cancelRequest : StatusRequest := .cancel (some 7) ⟨[], []⟩ 0

/-- The desk reads the order, the customer withdraws it, and the desk's update
follows. -/
def acceptOverCancel : List statusServer.Action :=
  [.arrive acceptRequest, .arrive cancelRequest, .step 0 plain, .step 1 plain, .step 1 plain,
    .step 1 plain, .step 1 plain, .step 0 plain]

/-- **The desk can take a cancelled order back**: the law fails of a run that
starts from a received order. -/
theorem transitions_law_fails :
    ¬ ∀ (w₀ : World) (id : Id) (acts : List statusServer.Action),
      w₀.statusOf id = some .received → StatusLaw w₀ id acts := by
  intro h
  have hfinal := (h orderPlaced 0 acceptOverCancel rfl).final (acceptOverCancel.take 7)
    (acceptOverCancel.drop 7) rfl .cancelled (by decide) (.inr (.inr rfl))
  exact absurd hfinal (by decide)

/-- The law on a run in which the desk's update comes first and the customer is
refused. -/
theorem transitions_law_accepted :
    StatusLaw orderPlaced 0
      [.arrive acceptRequest, .arrive cancelRequest, .step 0 plain, .step 1 plain, .step 0 plain,
        .step 1 plain, .step 1 plain, .step 0 plain, .step 0 plain] :=
  transitions_law orderPlaced 0 _ (by decide)

end Masadan
