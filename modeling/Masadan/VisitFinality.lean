import Masadan.Handlers

/-!
# A closed visit is final

Four operations write a visit: asking for the bill, dismissing the request,
the settlement at the till and the sweep of abandoned visits. Each checks the
status first and writes afterwards. The settlement repeats the check in its
write, so it never touches a closed visit; the other three write by id.

`visit_final` is what follows when none of these three writes comes after a
close: the row stays as the close left it, and one till at most is told that it
settled the table. As each has read the visit open, none does in a run in which no
visit is written between the reads and the update (`not_closed_of_read`).
`visit_final_fails` is a customer's request for the bill that reopens a settled
table, and lets it be settled again.
-/

namespace Masadan

/-! ## The requests -/

/-- The requests that write visits. -/
inductive VisitRequest where
  | requestBill (visitId venueId : Id)
  | clearBillRequest (visitId venueId : Id)
  | settle (visitId venueId : Id) (input : SettleInput)
  | sweep

inductive VisitAnswer where
  | flag (done : Bool)
  | settled (result : Except SettleError ℤ)
  | swept (count : ℕ)

def VisitRequest.prog : VisitRequest → Api VisitAnswer
  | .requestBill visitId venueId => VisitAnswer.flag <$> Masadan.requestBill visitId venueId
  | .clearBillRequest visitId venueId =>
    VisitAnswer.flag <$> Masadan.clearBillRequest visitId venueId
  | .settle visitId venueId input => VisitAnswer.settled <$> settleVisit visitId venueId input
  | .sweep => VisitAnswer.swept <$> closeAbandonedVisits

/-- The server serving these requests. -/
abbrev visitServer : Sys api :=
  server VisitRequest.prog (fun _ => true) (fun _ => []) false

/-- A run of these requests, from a world. -/
abbrev visitRun (w₀ : World) (acts : List visitServer.Action) : visitServer.Pool :=
  Sys.Pool.run (Sys.Pool.init w₀ : visitServer.Pool) acts

/-- **Finality**, of one visit over one run. -/
structure VisitFinal (w₀ : World) (visitId : Id) (acts : List visitServer.Action) : Prop where
  /-- A closed visit keeps its row: its status, and everything the close
  recorded. -/
  kept : ∀ pre post, acts = pre ++ post → ∀ v,
    (visitRun w₀ pre).world.tableVisits.get? visitId = some v → v.status = .closed →
    (visitRun w₀ acts).world.tableVisits.get? visitId = some v
  /-- At most one settlement of it returns ok. -/
  once : ∀ (i j : ℕ) (t t' : visitServer.Thread) venueId venueId' input input' total total',
    (visitRun w₀ acts).threads[i]? = some t → (visitRun w₀ acts).threads[j]? = some t' →
    t.req = .settle visitId venueId input → t'.req = .settle visitId venueId' input' →
    t.outcome = some (.ok (.settled (.ok total))) →
    t'.outcome = some (.ok (.settled (.ok total'))) → i = j

/-! ## The protocol -/

/-- Closed visits stay as they are. -/
def ClosedKept (w w' : World) : Prop :=
  ∀ id v, w.tableVisits.get? id = some v → v.status = .closed → w'.tableVisits.get? id = some v

theorem ClosedKept.of_eq {w w' : World} (h : w'.tableVisits = w.tableVisits) :
    ClosedKept w w' := by
  intro id v hv _
  rw [h]
  exact hv

theorem ClosedKept.trans {w w' w'' : World} (h : ClosedKept w w') (h' : ClosedKept w' w'') :
    ClosedKept w w'' :=
  fun id v hv hc => h' id v (h id v hv hc) hc

/-- **No write after a close**: an update of a visit by id finds it not closed.
The calls that update by id have seen it not closed, so this says that nobody
closed it in between. -/
def notYetClosed (op : Call) (w : World) : Bool :=
  match op with
  | .tableVisitUpdate id _ => (w.tableVisits.get? id).all (fun v => v.status != .closed)
  | _ => true

/-- Closed visits are kept, given that no update by id finds one. -/
abbrev visitProtocol : Protocol visitServer where
  Inv _ := True
  Evolves := ClosedKept
  refl _ := ClosedKept.of_eq rfl
  Guard _ _ _ op w := notYetClosed op w

theorem visit_allows : AllowsHarmless visitProtocol :=
  fun _ _ _ _ _ _ h _ => ⟨trivial, ClosedKept.of_eq h.tableVisits, trivial⟩

theorem closedKept_rely {w w' : World} (h : visitProtocol.Rely w w') : ClosedKept w w' :=
  h.evolves ClosedKept.trans

/-- An update that matches no closed visit keeps the closed ones. -/
theorem closedKept_update {w w' : World} (p : Id → TableVisit → Bool)
    (f : TableVisit → TableVisit) (hw : w'.tableVisits = w.tableVisits.update p f)
    (hp : ∀ id v, w.tableVisits.get? id = some v → p id v = true → v.status ≠ .closed) :
    ClosedKept w w' := by
  intro id v hv hc
  rw [hw, Rows.get?_update, hv, Option.map_some, if_neg (fun h => hp id v hv h hc)]

/-! ## Each operation keeps it -/

/-- The updates by id, which the protocol assumes to find the visit not
closed. -/
theorem takes_tableVisitUpdate {r : VisitRequest} {v : View api World} {id : Id}
    {data : Time → TableVisit → TableVisit} {w w' : World} {x : Except DbError Unit}
    (hg : notYetClosed (.tableVisitUpdate id data) w = true)
    (hx : w.tableVisitUpdate id data = (w', x)) :
    visitProtocol.Takes r v ⟨.tableVisitUpdate id data, w, w'⟩ := by
  unfold World.tableVisitUpdate at hx
  split at hx
  · obtain ⟨rfl, _⟩ := Prod.mk.inj hx
    exact ⟨trivial, ClosedKept.of_eq rfl, trivial⟩
  · next visit hvisit =>
    obtain ⟨rfl, _⟩ := Prod.mk.inj hx
    refine ⟨trivial, closedKept_update (fun k _ => k == id) (data w.now) rfl
      (fun k u hu hk => ?_), trivial⟩
    rw [beq_iff_eq.mp hk, hvisit] at hu
    cases hu
    simpa [notYetClosed, hvisit] using hg

theorem takes_visitWork {r : VisitRequest} (v : View api World) (w : World) (c : Choice)
    (op : Call) (hop : op.VisitWork) (hg : notYetClosed op w = true) :
    visitProtocol.Takes r v ⟨op, w, (World.exec c op w).1⟩ := by
  rcases visitWork_cases hop with ⟨id, data, rfl⟩ | hop
  · exact takes_tableVisitUpdate hg rfl
  · exact visit_allows.exec hop c trivial

/-- A settlement that returned ok closed the visit itself. -/
def settlePost (visitId : Id) (v : View api World) : Except DbError (Except SettleError ℤ) → Prop
  | .ok (.ok _) => ∃ e ∈ v.past, ¬ e.before.VisitClosed visitId ∧ e.after.VisitClosed visitId
  | _ => True

/-- **The settlement's write**: it closes the visit if it is not closed, leaves
every closed visit alone, and says which. -/
theorem settle_spec {w w' : World} {c : Choice} {visitId : Id}
    {data : Time → TableVisit → TableVisit} {orderIds sessionIds : List Id}
    {provider : PaymentMethod} {x : Except DbError ℕ}
    (hx : World.exec c (.settleTransaction visitId data orderIds provider sessionIds) w = (w', x))
    (hdata : ∀ now v, (data now v).status = .closed) :
    ∃ n, x = .ok n ∧ ClosedKept w w'
      ∧ (n ≠ 0 → ¬ w.VisitClosed visitId ∧ w'.VisitClosed visitId) := by
  obtain ⟨rfl, rfl⟩ := Prod.mk.inj hx
  refine ⟨_, rfl, ?_⟩
  rcases settleTransaction_cases (Prod.mk.eta (p := w.settleTransaction visitId data orderIds
    provider sessionIds)).symm with h | ⟨v, _, hv, hopen, h⟩
  · rw [h.1, h.2]
    exact ⟨ClosedKept.of_eq rfl, fun h => absurd rfl h⟩
  · rw [h]
    refine ⟨closedKept_update (World.closable visitId) (data w.now) rfl (fun id v _ hp => ?_),
      fun _ => ⟨?_, ⟨data w.now v, get?_closable hv hopen, hdata _ _⟩⟩⟩
    · exact bne_iff_ne.mp (Bool.and_eq_true_iff.mp hp).2
    · rintro ⟨u, hu, hc⟩
      rw [hv] at hu
      cases hu
      exact hopen hc

theorem takePayment_ok {r : VisitRequest} {v : View api World} (visitId venueId tableId : Id)
    (input : SettleInput) :
    visitProtocol.Ok r (settlePost visitId) v (takePayment visitId venueId tableId input) := by
  unfold takePayment
  refine ok_query visit_allows _ (fun w₁ _ _ => ?_)
  refine ok_query visit_allows _ (fun w₂ _ _ => ?_)
  refine ok_write (fun w c w' x _ _ _ hx => ?_)
  obtain ⟨n, rfl, hkept, hclose⟩ := settle_spec hx (fun _ _ => rfl)
  refine ⟨⟨trivial, hkept, trivial⟩, ?_⟩
  show visitProtocol.Ok _ _ _ (if n = 0 then _ else _)
  split
  · exact trivial
  · next hn =>
    refine ok_harmless_bind visit_allows (Prog.calls_perform (S := api) trivial)
      (fun v' _ _ hpast _ => ?_) (fun _ _ _ _ => trivial)
    exact ⟨_, hpast.mem List.mem_cons_self, hclose hn⟩

theorem settleVisit_ok {r : VisitRequest} {v : View api World} (visitId venueId : Id)
    (input : SettleInput) :
    visitProtocol.Ok r (settlePost visitId) v (settleVisit visitId venueId input) := by
  unfold settleVisit
  refine ok_query visit_allows _ (fun w₁ _ _ => ?_)
  split
  · exact trivial
  · split
    · exact trivial
    · refine ok_harmless_bind visit_allows (ordersInFlight_calls visitId input.force)
        (fun v' inFlight _ _ _ => ?_) (fun _ _ _ _ => trivial)
      split
      · exact trivial
      · exact takePayment_ok visitId venueId _ input

/-! ## Finality -/

/-- What each answer promises. -/
def visitPost : VisitRequest → View api World → Except DbError VisitAnswer → Prop
  | .settle visitId _ _, v, .ok (.settled a) => settlePost visitId v (.ok a)
  | _, _, _ => True

theorem visitSound : visitProtocol.Sound visitPost where
  env e w _ := by
    cases e with
    | tick ms => exact ⟨trivial, ClosedKept.of_eq rfl⟩
    | crash => exact ⟨trivial, ClosedKept.of_eq rfl⟩
  entry r w _ := by
    -- the operations that write by id promise nothing more
    have hwork : ∀ {α : Type} (p : Api α) (f : α → VisitAnswer),
        p.Calls Call.VisitWork (fun _ => True) → (∀ v a, visitPost r v (.ok (f a))) →
        (∀ v e, visitPost r v (.error e)) →
        visitProtocol.Ok r (visitPost r) ⟨w, []⟩ (f <$> p) := by
      intro α p f hp hf he
      refine Protocol.ok_map (Protocol.ok_mono (Protocol.ok_of_calls hp
        (fun v w c op hop _ hg => takes_visitWork v w c op hop hg)) (fun v x _ => ?_))
      cases x with
      | ok a => exact hf v a
      | error e => exact he v e
    cases r with
    | requestBill visitId venueId =>
      exact hwork _ _ (requestBill_calls visitId venueId) (fun _ _ => trivial) (fun _ _ => trivial)
    | clearBillRequest visitId venueId =>
      exact hwork _ _ (clearBillRequest_calls visitId venueId) (fun _ _ => trivial)
        (fun _ _ => trivial)
    | settle visitId venueId input =>
      refine Protocol.ok_map (Protocol.ok_mono (settleVisit_ok visitId venueId input)
        (fun v x hx => ?_))
      cases x with
      | ok a => exact hx
      | error e => exact trivial
    | sweep =>
      exact hwork _ _ closeAbandonedVisits_calls (fun _ _ => trivial) (fun _ _ => trivial)

/-- **A closed visit is final**, in every run in which no update by id comes after
the visit's close. -/
theorem visit_final (w₀ : World) (visitId : Id) (acts : List visitServer.Action)
    (h : Sys.Pool.Meets visitProtocol.cond (Sys.Pool.init w₀) acts = true) :
    VisitFinal w₀ visitId acts where
  kept pre post hacts v hv hc := by
    subst hacts
    exact closedKept_rely (visitSound.run_rely trivial h) visitId v hv hc
  once i j t t' venueId venueId' input input' total total' hi hj hr hr' hout hout' := by
    have hok : visitProtocol.PoolOk visitPost w₀ (visitRun w₀ acts) := visitSound.run trivial h
    have hpost := hok.post (List.mem_of_getElem? hi) hout
    have hpost' := hok.post (List.mem_of_getElem? hj) hout'
    rw [hr] at hpost
    rw [hr'] at hpost'
    obtain ⟨e, he, hopen, hclosed⟩ := hpost
    obtain ⟨e', he', hopen', hclosed'⟩ := hpost'
    refine hok.at_most_one (D := fun u : World => u.VisitClosed visitId) ?_ hi hj he he' hopen
      hclosed hopen' hclosed'
    rintro u u' hstep ⟨v, hv, hc⟩
    exact ⟨v, hstep visitId v hv hc, hc⟩

/-! ## The checks of the operations themselves -/

/-- What is asked of an update of a visit by id: its program has read the visit, not closed. -/
abbrev openReadProtocol : Protocol visitServer :=
  .checking (fun _ v op => ∀ id data, op = .tableVisitUpdate id data →
    ∃ e ∈ v.past, e.op.isQuery = true ∧ ¬ e.before.VisitClosed id)

theorem openRead_allows : AllowsHarmless openReadProtocol := by
  intro r v w w' op hop _ _
  refine ⟨trivial, trivial, fun id data h => ?_⟩
  subst h
  exact hop.elim

section

variable {r : VisitRequest} {v : View api World}

/-- An update of a visit that was read open. -/
theorem takes_openRead {id : Id} {data : Time → TableVisit → TableVisit} {w w' : World}
    {e : Event api World} (he : e ∈ v.past) (hread : e.op.isQuery = true)
    (hopen : ¬ e.before.VisitClosed id) :
    openReadProtocol.Takes r v ⟨.tableVisitUpdate id data, w, w'⟩ := by
  refine ⟨trivial, trivial, fun k data' h => ?_⟩
  cases h
  exact ⟨e, he, hread, hopen⟩

/-- What was found by its id is not closed, if it does not say so. -/
theorem not_visitClosed_of_visitOf {w : World} {id venueId : Id} {visit : TableVisit}
    (h : w.visitOf id venueId = some visit) (hopen : visit.status ≠ .closed) :
    ¬ w.VisitClosed id := by
  rintro ⟨u, hu, hc⟩
  have hget := (Option.filter_eq_some_iff.mp h).1
  rw [hget] at hu
  cases hu
  exact hopen hc

/-- What is found abandoned is not closed. -/
theorem not_visitClosed_of_stale {w : World} {visit : Id × TableVisit}
    (h : visit ∈ w.staleVisits) : ¬ w.VisitClosed visit.1 := by
  unfold World.staleVisits at h
  obtain ⟨hget, hp⟩ := Rows.mem_filter.mp h
  rintro ⟨u, hu, hc⟩
  rw [hget] at hu
  cases hu
  rw [hc] at hp
  cases hp

/-- The news writes no visit. -/
theorem publish_checks {α : Type} (e : BusEvent) (a : α) :
    openReadProtocol.Ok r (fun _ _ => True) v
      ((perform (.publish e)).bind (fun _ => Prog.ret a)) :=
  ok_harmless_bind openRead_allows (Prog.calls_perform (S := api) trivial)
    (fun _ _ _ _ _ => trivial) (fun _ _ _ _ => trivial)

theorem requestBill_checks (visitId venueId : Id) :
    openReadProtocol.Ok r (fun _ _ => True) v (requestBill visitId venueId) := by
  unfold requestBill
  refine ok_query openRead_allows _ (fun w₁ _ _ => ?_)
  split
  · exact trivial
  · next visit hfound =>
    split
    · exact trivial
    · next hopen =>
      split
      · refine ok_write (fun w c w' x _ _ _ _ => ⟨takes_openRead List.mem_cons_self rfl
          (not_visitClosed_of_visitOf hfound hopen), ?_⟩)
        cases x with
        | ok a => exact publish_checks _ _
        | error e => exact trivial
      · exact publish_checks _ _

theorem clearBillRequest_checks (visitId venueId : Id) :
    openReadProtocol.Ok r (fun _ _ => True) v (clearBillRequest visitId venueId) := by
  unfold clearBillRequest
  refine ok_query openRead_allows _ (fun w₁ _ _ => ?_)
  split
  · exact trivial
  · next visit hfound =>
    split
    · exact trivial
    · next hpending =>
      have hopen : visit.status ≠ .closed := by
        rw [not_not] at hpending
        rw [hpending]
        decide
      refine ok_write (fun w c w' x _ _ _ _ => ⟨takes_openRead List.mem_cons_self rfl
        (not_visitClosed_of_visitOf hfound hopen), ?_⟩)
      cases x with
      | ok a => exact publish_checks _ _
      | error e => exact trivial

/-- The loop of the sweep, over visits that were read open. -/
theorem closeEach_checks (visits : List (Id × TableVisit))
    (h : ∀ visit ∈ visits, ∃ e ∈ v.past, e.op.isQuery = true ∧ ¬ e.before.VisitClosed visit.1) :
    openReadProtocol.Ok r (fun _ _ => True) v (closeEach visits) := by
  induction visits generalizing v with
  | nil => exact trivial
  | cons visit rest ih =>
    unfold closeEach
    obtain ⟨e, he, hread, hopen⟩ := h visit List.mem_cons_self
    refine ok_query openRead_allows _ (fun w₁ _ _ => ?_)
    refine ok_write (fun w c w' x _ _ _ _ =>
      ⟨takes_openRead (List.mem_cons_of_mem _ he) hread hopen, ?_⟩)
    cases x with
    | error e => exact trivial
    | ok a =>
      show openReadProtocol.Ok _ _ _ ((perform _).bind _)
      refine ok_harmless_bind openRead_allows (Prog.calls_perform (S := api) trivial)
        (fun v' _ _ hpast _ => ih (fun visit' hv' => ?_)) (fun _ _ _ _ => trivial)
      obtain ⟨e', he', hread'⟩ := h visit' (List.mem_cons_of_mem _ hv')
      exact ⟨e', hpast.mem (List.mem_cons_of_mem _ (List.mem_cons_of_mem _ he')), hread'⟩

theorem closeAbandonedVisits_checks :
    openReadProtocol.Ok r (fun _ _ => True) v closeAbandonedVisits := by
  unfold closeAbandonedVisits
  refine ok_query openRead_allows _ (fun w₁ _ _ => ?_)
  refine Protocol.ok_bind (Protocol.ok_mono (closeEach_checks _ (fun visit hstale => ?_))
    (fun v' x _ => ?_))
  · exact ⟨_, List.mem_cons_self, rfl, not_visitClosed_of_stale hstale⟩
  · cases x with
    | ok a => exact trivial
    | error e => exact trivial

end

/-- **Each operation that writes a visit by id has read it open.** -/
theorem openReadSound : openReadProtocol.Sound (fun _ _ _ => True) where
  env _ _ _ := ⟨trivial, trivial⟩
  entry r w _ := by
    cases r with
    | requestBill visitId venueId => exact Protocol.ok_map (requestBill_checks visitId venueId)
    | clearBillRequest visitId venueId =>
      exact Protocol.ok_map (clearBillRequest_checks visitId venueId)
    | settle visitId venueId input =>
      refine Protocol.ok_map (Protocol.ok_mono (Protocol.ok_of_calls
        (settleVisit_data (U := fun _ => False) (S := fun _ => True) visitId venueId
          (fun _ => trivial)) (fun v w c op hop _ _ => ⟨trivial, trivial, fun id data h => ?_⟩))
        (fun _ _ _ => trivial))
      subst h
      exact hop.elim
    | sweep => exact Protocol.ok_map closeAbandonedVisits_checks

/-- **No visit is written between** a program's reads and its update of it. -/
def VisitAsRead (_ : VisitRequest) (v : View api World) (op : Call) (w : World) : Prop :=
  ∀ id data, op = .tableVisitUpdate id data → ∀ e ∈ v.past, e.op.isQuery = true →
    w.tableVisits.get? id = e.before.tableVisits.get? id

/-- **Where no visit is written between, no update by id comes after its close.** -/
theorem not_closed_of_read (w₀ : World) (acts : List visitServer.Action)
    (h : Protocol.Finds VisitAsRead (Sys.Pool.init w₀) acts) :
    Sys.Pool.Meets visitProtocol.cond (Sys.Pool.init w₀) acts = true := by
  refine openReadSound.meets_of_finds trivial (fun _ _ _ _ _ => rfl) ?_ h
  intro r v c op w htakes hread
  show notYetClosed op w = true
  unfold notYetClosed
  split
  · next id data =>
    obtain ⟨e, he, hquery, hopen⟩ := htakes.here id data rfl
    rw [hread id data rfl e he hquery]
    cases hv : e.before.tableVisits.get? id with
    | none => rfl
    | some visit => exact bne_iff_ne.mpr (fun hc => hopen ⟨visit, hv, hc⟩)
  · rfl

/-! ## A settled table reopened -/

/-- One table with an open visit. -/
def tableOpen : World :=
  { World.blank 0 with
    venues := Rows.ofList [⟨[], [], [], none⟩]
    tables := Rows.ofList [⟨0, [], [], 1, true⟩]
    tableVisits := Rows.ofList [⟨0, 0, .opened, 0, none, none, none, none, none, none, none⟩] }

/-- A payment in cash, by the staff member `0`. -/
def cashPayment : SettleInput := ⟨.cash, none, 0, false⟩

/-- The customer's request reads the visit, the till settles it, and the
request's update follows. -/
def requestOverSettle : List visitServer.Action :=
  [.arrive (.requestBill 0 0), .arrive (.settle 0 0 cashPayment), .step 0 plain, .step 1 plain,
    .step 1 plain, .step 1 plain, .step 1 plain, .step 1 plain, .step 1 plain, .step 0 plain]

/-- **A closed visit can be reopened.** -/
theorem visit_final_fails :
    ¬ ∀ (w₀ : World) (visitId : Id) (acts : List visitServer.Action),
      VisitFinal w₀ visitId acts := by
  intro h
  have hkept := (h tableOpen 0 requestOverSettle).kept (requestOverSettle.take 9)
    (requestOverSettle.drop 9) rfl (cashPayment.close 0 0 ⟨0, 0, .opened, 0, none, none, none,
      none, none, none, none⟩) (by decide) rfl
  exact absurd hkept (by decide)

/-- Finality on a run in which the request for the bill is answered first, and a
second till loses the race. -/
theorem visit_final_two_tills :
    VisitFinal tableOpen 0
      [.arrive (.requestBill 0 0), .arrive (.settle 0 0 cashPayment),
        .arrive (.settle 0 0 cashPayment), .step 0 plain, .step 1 plain, .step 0 plain,
        .step 2 plain, .step 1 plain, .step 1 plain, .step 1 plain, .step 2 plain, .step 2 plain,
        .step 2 plain, .step 1 plain, .step 2 plain, .step 1 plain, .step 0 plain] :=
  visit_final tableOpen 0 _ (by decide)

end Masadan
