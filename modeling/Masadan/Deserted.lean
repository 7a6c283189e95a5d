import Masadan.Seating
import Masadan.SixPhones

/-!
# Who sits at a table the sweep closes

A visit that nobody settles is closed by the sweep, when it is old, no phone of it is live and
nothing was ordered for long. The sweep selects all such visits with its first call, and then
closes them one after another by their ids; each close comes after the bill of the visit has been
built, and does not look again.

A visit that was deserted when it was selected stays so as long as nobody scans and nobody
orders: its sessions are revoked or expire, and its orders grow older. So `closes_deserted` asks
that between the selection and the close no session of the visit is inserted and no order.
`closes_deserted_fails` is a guest who scans again while the sweep is on its way to their table.
-/

namespace Masadan

/-! ## Deserted tables -/

/-- **The visit is deserted**: none of its sessions is live, and nothing was ordered lately. -/
structure World.Deserted (w : World) (visitId : Id) : Prop where
  sessions : ∀ id s, w.tableSessions.get? id = some s → s.visitId = some visitId →
    s.revokedAt = none → s.expiresAt ≤ w.now
  orders : ∀ id o, w.orders.get? id = some o → o.visitId = some visitId →
    o.createdAt ≤ w.now - ABANDON_AFTER_MS

/-- **The sweep never closes on a party that is present**: whatever visit a sweep closes, it is
deserted when the close commits. -/
def ClosesDeserted (w₀ : World) (acts : List seatServer.Action) : Prop :=
  ∀ pre i c post, acts = pre ++ .step i c :: post → ∀ t, (seatRun w₀ pre).threads[i]? = some t →
    t.req = .sweep → ∀ visitId data, t.prog.next = some (.tableVisitUpdate visitId data) →
    (seatRun w₀ pre).world.Deserted visitId

/-- The world a sweep has selected its visits in. -/
def selection (v : View api World) : Option World := v.past.getLast?.map Event.before

/-- **Nobody has come**: the sessions and the orders of a visit that is closed were there when
the sweep selected its visits. -/
def nobodyCame (v : View api World) (op : Call) (w : World) : Bool :=
  match op with
  | .tableVisitUpdate visitId _ => (selection v).all (fun u =>
    (w.tableSessions.filter (fun _ s => s.visitId == some visitId)).all
        (fun s => (u.tableSessions.get? s.1).isSome)
      && (w.orders.filter (fun _ o => o.visitId == some visitId)).all
        (fun o => (u.orders.get? o.1).isSome))
  | _ => true

/-- What is selected is deserted. -/
theorem deserted_of_stale {w : World} {visit : Id × TableVisit} (h : visit ∈ w.staleVisits) :
    w.Deserted visit.1 := by
  unfold World.staleVisits at h
  obtain ⟨_, hp⟩ := Rows.mem_filter.mp h
  simp only [Bool.and_eq_true, Option.isNone_iff_eq_none] at hp
  obtain ⟨⟨_, hsessions⟩, horders⟩ := hp
  refine ⟨fun id s hs hvisit hlive => ?_, fun id o ho hvisit => ?_⟩
  · have hnot := Rows.find?_eq_none hsessions hs
    simpa [hvisit, hlive] using hnot
  · have hnot := Rows.find?_eq_none horders ho
    simpa [hvisit] using hnot

/-! ## Growing older -/

/-- What happens to an order of a visit. -/
structure Order.Ages (o o' : Order) : Prop where
  createdAt : o'.createdAt = o.createdAt
  visitId : o'.visitId = o.visitId ∨ o'.visitId = none

/-- **What is there grows older**: sessions and orders stay, at their visit or at none. -/
structure Aging (w w' : World) : Prop where
  now : w.now ≤ w'.now
  sessions : ∀ id s, w.tableSessions.get? id = some s →
    ∃ s', w'.tableSessions.get? id = some s' ∧ s.Stays s'
  orders : ∀ id o, w.orders.get? id = some o → ∃ o', w'.orders.get? id = some o' ∧ o.Ages o'

section

variable {w w' w'' : World} {visitId : Id}

theorem Order.Ages.refl (o : Order) : o.Ages o := ⟨rfl, .inl rfl⟩

theorem TableSession.Stays.refl (s : TableSession) : s.Stays s :=
  ⟨rfl, rfl, rfl, fun hr => hr, .inl rfl⟩

theorem Aging.refl (w : World) : Aging w w :=
  ⟨le_refl _, fun _ s h => ⟨s, h, .refl s⟩, fun _ o h => ⟨o, h, .refl o⟩⟩

theorem Aging.trans (h : Aging w w') (h' : Aging w' w'') : Aging w w'' := by
  refine ⟨h.now.trans h'.now, fun id s hs => ?_, fun id o ho => ?_⟩
  · obtain ⟨s', hs', hstays⟩ := h.sessions id s hs
    obtain ⟨s'', hs'', hstays'⟩ := h'.sessions id s' hs'
    refine ⟨s'', hs'', hstays'.tableId.trans hstays.tableId,
      hstays'.createdAt.trans hstays.createdAt, hstays'.expiresAt.trans hstays.expiresAt,
      fun hr => hstays'.revokedAt (hstays.revokedAt hr), ?_⟩
    rcases hstays'.visitId with hv | hv
    · rw [hv]
      exact hstays.visitId
    · exact .inr hv
  · obtain ⟨o', ho', hages⟩ := h.orders id o ho
    obtain ⟨o'', ho'', hages'⟩ := h'.orders id o' ho'
    refine ⟨o'', ho'', hages'.createdAt.trans hages.createdAt, ?_⟩
    rcases hages'.visitId with hv | hv
    · rw [hv]
      exact hages.visitId
    · exact .inr hv

/-- **A deserted visit stays so**, if those of its sessions and orders that are there now were
there then. -/
theorem World.Deserted.later (h : w.Deserted visitId) (hages : Aging w w')
    (hsessions : ∀ id s', w'.tableSessions.get? id = some s' → s'.visitId = some visitId →
      ∃ s, w.tableSessions.get? id = some s)
    (horders : ∀ id o', w'.orders.get? id = some o' → o'.visitId = some visitId →
      ∃ o, w.orders.get? id = some o) : w'.Deserted visitId := by
  refine ⟨fun id s' hs' hvisit hlive => ?_, fun id o' ho' hvisit => ?_⟩
  · obtain ⟨s, hs⟩ := hsessions id s' hs' hvisit
    obtain ⟨s'', hs'', hstays⟩ := hages.sessions id s hs
    obtain rfl : s' = s'' := Option.some.inj (hs'.symm.trans hs'')
    have hwas : s.visitId = some visitId := by
      rcases hstays.visitId with hv | hv
      · exact hv.symm.trans hvisit
      · rw [hv] at hvisit
        cases hvisit
    have hunrevoked : s.revokedAt = none := by
      cases hr : s.revokedAt with
      | none => rfl
      | some at₀ =>
        have hrevoked := hstays.revokedAt (by rw [hr]; rfl)
        rw [hlive] at hrevoked
        cases hrevoked
    rw [hstays.expiresAt]
    exact (h.sessions id s hs hwas hunrevoked).trans hages.now
  · obtain ⟨o, ho⟩ := horders id o' ho' hvisit
    obtain ⟨o'', ho'', hold⟩ := hages.orders id o ho
    obtain rfl : o' = o'' := Option.some.inj (ho'.symm.trans ho'')
    have hwas : o.visitId = some visitId := by
      rcases hold.visitId with hv | hv
      · exact hv.symm.trans hvisit
      · rw [hv] at hvisit
        cases hvisit
    rw [hold.createdAt]
    exact (h.orders id o ho hwas).trans (Int.sub_le_sub_right hages.now _)

end

/-! ## What the calls do -/

/-- The calls of these requests. -/
def Call.FloorWork : Call → Prop
  | .tableVisitCreate _ _ | .tableVisitDelete _ | .tableVisitUpdate _ _ | .tableSessionCreate _
  | .orderCreate _ _ | .settleTransaction _ _ _ _ _ => True
  | .tableSessionUpdateMany _ data => data = revoke
  | op => op.Harmless

section

variable {w w' : World} {c : Choice} {op : Call}

theorem Call.Harmless.floorWork (h : op.Harmless) : op.FloorWork := by
  cases op <;> first
    | exact h
    | exact h.elim

/-- They mint no session, but for a scan's insertion. -/
theorem Call.FloorWork.mintsNone (h : op.FloorWork) (hcreate : ∀ data, op ≠ .tableSessionCreate data) :
    op.MintsNone := by
  cases op with
  | tableSessionCreate data => exact absurd rfl (hcreate data)
  | tableSessionUpdate id data => exact .inr h
  | tableSessionUpdateMany cond data => exact h
  | _ => exact trivial

theorem Aging.of_orders (h : NoneComes w w')
    (ho : ∀ id o, w.orders.get? id = some o → ∃ o', w'.orders.get? id = some o' ∧ o.Ages o') :
    Aging w w' := ⟨h.now, h.stays, ho⟩

theorem ages_update {p : Id → Order → Bool} {f : Order → Order}
    (horders : w'.orders = w.orders.update p f) (hf : ∀ o : Order, o.Ages (f o)) {id : Id}
    {o : Order} (ho : w.orders.get? id = some o) :
    ∃ o', w'.orders.get? id = some o' ∧ o.Ages o' := by
  refine ⟨if p id o then f o else o, by rw [horders, Rows.get?_update, ho, Option.map_some], ?_⟩
  split
  · exact hf o
  · exact .refl o

/-- **Under each of them what is there grows older.** -/
theorem exec_aging (hop : op.FloorWork) (w : World) : Aging w (World.exec c op w).1 := by
  have hsame : (World.exec c op w).1.orders = w.orders → (∀ data, op ≠ .tableSessionCreate data) →
      Aging w (World.exec c op w).1 := by
    intro horders hcreate
    refine .of_orders (exec_mintsNone (hop.mintsNone hcreate) w) (fun id o ho => ⟨o, ?_, .refl o⟩)
    rw [horders]
    exact ho
  have hharmless : op.Harmless → Aging w (World.exec c op w).1 := by
    intro h
    refine hsame (exec_harmless h w).orders (fun data hdata => ?_)
    rw [hdata] at h
    exact h.elim
  cases op with
  | tableVisitCreate tableId venueId => exact hsame rfl (fun _ h => by cases h)
  | tableSessionUpdateMany cond data => exact hsame rfl (fun _ h => by cases h)
  | tableVisitUpdate id data =>
    refine hsame ?_ (fun _ h => by cases h)
    show (w.tableVisitUpdate id data).1.orders = _
    unfold World.tableVisitUpdate
    split
    · rfl
    · rfl
  | tableVisitDelete id =>
    refine .of_orders (exec_mintsNone (hop.mintsNone (fun _ h => by cases h)) w) (fun k o ho => ?_)
    show ∃ o', (w.tableVisitDelete id).1.orders.get? k = some o' ∧ _
    unfold World.tableVisitDelete
    split
    · exact ⟨o, ho, .refl o⟩
    · exact ages_update (w := w) (p := fun _ o => o.visitId == some id)
        (f := fun o => { o with visitId := none }) rfl (fun o => ⟨rfl, .inr rfl⟩) ho
  | settleTransaction visitId data orderIds provider sessionIds =>
    refine .of_orders (exec_mintsNone (hop.mintsNone (fun _ h => by cases h)) w) (fun k o ho => ?_)
    show ∃ o', (w.settleTransaction visitId data orderIds provider sessionIds).1.orders.get? k
      = some o' ∧ _
    rcases settleTransaction_cases (Prod.mk.eta
        (p := w.settleTransaction visitId data orderIds provider sessionIds)).symm
      with ⟨h, _⟩ | ⟨_, _, _, _, h⟩
    · rw [h]
      exact ⟨o, ho, .refl o⟩
    · rw [h]
      exact ages_update (w := w) (p := fun k _ => orderIds.contains k) (f := markPaid provider) rfl
        (fun o => ⟨rfl, .inl rfl⟩) ho
  | orderCreate data items =>
    refine .of_orders (exec_mintsNone (hop.mintsNone (fun _ h => by cases h)) w) (fun k o ho => ?_)
    show ∃ o', (w.orderCreate c data items).1.orders.get? k = some o' ∧ _
    rcases orderCreate_cases (Prod.mk.eta (p := w.orderCreate c data items)).symm
      with ⟨h, _⟩ | ⟨h, _⟩
    · rw [h]
      exact ⟨o, ho, .refl o⟩
    · rw [h]
      exact ⟨o, Rows.get?_create_of_some ho, .refl o⟩
  | tableSessionCreate data =>
    have hcreate : (w.tableSessionCreate data).1.now = w.now
        ∧ (w.tableSessionCreate data).1.orders = w.orders
        ∧ ∀ k s, w.tableSessions.get? k = some s →
          (w.tableSessionCreate data).1.tableSessions.get? k = some s := by
      unfold World.tableSessionCreate
      split
      · exact ⟨rfl, rfl, fun _ _ h => h⟩
      · exact ⟨rfl, rfl, fun _ _ h => Rows.get?_create_of_some h⟩
    obtain ⟨hnow, horders, hsessions⟩ := hcreate
    refine ⟨hnow.ge, fun k s hs => ⟨s, hsessions k s hs, .refl s⟩, fun k o ho => ⟨o, ?_, .refl o⟩⟩
    show (w.tableSessionCreate data).1.orders.get? k = some o
    rw [horders]
    exact ho
  | _ => exact hharmless hop

end

/-! ## The protocol -/

/-- What is there grows older, and who closes a visit closes one that is deserted, given that
nobody has come. -/
abbrev desertedProtocol : Protocol seatServer where
  Inv _ := True
  Evolves := Aging
  refl := Aging.refl
  Guard _ v _ op w := nobodyCame v op w
  Local _ _ e := ∀ visitId data, e.op = .tableVisitUpdate visitId data → e.before.Deserted visitId

section

variable {r : SeatRequest} {v : View api World} {w : World} {visitId : Id}

theorem deserted_rely {w w' : World} (h : desertedProtocol.Rely w w') : Aging w w' :=
  h.evolves (fun h h' => Aging.trans h h')

theorem deserted_allows : AllowsHarmless desertedProtocol := by
  intro r v w w' op hop h _
  refine ⟨trivial, ⟨h.now.ge, fun id s hs => ?_, fun id o ho => ⟨o, ?_, .refl o⟩⟩,
    fun visitId data hupdate => ?_⟩
  · obtain ⟨s', hs'⟩ := h.sessionsThere id s hs
    obtain ⟨s₀, hs₀, heq⟩ := h.tableSessions id s' hs'
    obtain rfl : s = s₀ := Option.some.inj (hs.symm.trans hs₀)
    refine ⟨s', hs', ?_⟩
    rw [heq]
    exact ⟨rfl, rfl, rfl, fun hr => hr, .inl rfl⟩
  · show w'.orders.get? id = some o
    rw [h.orders]
    exact ho
  · rw [show op = .tableVisitUpdate visitId data from hupdate] at hop
    exact hop.elim

/-- A call that closes nothing. -/
theorem takes_floorWork {c : Choice} {op : Call} (hop : op.FloorWork)
    (hclose : ∀ visitId data, op ≠ .tableVisitUpdate visitId data) :
    desertedProtocol.Takes r v ⟨op, w, (World.exec c op w).1⟩ :=
  ⟨trivial, exec_aging hop w, fun visitId data h => absurd h (hclose visitId data)⟩

/-- **The close of a visit** that was selected, when nobody has come. -/
theorem deserted_of_nobodyCame {u : World} (data : Time → TableVisit → TableVisit)
    {visit : Id × TableVisit} (hstale : visit ∈ u.staleVisits) (hfirst : selection v = some u)
    (hages : Aging u w) (hg : nobodyCame v (.tableVisitUpdate visit.1 data) w = true) :
    w.Deserted visit.1 := by
  unfold nobodyCame at hg
  dsimp only at hg
  rw [hfirst, Option.all_some, Bool.and_eq_true, List.all_eq_true, List.all_eq_true] at hg
  obtain ⟨hsessions, horders⟩ := hg
  refine (deserted_of_stale hstale).later hages (fun id s hs hvisit => ?_) (fun id o ho hvisit => ?_)
  · have hthere := hsessions (id, s) (Rows.mem_filter.mpr ⟨hs, by rw [hvisit]; exact beq_self_eq_true _⟩)
    exact Option.isSome_iff_exists.mp hthere
  · have hthere := horders (id, o) (Rows.mem_filter.mpr ⟨ho, by rw [hvisit]; exact beq_self_eq_true _⟩)
    exact Option.isSome_iff_exists.mp hthere

theorem selection_push {u : World} (h : selection v = some u) (e : Event api World) :
    selection (v.push e) = some u := by
  unfold selection at h ⊢
  rw [View.past_push]
  cases hp : v.past with
  | nil =>
    rw [hp] at h
    cases h
  | cons e' es =>
    rw [hp] at h
    rw [List.getLast?_cons_cons]
    exact h

/-- **The loop of the sweep**: what it has left to close was selected. -/
theorem closeEach_ok {u : World} (visits : List (Id × TableVisit))
    (hstale : ∀ visit ∈ visits, visit ∈ u.staleVisits) (hfirst : selection v = some u)
    (hrely : desertedProtocol.Rely u v.since) :
    desertedProtocol.Ok r (fun _ _ => True) v (closeEach visits) := by
  induction visits generalizing v with
  | nil => exact trivial
  | cons visit rest ih =>
    have hrest : ∀ x ∈ rest, x ∈ u.staleVisits := fun x hx => hstale x (List.mem_cons_of_mem _ hx)
    refine ok_query deserted_allows _ (fun w₁ _ hrely₁ => ?_)
    refine ok_write (fun w₂ c w₂' x _ hrely₂ hg hx => ?_)
    have hages : Aging u w₂ := deserted_rely ((hrely.trans' hrely₁).trans' hrely₂)
    have hexec := exec_aging (c := c) (show Call.FloorWork (.tableVisitUpdate visit.1
      (abandon (((w₁.buildBill visit.1).map (fun b => b.totalKurus)).getD 0))) from trivial) w₂
    rw [hx] at hexec
    refine ⟨⟨trivial, hexec, ?_⟩, ?_⟩
    · intro visitId data hop
      cases hop
      exact deserted_of_nobodyCame
        (abandon (((w₁.buildBill visit.1).map (fun b => b.totalKurus)).getD 0)) (hstale visit List.mem_cons_self)
        (selection_push hfirst _) hages hg
    · cases x with
      | error e => exact trivial
      | ok _ =>
        refine ok_write (fun w₃ c w₃' x _ hrely₃ _ hx => ?_)
        have hpublish : ∀ v' : View api World, desertedProtocol.Takes r v' ⟨.publish
            (.visit_closed visit.2.venueId visit.1 visit.2.tableId), w₃, _⟩ :=
          fun _ => takes_floorWork (c := c) trivial (fun _ _ h => by cases h)
        cases hx
        refine ⟨hpublish _, ih hrest (selection_push (selection_push (selection_push hfirst _) _) _) ?_⟩
        exact ((((hrely.trans' hrely₁).trans' hrely₂).trans' (.single hexec)).trans' hrely₃).trans'
          (.single (hpublish v).evolves)

/-- **The sweep.** -/
theorem sweep_ok (w : World) :
    desertedProtocol.Ok r (fun _ _ => True) ⟨w, []⟩ closeAbandonedVisits := by
  unfold closeAbandonedVisits
  refine ok_query deserted_allows _ (fun u _ _ => ?_)
  refine Protocol.ok_bind (Protocol.ok_mono (closeEach_ok u.staleVisits (fun _ h => h) rfl .rfl')
    (fun v x _ => ?_))
  cases x with
  | ok _ => exact trivial
  | error _ => exact trivial

/-- **Every request keeps the protocol.** -/
theorem desertedSound : desertedProtocol.Sound (fun _ _ _ => True) where
  env e w _ := by
    cases e with
    | tick ms => exact ⟨trivial, Int.le_add_of_nonneg_right (Int.natCast_nonneg ms),
        fun _ s h => ⟨s, h, .refl s⟩, fun _ o h => ⟨o, h, .refl o⟩⟩
    | crash => exact ⟨trivial, Aging.refl w⟩
  entry r w _ := by
    show desertedProtocol.Ok r _ _ r.prog
    have hcalls : ∀ {p : Api SeatAnswer}, p.Calls (fun op : Call => op.FloorWork
        ∧ ∀ visitId data, op ≠ .tableVisitUpdate visitId data) (fun _ => True) →
        desertedProtocol.Ok r (fun _ _ => True) ⟨w, []⟩ p :=
      fun hp => Protocol.ok_mono (Protocol.ok_of_calls hp
        (fun _ _ _ _ hop _ _ => takes_floorWork hop.1 hop.2)) (fun _ _ _ => trivial)
    cases r with
    | scan tableId venueId token =>
      refine hcalls (Prog.calls_bind (Prog.calls_mono (mintSession_calls tableId venueId token)
        (fun op h => ?_) (fun _ h => h)) (fun _ _ => trivial))
      cases op with
      | tableVisitUpdate id data => exact h.elim
      | tableVisitCreate tableId venueId => exact ⟨trivial, fun _ _ h => by cases h⟩
      | tableVisitDelete id => exact ⟨trivial, fun _ _ h => by cases h⟩
      | tableSessionCreate data => exact ⟨trivial, fun _ _ h => by cases h⟩
      | tableSessionUpdateMany cond data => exact ⟨h, fun _ _ h => by cases h⟩
      | _ => exact ⟨Call.Harmless.floorWork h, fun _ _ h => by cases h⟩
    | place req =>
      refine hcalls (Prog.calls_bind (Prog.calls_mono (postOrder_calls req)
        (fun op h => ?_) (fun _ h => h)) (fun _ _ => trivial))
      cases op with
      | tableVisitUpdate id data => exact h.elim
      | orderCreate data items => exact ⟨trivial, fun _ _ h => by cases h⟩
      | _ => exact ⟨Call.Harmless.floorWork h, fun _ _ h => by cases h⟩
    | settle visitId venueId input =>
      refine hcalls (Prog.calls_bind (Prog.calls_mono (settleVisit_calls visitId venueId input)
        (fun op h => ?_) (fun _ h => h)) (fun _ _ => trivial))
      cases op with
      | tableVisitUpdate id data => exact h.elim
      | settleTransaction visitId data orderIds provider sessionIds =>
        exact ⟨trivial, fun _ _ h => by cases h⟩
      | _ => exact ⟨Call.Harmless.floorWork h, fun _ _ h => by cases h⟩
    | sweep =>
      refine Protocol.ok_map (Protocol.ok_mono (sweep_ok w) (fun _ x _ => ?_))
      cases x with
      | ok _ => exact trivial
      | error _ => exact trivial

end

/-! ## The law -/

/-- **The sweep closes deserted visits**, in every run in which nobody comes to a visit between
its selection and its close. -/
theorem closes_deserted (w₀ : World) (acts : List seatServer.Action)
    (h : Sys.Pool.Meets desertedProtocol.cond (Sys.Pool.init w₀) acts = true) :
    ClosesDeserted w₀ acts := by
  intro pre i c post hacts t ht _ visitId data hnext
  rw [hacts] at h
  obtain ⟨hpre, hpost⟩ := Sys.Pool.meets_append.mp h
  have hok := desertedSound.run trivial hpre
  obtain ⟨op, k, hprog⟩ : ∃ op k, t.prog = .call op k := by
    cases hp : t.prog with
    | ret a =>
      rw [hp] at hnext
      cases hnext
    | raise e =>
      rw [hp] at hnext
      cases hnext
    | call op k => exact ⟨op, k, rfl⟩
  rw [hprog] at hnext
  obtain rfl : op = .tableVisitUpdate visitId data := Option.some.inj hnext
  have hg := desertedProtocol.cond_step ht hprog (Sys.Pool.meets_cons.mp hpost).1
  exact (hok.answer ht hprog hg).1.here visitId data rfl

/-! ## A guest who scans again -/

/-- A party sits at a table for four hours; its phones are long expired. -/
def quietTable : World :=
  { World.blank 14400000 with
    tableVisits := Rows.ofList [⟨0, 0, .opened, 0, none, none, none, none, none, none, none⟩] }

/-- The sweep selects the party's visit, and a guest scans. -/
def scannedMeanwhile : List seatServer.Action :=
  [.arrive .sweep, .step 0 plain, .arrive (.scan 0 0 7), .step 1 plain, .step 1 plain,
    .step 1 plain, .step 0 plain]

/-- The sweep closes the visit of a guest whose phone is live. -/
theorem closes_deserted_fails : ¬ ∀ w₀ acts, ClosesDeserted w₀ acts := by
  intro h
  have hdeserted := h quietTable (scannedMeanwhile ++ [.step 0 plain]) scannedMeanwhile 0 plain []
    rfl _ rfl rfl 0 _ rfl
  have hexpired := hdeserted.sessions 0 ⟨0, 0, 7, some 0, 14400000, 14400000, 21600000, none⟩
    (by decide +kernel) rfl rfl
  exact absurd hexpired (by decide +kernel)

/-- A guest who scans when the visit is closed has one of their own. -/
theorem closes_deserted_early : ClosesDeserted quietTable
    ([.arrive .sweep] ++ List.replicate 4 (.step 0 plain) ++ [.arrive (.scan 0 0 7)]
      ++ List.replicate 6 (.step 1 plain)) :=
  closes_deserted quietTable _ (by decide +kernel)

end Masadan
