import Masadan.QrCodes
import Masadan.Server

/-!
# What the handlers ask

Which calls a handler makes, whatever they are answered. Most are harmless; a
handler is known here by the others, and a protocol that allows those allows
the handler.
-/

namespace Masadan

/-! ## Sessions and the ledger -/

theorem logAttempt_calls (caller : Caller) (outcome : AttemptOutcome) (extra : AttemptInfo) :
    (logAttempt caller outcome extra).Calls Call.Harmless (fun _ => True) :=
  Prog.calls_bind (Prog.calls_attempt (Prog.calls_perform (S := api) trivial))
    (fun _ _ => trivial)

/-- **Validating the cookie** reads, and at most stamps the session. -/
theorem getActiveSession_asks {C : Call → Prop} (hread : ∀ {β : Type} (q : World → β), C (.query q))
    (hstamp : ∀ id, C (.tableSessionUpdate id (fun now s => { s with lastSeenAt := now })))
    (cookie : Option ℕ) (expected : Option Text) :
    (getActiveSession cookie expected).Calls C (fun _ => True) := by
  unfold getActiveSession
  cases cookie with
  | none => exact trivial
  | some token =>
    refine Prog.calls_bind (Prog.calls_perform (S := api) (hread _)) (fun found _ => ?_)
    match found with
    | none => exact trivial
    | some (id, session, table) =>
      dsimp only
      split
      · exact trivial
      · refine Prog.calls_bind (Prog.calls_perform (S := api) (hread _)) (fun now _ => ?_)
        repeat' split
        all_goals first
          | exact trivial
          | exact Prog.calls_bind (Prog.calls_perform (S := api) (hstamp id)) (fun _ _ => trivial)

theorem getActiveSession_calls (cookie : Option ℕ) (expected : Option Text) :
    (getActiveSession cookie expected).Calls Call.Harmless (fun _ => True) :=
  getActiveSession_asks (fun _ => trivial) (fun _ _ _ => rfl) cookie expected

/-- What validation has seen of a session: the row of the cookie's token, not
revoked, in a world that went on to one in which it had not expired. -/
structure Validated {R A : Type} {prog : R → Api A} {external : R → Bool}
    {background : Job → List R} (P : Protocol (server prog external background false))
    (cookie : Option ℕ) (session : ActiveSession) (w : World) : Prop where
  inv : P.Inv w
  token : ∃ s, w.tableSessions.get? session.id = some s ∧ cookie = some s.token
  row : ∃ s, w.tableSessions.get? session.id = some s ∧ s.venueId = session.venueId
    ∧ s.tableId = session.tableId ∧ s.visitId = session.visitId ∧ s.revokedAt = none
    ∧ ∃ w₂, P.Rely w w₂ ∧ w₂.now ≤ s.expiresAt

section

variable {R A : Type} {prog : R → Api A} {external : R → Bool} {background : Job → List R}
  {P : Protocol (server prog external background false)} {r : R} {v : View api World}

theorem sessionByToken_spec {w : World} {token : ℕ} {id : Id} {s : TableSession} {t : Table}
    (h : w.sessionByToken token = some (id, s, t)) :
    w.tableSessions.get? id = some s ∧ s.token = token := by
  unfold World.sessionByToken at h
  split at h
  · cases h
  · next k row hfind =>
    obtain ⟨t', _, heq⟩ := Option.map_eq_some_iff.mp h
    cases heq
    obtain ⟨hrow, htoken⟩ := Rows.find?_eq_some hfind
    exact ⟨hrow, beq_iff_eq.mp htoken⟩

theorem sessionByToken_eq_some {w : World} {token : ℕ} {id : Id} {s : TableSession} {table : Table} :
    w.sessionByToken token = some (id, s, table)
      ↔ w.tableSessions.find? (fun _ s => s.token == token) = some (id, s)
        ∧ w.tables.get? s.tableId = some table := by
  unfold World.sessionByToken
  cases hfind : w.tableSessions.find? (fun _ s => s.token == token) with
  | none =>
    constructor
    · intro h
      cases h
    · rintro ⟨h, _⟩
      cases h
  | some found =>
    obtain ⟨k, u⟩ := found
    constructor
    · intro h
      obtain ⟨table', htable, heq⟩ := Option.map_eq_some_iff.mp h
      cases heq
      exact ⟨rfl, htable⟩
    · rintro ⟨heq, htable⟩
      cases heq
      exact Option.map_eq_some_iff.mpr ⟨table, htable, rfl⟩

/-- The session the cookie is of. -/
def World.sessionOf (w : World) (cookie : Option ℕ) : Option Id :=
  cookie.bind (fun token => (w.tableSessions.find? (fun _ s => s.token == token)).map Prod.fst)

theorem sessionByToken_sessionOf {w : World} {token : ℕ} {id : Id} {s : TableSession} {t : Table}
    (h : w.sessionByToken token = some (id, s, t)) : w.sessionOf (some token) = some id := by
  unfold World.sessionByToken at h
  split at h
  · cases h
  · next k row hfind =>
    obtain ⟨t', _, heq⟩ := Option.map_eq_some_iff.mp h
    cases heq
    show (w.tableSessions.find? (fun _ s => s.token == token)).map Prod.fst = some id
    rw [hfind]
    rfl

/-- The session of a cookie is a row under its token. -/
theorem sessionOf_token {w : World} {cookie : Option ℕ} {id : Id}
    (h : w.sessionOf cookie = some id) :
    ∃ s, w.tableSessions.get? id = some s ∧ cookie = some s.token := by
  obtain ⟨token, rfl, h⟩ := Option.bind_eq_some_iff.mp h
  obtain ⟨⟨k, s⟩, hfind, rfl⟩ := Option.map_eq_some_iff.mp h
  obtain ⟨hrow, htoken⟩ := Rows.find?_eq_some hfind
  exact ⟨s, hrow, congrArg some (beq_iff_eq.mp htoken).symm⟩

/-- **The program has seen the session of the cookie**, and seen it valid. -/
def SawSession (P : Protocol (server prog external background false)) (cookie : Option ℕ)
    (session : ActiveSession) (v : View api World) : Prop :=
  ∃ e ∈ v.past, P.Rely e.after v.since ∧ e.after.sessionOf cookie = some session.id
    ∧ Validated P cookie session e.after

theorem SawSession.extend {cookie : Option ℕ} {session : ActiveSession} {v v' : View api World}
    (h : SawSession P cookie session v) (hpast : v.past <:+ v'.past)
    (hrely : P.Rely v.since v'.since) : SawSession P cookie session v' := by
  obtain ⟨e, he, hled, hfirst, hvalid⟩ := h
  exact ⟨e, hpast.mem he, hled.trans' hrely, hfirst, hvalid⟩

/-- **A session that validates was seen.** -/
theorem getActiveSession_saw (hP : AllowsHarmless P) (cookie : Option ℕ)
    (expected : Option Text) :
    P.Ok r (fun v' x => ∀ session, x = .ok (some session) → SawSession P cookie session v') v
      (getActiveSession cookie expected) := by
  have hnone : ∀ v' : View api World, P.Ok r (fun v' x => ∀ session, x = .ok (some session) →
      SawSession P cookie session v') v' (.ret none) := by
    intro v' session h
    cases h
  unfold getActiveSession
  cases cookie with
  | none => exact hnone _
  | some token =>
    refine ok_query hP _ (fun w₁ hw₁ _ => ?_)
    split
    · exact hnone _
    · next id s t hfound =>
      split
      · exact hnone _
      · next hrevoked =>
        refine ok_query hP _ (fun w₂ _ hw₂ => ?_)
        split
        · exact hnone _
        · next hexpires =>
          -- from here on the session is `active`, and what was seen of it stays seen
          obtain ⟨hrow, htoken⟩ := sessionByToken_spec hfound
          have hseen : SawSession P (some token)
              ⟨id, s.venueId, s.tableId, t.code, t.name, s.visitId⟩
              ((v.push ⟨.query (fun w => w.sessionByToken token), w₁, w₁⟩).push
                ⟨.query (fun w => w.now), w₂, w₂⟩) :=
            ⟨_, List.mem_cons_of_mem _ List.mem_cons_self, hw₂, sessionByToken_sessionOf hfound,
              hw₁, ⟨s, hrow, congrArg some htoken.symm⟩, s, hrow, rfl, rfl, rfl,
              by simpa using hrevoked, w₂, hw₂, Int.not_lt.mp hexpires⟩
          split
          · exact hnone _
          · split
            · exact hnone _
            · split
              · exact hnone _
              · split
                · refine ok_harmless_bind hP (Prog.calls_perform (S := api) (fun _ _ => rfl))
                    (fun v' _ _ hpast hrely => ?_) (fun _ _ _ _ session h => by cases h)
                  intro session h
                  cases h
                  exact hseen.extend hpast hrely
                · intro session h
                  cases h
                  exact hseen

/-- **A session that validates was seen valid.** -/
theorem getActiveSession_ok (hP : AllowsHarmless P) (cookie : Option ℕ)
    (expected : Option Text) :
    P.Ok r (fun v' x => ∀ session, x = .ok (some session) →
      ∃ e ∈ v'.past, Validated P cookie session e.after) v (getActiveSession cookie expected) :=
  Protocol.ok_mono (getActiveSession_saw hP cookie expected) (fun _ _ h session hx => by
    obtain ⟨e, he, _, _, hvalid⟩ := h session hx
    exact ⟨e, he, hvalid⟩)

end

theorem ordersInFlight_calls (visitId : Id) (force : Bool) :
    (ordersInFlight visitId force).Calls Call.Harmless (fun _ => True) := by
  unfold ordersInFlight
  split
  · exact trivial
  · exact Prog.calls_perform (S := api) trivial

/-! ## The insertion of an order -/

/-- **However often it is tried**, an insertion reads, and inserts the draft under some number. -/
theorem createAttempts_asks {C : Call → Prop} {draft : OrderDraft}
    (hread : ∀ {β : Type} (q : World → β), C (.query q))
    (hcreate : ∀ number, C (.orderCreate (draft.row number) draft.items)) (n : ℕ) :
    (createAttempts draft n).Calls C (fun _ => True) := by
  induction n with
  | zero => exact trivial
  | succ n ih =>
    have honce : (createOnce draft).Calls C (fun _ => True) :=
      Prog.calls_bind (Prog.calls_perform (S := api) (hread _))
        (fun _ _ => Prog.calls_perform (S := api) (hcreate _))
    unfold createAttempts
    refine Prog.calls_bind (Prog.calls_attempt honce) (fun result _ => ?_)
    split
    · exact trivial
    · split
      · refine Prog.calls_bind (Prog.calls_perform (S := api) (hread _)) (fun found _ => ?_)
        cases found with
        | none => exact trivial
        | some order => exact trivial
      · split
        · split
          · exact trivial
          · exact ih
        · exact trivial

/-! ## Calls of the visits -/

/-- What the operations that write by id are made of: harmless calls and
updates by id. -/
def Call.VisitWork : Call → Prop
  | .tableVisitUpdate _ _ => True
  | op => op.Harmless

theorem visitWork_cases {op : Call} (h : op.VisitWork) :
    (∃ id data, op = .tableVisitUpdate id data) ∨ op.Harmless := by
  cases op with
  | tableVisitUpdate id data => exact .inl ⟨id, data, rfl⟩
  | _ => exact .inr h

/-- **A request for the bill** reads, stamps the visit where none is pending, and is announced. -/
theorem requestBill_asks {C : Call → Prop} {visitId venueId : Id}
    (hread : ∀ {β : Type} (q : World → β), C (.query q))
    (hstamp : C (.tableVisitUpdate visitId
      (fun now v => { v with status := .bill_requested, billRequestedAt := some now })))
    (hpublish : ∀ event, C (.publish event)) :
    (requestBill visitId venueId).Calls C (fun _ => True) := by
  unfold requestBill
  refine Prog.calls_bind (Prog.calls_perform (S := api) (hread _)) (fun found _ => ?_)
  split
  · exact trivial
  · split
    · exact trivial
    · split
      · exact Prog.calls_bind (Prog.calls_perform (S := api) hstamp) (fun _ _ =>
          Prog.calls_bind (Prog.calls_perform (S := api) (hpublish _)) (fun _ _ => trivial))
      · exact Prog.calls_bind (Prog.calls_perform (S := api) (hpublish _)) (fun _ _ => trivial)

/-- Calls that write to visits what `U` allows by id, what `S` allows in a settlement, and
nothing else to them. -/
def Call.VisitData (U S : (Time → TableVisit → TableVisit) → Prop) : Call → Prop
  | .tableVisitUpdate _ data => U data
  | .settleTransaction _ data _ _ _ => S data
  | op => op.Harmless

section

variable {U S : (Time → TableVisit → TableVisit) → Prop}

theorem Call.Harmless.visitData {op : Call} (h : op.Harmless) : op.VisitData U S := by
  cases op <;> first
    | exact h
    | exact h.elim

theorem visitData_cases {op : Call} (h : op.VisitData U S) :
    (∃ id data, op = .tableVisitUpdate id data ∧ U data)
      ∨ (∃ id data orderIds provider sessionIds,
        op = .settleTransaction id data orderIds provider sessionIds ∧ S data)
      ∨ op.Harmless := by
  cases op with
  | tableVisitUpdate id data => exact .inl ⟨id, data, rfl, h⟩
  | settleTransaction id data orderIds provider sessionIds =>
    exact .inr (.inl ⟨id, data, orderIds, provider, sessionIds, rfl, h⟩)
  | _ => exact .inr (.inr h)

theorem requestBill_data (visitId venueId : Id)
    (h : U (fun now v => { v with status := .bill_requested, billRequestedAt := some now })) :
    (requestBill visitId venueId).Calls (Call.VisitData U S) (fun _ => True) :=
  requestBill_asks (fun _ => trivial) h (fun _ => trivial)

theorem clearBillRequest_data (visitId venueId : Id)
    (h : U (fun _ v => { v with status := .opened, billRequestedAt := none })) :
    (clearBillRequest visitId venueId).Calls (Call.VisitData U S) (fun _ => True) := by
  unfold clearBillRequest
  refine Prog.calls_bind (Prog.calls_perform (S := api) trivial) (fun found _ => ?_)
  split
  · exact trivial
  · split
    · exact trivial
    · exact Prog.calls_bind (Prog.calls_perform (S := api) h) (fun _ _ =>
        Prog.calls_bind (Prog.calls_perform (S := api) trivial) (fun _ _ => trivial))

theorem closeEach_data (h : ∀ totalKurus, U (abandon totalKurus))
    (visits : List (Id × TableVisit)) :
    (closeEach visits).Calls (Call.VisitData U S) (fun _ => True) := by
  induction visits with
  | nil => exact trivial
  | cons visit rest ih =>
    exact Prog.calls_bind (Prog.calls_perform (S := api) trivial) (fun _ _ =>
      Prog.calls_bind (Prog.calls_perform (S := api) (h _)) (fun _ _ =>
        Prog.calls_bind (Prog.calls_perform (S := api) trivial) (fun _ _ => ih)))

theorem closeAbandonedVisits_data (h : ∀ totalKurus, U (abandon totalKurus)) :
    closeAbandonedVisits.Calls (Call.VisitData U S) (fun _ => True) :=
  Prog.calls_bind (Prog.calls_perform (S := api) trivial) (fun stale _ =>
    Prog.calls_bind (closeEach_data h stale) (fun _ _ => trivial))

theorem settleVisit_data (visitId venueId : Id) {input : SettleInput}
    (h : ∀ totalKurus, S (input.close totalKurus)) :
    (settleVisit visitId venueId input).Calls (Call.VisitData U S) (fun _ => True) := by
  unfold settleVisit
  refine Prog.calls_bind (Prog.calls_perform (S := api) trivial) (fun found _ => ?_)
  split
  · exact trivial
  · split
    · exact trivial
    · refine Prog.calls_bind (Prog.calls_mono (ordersInFlight_calls visitId input.force)
        (fun _ h => h.visitData) (fun _ h => h)) (fun inFlight _ => ?_)
      split
      · exact trivial
      · unfold takePayment
        refine Prog.calls_bind (Prog.calls_perform (S := api) trivial) (fun bill _ => ?_)
        refine Prog.calls_bind (Prog.calls_perform (S := api) trivial) (fun sessionIds _ => ?_)
        refine Prog.calls_bind (Prog.calls_perform (S := api) (h _)) (fun count _ => ?_)
        split
        · exact trivial
        · exact Prog.calls_bind (Prog.calls_perform (S := api) trivial) (fun _ _ => trivial)

end

theorem Call.VisitData.visitWork {op : Call}
    (h : op.VisitData (fun _ => True) (fun _ => False)) : op.VisitWork := by
  cases op <;> exact h

theorem requestBill_calls (visitId venueId : Id) :
    (requestBill visitId venueId).Calls Call.VisitWork (fun _ => True) :=
  Prog.calls_mono (requestBill_data visitId venueId trivial) (fun _ h => h.visitWork)
    (fun _ h => h)

theorem clearBillRequest_calls (visitId venueId : Id) :
    (clearBillRequest visitId venueId).Calls Call.VisitWork (fun _ => True) :=
  Prog.calls_mono (clearBillRequest_data visitId venueId trivial) (fun _ h => h.visitWork)
    (fun _ h => h)

theorem closeAbandonedVisits_calls :
    closeAbandonedVisits.Calls Call.VisitWork (fun _ => True) :=
  Prog.calls_mono (closeAbandonedVisits_data fun _ => trivial) (fun _ h => h.visitWork)
    (fun _ h => h)

/-- What a scan does to visits: it looks, opens one, and discards it. -/
def Call.JoinWork : Call → Prop
  | .query _ | .tableVisitCreate _ _ | .tableVisitDelete _ => True
  | _ => False

theorem openOrJoinVisit_calls (tableId venueId : Id) :
    (openOrJoinVisit tableId venueId).Calls Call.JoinWork (fun _ => True) := by
  unfold openOrJoinVisit
  refine Prog.calls_bind (Prog.calls_perform (S := api) trivial) (fun existing _ => ?_)
  split
  · exact trivial
  · refine Prog.calls_bind (Prog.calls_perform (S := api) trivial) (fun created _ => ?_)
    refine Prog.calls_bind (Prog.calls_perform (S := api) trivial) (fun opened _ => ?_)
    split
    · split
      · exact trivial
      · exact Prog.calls_bind (Prog.calls_attempt (Prog.calls_perform (S := api) trivial))
          (fun _ _ => trivial)
    · exact trivial

/-- What a scan does: it sits down at a visit, and its session is written and may displace
others. -/
def Call.ScanWork : Call → Prop
  | .tableVisitCreate _ _ | .tableVisitDelete _ | .tableSessionCreate _ => True
  | .tableSessionUpdateMany _ data => data = revoke
  | op => op.Harmless

theorem Call.Harmless.scanWork {op : Call} (h : op.Harmless) : op.ScanWork := by
  cases op <;> first
    | exact h
    | exact h.elim

theorem Call.JoinWork.scanWork {op : Call} (h : op.JoinWork) : op.ScanWork := by
  cases op <;> first
    | exact trivial
    | exact h.elim

theorem mintSession_calls (tableId venueId : Id) (token : ℕ) :
    (mintSession tableId venueId token).Calls Call.ScanWork (fun _ => True) := by
  unfold mintSession
  refine Prog.calls_bind (Prog.calls_mono (openOrJoinVisit_calls tableId venueId)
    (fun _ h => h.scanWork) (fun _ h => h)) (fun visitId _ => ?_)
  refine Prog.calls_bind (Prog.calls_perform (S := api) trivial) (fun _ _ => ?_)
  refine Prog.calls_bind (Prog.calls_perform (S := api) trivial) (fun active _ => ?_)
  split
  · exact Prog.calls_bind (Prog.calls_perform (S := api) rfl) (fun _ _ => trivial)
  · exact trivial

theorem logFailure_calls (caller : Caller) (outcome : AttemptOutcome) (extra : AttemptInfo) :
    (logFailure caller outcome extra).Calls Call.Harmless (fun _ => True) := by
  unfold logFailure
  refine Prog.calls_bind (Prog.calls_perform (S := api) trivial) (fun counted _ => ?_)
  split
  · exact logAttempt_calls _ _ _
  · exact trivial

theorem getScan_calls (hmac : Hmac) (caller : Caller) (code sig : Text) (token : ℕ) :
    (getScan hmac caller code sig token).Calls Call.ScanWork (fun _ => True) := by
  have hwall : ∀ {p : Api Unit} {a : ScanAnswer}, p.Calls Call.Harmless (fun _ => True) →
      (p.bind (fun _ => .ret a)).Calls Call.ScanWork (fun _ => True) :=
    fun hp => Prog.calls_bind (Prog.calls_mono hp (fun _ h => h.scanWork) (fun _ h => h))
      (fun _ _ => trivial)
  unfold getScan
  refine Prog.calls_bind (Prog.calls_perform (S := api) trivial) (fun gate _ => ?_)
  cases gate with
  | some log =>
    show (if _ then _ else _ : Api ScanAnswer).Calls _ _
    split
    · exact hwall (logAttempt_calls _ _ _)
    · exact trivial
  | none =>
    refine Prog.calls_bind (Prog.calls_perform (S := api) trivial) (fun found _ => ?_)
    split
    · exact hwall (logFailure_calls _ _ _)
    · split
      · exact hwall (logFailure_calls _ _ _)
      · split
        · exact hwall (logFailure_calls _ _ _)
        · refine Prog.calls_bind (Prog.calls_perform (S := api) trivial) (fun ok _ => ?_)
          split
          · exact hwall (logAttempt_calls _ _ _)
          · exact Prog.calls_bind (mintSession_calls _ _ _) (fun minted _ =>
              hwall (logAttempt_calls _ _ _))

/-- What a settlement is made of: harmless calls, and the transaction that closes. -/
def Call.SettleWork : Call → Prop
  | .settleTransaction _ data _ _ _ => ∀ now v, (data now v).status = .closed
  | op => op.Harmless

theorem Call.Harmless.settleWork {op : Call} (h : op.Harmless) : op.SettleWork := by
  cases op <;> first
    | exact h
    | exact h.elim

theorem Call.VisitData.settleWork {op : Call}
    (h : op.VisitData (fun _ => False) (fun data => ∀ now v, (data now v).status = .closed)) :
    op.SettleWork := by
  cases op <;> exact h

theorem settleVisit_calls (visitId venueId : Id) (input : SettleInput) :
    (settleVisit visitId venueId input).Calls Call.SettleWork (fun _ => True) :=
  Prog.calls_mono (settleVisit_data visitId venueId (fun _ _ _ => rfl)) (fun _ h => h.settleWork)
    (fun _ h => h)

section

variable {R A : Type} {prog : R → Api A} {external : R → Bool} {background : Job → List R}
  {P : Protocol (server prog external background false)} {r : R} {v : View api World}

/-- **A settlement keeps a protocol that allows its transaction** on the sessions it has
read last. -/
theorem settleVisit_commits (hP : AllowsHarmless P) {visitId : Id} {input : SettleInput}
    (hcommit : ∀ v' w c totalKurus orderIds w' n, P.Inv w → P.Rely v'.since w →
      P.Guard r v' c (.settleTransaction visitId (input.close totalKurus) orderIds
        input.paymentMethod (v'.since.unrevokedSessions visitId)) w = true →
      w.settleTransaction visitId (input.close totalKurus) orderIds input.paymentMethod
        (v'.since.unrevokedSessions visitId) = (w', n) →
      P.Takes r v' ⟨.settleTransaction visitId (input.close totalKurus) orderIds
        input.paymentMethod (v'.since.unrevokedSessions visitId), w, w'⟩) (venueId : Id) :
    P.Ok r (fun _ _ => True) v (settleVisit visitId venueId input) := by
  unfold settleVisit
  refine ok_query hP _ (fun w₁ _ _ => ?_)
  split
  · exact trivial
  · split
    · exact trivial
    · refine ok_harmless_bind hP (ordersInFlight_calls visitId input.force)
        (fun v' inFlight _ _ _ => ?_) (fun _ _ _ _ => trivial)
      split
      · exact trivial
      · unfold takePayment
        refine ok_query hP _ (fun w₂ _ _ => ?_)
        refine ok_query hP _ (fun w₃ _ _ => ?_)
        refine ok_write (fun w c w' x hw hv hg hx => ?_)
        obtain ⟨rfl, rfl⟩ := Prod.mk.inj hx
        refine ⟨hcommit _ w c _ _ _ _ hw hv hg rfl, ?_⟩
        show P.Ok _ _ _ (if _ then _ else _)
        split
        · exact trivial
        · exact ok_harmless_bind hP (Prog.calls_perform (S := api) trivial)
            (fun _ _ _ _ _ => trivial) (fun _ _ _ _ => trivial)

end

/-! ## Sessions stay -/

/-- **Sessions stay**: at the visit they were at or at none, and revoked if they were. -/
def SessionsStay (w w' : World) : Prop :=
  ∀ id s, w.tableSessions.get? id = some s → ∃ s', w'.tableSessions.get? id = some s'
    ∧ (s'.visitId = s.visitId ∨ s'.visitId = none)
    ∧ (s.revokedAt.isSome = true → s'.revokedAt.isSome = true)

theorem SessionsStay.of_eq {w w' : World} (h : w'.tableSessions = w.tableSessions) :
    SessionsStay w w' :=
  fun _ s hs => ⟨s, h ▸ hs, .inl rfl, fun hr => hr⟩

theorem SessionsStay.trans {w w' w'' : World} (h : SessionsStay w w') (h' : SessionsStay w' w'') :
    SessionsStay w w'' := by
  intro id s hs
  obtain ⟨s', hs', hvisit, hrevoked⟩ := h id s hs
  obtain ⟨s'', hs'', hvisit', hrevoked'⟩ := h' id s' hs'
  refine ⟨s'', hs'', ?_, hrevoked' ∘ hrevoked⟩
  rcases hvisit' with hsame | hnone
  · exact hvisit.imp hsame.trans hsame.trans
  · exact .inr hnone

/-- Sessions written where they are. -/
theorem SessionsStay.of_update {w w' : World} {p : Id → TableSession → Bool}
    {f : TableSession → TableSession} (h : w'.tableSessions = w.tableSessions.update p f)
    (hf : ∀ s, ((f s).visitId = s.visitId ∨ (f s).visitId = none)
      ∧ (s.revokedAt.isSome = true → (f s).revokedAt.isSome = true)) : SessionsStay w w' := by
  intro id s hs
  refine ⟨if p id s then f s else s, by rw [h, Rows.get?_update, hs, Option.map_some], ?_⟩
  split
  · exact hf s
  · exact ⟨.inl rfl, fun hr => hr⟩

/-- Sessions revoked. -/
theorem SessionsStay.of_revoke {w w' : World} {p : Id → TableSession → Bool} {now : Time}
    (h : w'.tableSessions = w.tableSessions.update p (revoke now)) : SessionsStay w w' :=
  SessionsStay.of_update h (fun _ => ⟨.inl rfl, fun _ => rfl⟩)

theorem SessionsStay.mint {w w' : World} {data : NewTableSession} {x : Except DbError Id}
    (hx : w.tableSessionCreate data = (w', x)) : SessionsStay w w' := by
  unfold World.tableSessionCreate at hx
  split at hx
  · cases hx
    exact SessionsStay.of_eq rfl
  · cases hx
    exact fun id s hs => ⟨s, Rows.get?_create_of_some hs, .inl rfl, fun hr => hr⟩

theorem SessionsStay.discard {w w' : World} {id : Id} {x : Except DbError Unit}
    (hx : w.tableVisitDelete id = (w', x)) : SessionsStay w w' := by
  unfold World.tableVisitDelete at hx
  split at hx
  · cases hx
    exact SessionsStay.of_eq rfl
  · cases hx
    exact SessionsStay.of_update (p := fun _ s => s.visitId == some id)
      (f := fun s => { s with visitId := none }) rfl (fun s => ⟨.inr rfl, fun hr => hr⟩)

theorem SameRows.sessionsStay {w w' : World} (h : SameRows w w') : SessionsStay w w' := by
  intro id s hs
  obtain ⟨s', hs'⟩ := h.sessionsThere id s hs
  obtain ⟨s₀, hs₀, heq⟩ := h.tableSessions id s' hs'
  obtain rfl : s = s₀ := Option.some.inj (hs.symm.trans hs₀)
  exact ⟨s', hs', .inl (by rw [heq]), fun hr => by rw [heq]; exact hr⟩

theorem mem_unrevokedSessions {w : World} {visitId id : Id} {s : TableSession}
    (hs : w.tableSessions.get? id = some s) (hof : s.visitId = some visitId)
    (hlive : s.revokedAt = none) : id ∈ w.unrevokedSessions visitId := by
  refine List.mem_map.mpr ⟨(id, s), Rows.mem_filter.mpr ⟨hs, ?_⟩, rfl⟩
  rw [Bool.and_eq_true, beq_iff_eq, hlive]
  exact ⟨hof, rfl⟩

/-- **A session of the visit that nobody has revoked was found by whoever looked**, once it
was there. -/
theorem SessionsStay.found {u w : World} (h : SessionsStay u w) {visitId id : Id}
    {s : TableSession} (hs : w.tableSessions.get? id = some s) (hof : s.visitId = some visitId)
    (hlive : s.revokedAt = none) (hthere : (u.tableSessions.get? id).isSome = true) :
    id ∈ u.unrevokedSessions visitId := by
  obtain ⟨s₀, hs₀⟩ := Option.isSome_iff_exists.mp hthere
  obtain ⟨s', hs', hvisit, hrevoked⟩ := h id s₀ hs₀
  obtain rfl : s = s' := Option.some.inj (hs.symm.trans hs')
  refine mem_unrevokedSessions hs₀ ?_ ?_
  · rcases hvisit with hsame | hnone
    · exact hsame.symm.trans hof
    · rw [hof] at hnone
      cases hnone
  · cases hr : s₀.revokedAt with
    | none => rfl
    | some at₀ =>
      rw [hr, hlive] at hrevoked
      exact absurd (hrevoked rfl) (by decide)

/-- What closes visits, and does nothing else to them. -/
def Call.ClosingWork : Call → Prop
  | .tableVisitUpdate _ data => ∀ now v, (data now v).status = .closed
  | op => op.SettleWork

theorem Call.SettleWork.closingWork {op : Call} (h : op.SettleWork) : op.ClosingWork := by
  cases op <;> first
    | exact h
    | exact h.elim

theorem Call.VisitData.closingWork {op : Call}
    (h : op.VisitData (fun data => ∀ now v, (data now v).status = .closed)
      (fun data => ∀ now v, (data now v).status = .closed)) : op.ClosingWork := by
  cases op <;> exact h

/-- The sweep's updates close. -/
theorem sweep_closes : closeAbandonedVisits.Calls Call.ClosingWork (fun _ => True) :=
  Prog.calls_mono (closeAbandonedVisits_data fun _ _ _ => rfl) (fun _ h => h.closingWork)
    (fun _ h => h)

/-- The visit is closed. -/
def World.VisitClosed (w : World) (visitId : Id) : Prop :=
  ∃ v, w.tableVisits.get? visitId = some v ∧ v.status = .closed

theorem visitClosed_iff {w : World} {visitId : Id} : w.VisitClosed visitId
    ↔ (w.tableVisits.get? visitId).map (fun v => v.status) = some .closed :=
  Option.map_eq_some_iff.symm

instance (w : World) (visitId : Id) : Decidable (w.VisitClosed visitId) :=
  decidable_of_iff _ visitClosed_iff.symm

/-- **A settlement's write happens on a visit that is not closed, or not at all.** -/
theorem settleTransaction_cases {w w' : World} {visitId : Id}
    {data : Time → TableVisit → TableVisit} {orderIds sessionIds : List Id}
    {provider : PaymentMethod} {n : ℕ}
    (hx : w.settleTransaction visitId data orderIds provider sessionIds = (w', n)) :
    (w' = w ∧ n = 0)
      ∨ ∃ v, n ≠ 0 ∧ w.tableVisits.get? visitId = some v ∧ v.status ≠ .closed
        ∧ w' = { w with
          tableVisits := w.tableVisits.update (World.closable visitId) (data w.now)
          orders := w.orders.update (fun id _ => orderIds.contains id) (markPaid provider)
          tableSessions := w.tableSessions.update (fun id _ => sessionIds.contains id)
            (revoke w.now) } := by
  unfold World.settleTransaction at hx
  dsimp only at hx
  split at hx
  · cases hx
    exact .inl ⟨rfl, rfl⟩
  · next hcount =>
    cases hx
    obtain ⟨id, v, hv, hp⟩ := Rows.exists_of_count hcount
    obtain ⟨hid, hopen⟩ := Bool.and_eq_true_iff.mp hp
    obtain rfl : id = visitId := beq_iff_eq.mp hid
    exact .inr ⟨v, hcount, hv, bne_iff_ne.mp hopen, rfl⟩

/-- The row a settlement closes. -/
theorem get?_closable {w : World} {visitId : Id} {v : TableVisit}
    {f : TableVisit → TableVisit} (hv : w.tableVisits.get? visitId = some v)
    (hopen : v.status ≠ .closed) :
    (w.tableVisits.update (World.closable visitId) f).get? visitId = some (f v) := by
  have hp : World.closable visitId visitId v = true := by
    unfold World.closable
    rw [Bool.and_eq_true, bne_iff_ne]
    exact ⟨beq_self_eq_true _, hopen⟩
  rw [Rows.get?_update, hv, Option.map_some, if_pos hp]

/-- Another visit is as it was. -/
theorem get?_closable_other {w : World} {visitId id : Id} {f : TableVisit → TableVisit}
    (hid : id ≠ visitId) :
    (w.tableVisits.update (World.closable visitId) f).get? id = w.tableVisits.get? id := by
  rw [Rows.get?_update]
  cases w.tableVisits.get? id with
  | none => rfl
  | some v =>
    have hnot : ¬ World.closable visitId id v = true := by
      simp [World.closable, hid]
    rw [Option.map_some, if_neg hnot]

/-- **What a revocation leaves unrevoked** was there before, and was not to be revoked. -/
theorem get?_revoked {w : World} {cond : Id → TableSession → Bool} {now : Time} {id : Id}
    {s : TableSession} (h : (w.tableSessions.update cond (revoke now)).get? id = some s)
    (hlive : s.revokedAt = none) :
    w.tableSessions.get? id = some s ∧ ¬ cond id s = true := by
  rw [Rows.get?_update] at h
  obtain ⟨s₀, hs₀, hs⟩ := Option.map_eq_some_iff.mp h
  split at hs
  · subst hs
    cases hlive
  · next hnot =>
    subst hs
    exact ⟨hs₀, hnot⟩

/-! ## Calls of the outbox -/

/-- **A call on deliveries already there**: a read, or an update that leaves the order
and the payload. -/
def Call.PushWork : Call → Prop
  | .query _ => True
  | .posDeliveryUpdate _ data => ∀ d, (data d).orderId = d.orderId ∧ (data d).payload = d.payload
  | .posDeliveryUpdateMany _ data =>
    ∀ d, (data d).orderId = d.orderId ∧ (data d).payload = d.payload
  | _ => False

/-- **A call of the outbox**: such a call, or a new delivery. -/
def Call.OutboxWork : Call → Prop
  | .posDeliveryCreate _ => True
  | op => op.PushWork

theorem Call.PushWork.outboxWork {op : Call} (h : op.PushWork) : op.OutboxWork := by
  cases op <;> first
    | exact h
    | exact h.elim

/-- A call of the outbox leaves everything but the deliveries alone. -/
theorem exec_outboxWork {c : Choice} {op : Call} (h : op.OutboxWork) (w : World) :
    ∃ deliveries, (World.exec c op w).1 = { w with posDeliveries := deliveries } := by
  cases op with
  | query q => exact ⟨w.posDeliveries, rfl⟩
  | posDeliveryCreate data => exact ⟨_, rfl⟩
  | posDeliveryUpdate id data =>
    show ∃ _, (w.posDeliveryUpdate id data).1 = _
    unfold World.posDeliveryUpdate
    split
    · exact ⟨w.posDeliveries, rfl⟩
    · exact ⟨_, rfl⟩
  | posDeliveryUpdateMany cond data => exact ⟨_, rfl⟩
  | _ => exact h.elim

theorem attemptDelivery_calls (deliveryId : Id) (ticket : Ticket) :
    (attemptDelivery deliveryId ticket).Calls Call.PushWork (fun _ => True) := by
  unfold attemptDelivery
  refine Prog.calls_bind (Prog.calls_perform (S := api) trivial) (fun found _ => ?_)
  split
  · exact trivial
  · next delivery =>
    split
    · exact trivial
    · have hpush : (push deliveryId delivery ticket).Calls Call.PushWork (fun _ => True) := by
        unfold push
        dsimp only
        split
        · refine Prog.calls_bind (Prog.calls_attempt (Prog.calls_perform (S := api)
            (fun _ => ⟨rfl, rfl⟩))) (fun x _ => ?_)
          cases x with
          | ok _ => exact trivial
          | error _ => exact trivial
        · exact trivial
      refine Prog.calls_bind hpush (fun err _ => ?_)
      cases err with
      | none => exact trivial
      | some e =>
        exact Prog.calls_bind (Prog.calls_perform (S := api) (fun _ => ⟨rfl, rfl⟩))
          (fun _ _ => trivial)

theorem enqueuePosDelivery_calls (orderId : Id) (amendment : Option Amendment) :
    (enqueuePosDelivery orderId amendment).Calls Call.OutboxWork (fun _ => True) := by
  have hbody : (enqueueBody orderId amendment).Calls Call.OutboxWork (fun _ => True) := by
    unfold enqueueBody
    refine Prog.calls_bind (Prog.calls_perform (S := api) trivial) (fun found _ => ?_)
    cases found with
    | none => exact trivial
    | some o =>
      exact Prog.calls_bind (Prog.calls_perform (S := api) trivial) (fun delivery _ =>
        Prog.calls_mono (attemptDelivery_calls delivery _) (fun _ h => h.outboxWork) (fun _ h => h))
  exact Prog.calls_bind (Prog.calls_attempt hbody) (fun _ _ => trivial)

theorem retryEach_calls (rows : List (Id × Ticket)) :
    (retryEach rows).Calls Call.PushWork (fun _ => True) := by
  induction rows with
  | nil => exact trivial
  | cons row rest ih => exact Prog.calls_bind (attemptDelivery_calls row.1 row.2) (fun _ _ => ih)

theorem sweepPosDeliveries_calls :
    sweepPosDeliveries.Calls Call.PushWork (fun _ => True) := by
  unfold sweepPosDeliveries
  refine Prog.calls_bind (Prog.calls_perform (S := api) trivial) (fun staleBefore _ => ?_)
  refine Prog.calls_bind (Prog.calls_perform (S := api) (fun _ => ⟨rfl, rfl⟩)) (fun _ _ => ?_)
  refine Prog.calls_bind (Prog.calls_perform (S := api) (fun _ => ⟨rfl, rfl⟩)) (fun _ _ => ?_)
  refine Prog.calls_bind (Prog.calls_perform (S := api) (fun _ => ⟨rfl, rfl⟩)) (fun _ _ => ?_)
  refine Prog.calls_bind (Prog.calls_perform (S := api) trivial) (fun rows _ => ?_)
  exact Prog.calls_bind (retryEach_calls rows) (fun _ _ => trivial)

end Masadan
