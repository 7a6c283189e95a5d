import Masadan.History
import Masadan.ScanFloods

/-!
# What the ledger keeps of a caller

Each request that the abuse ledger records is recorded with its caller's address, in a column
of its own. A prune blanks that column in the rows of more than a month and deletes the rows of
more than six, so that the address should be gone from the ledger after a month.

It is gone from the columns that are blanked. The routes compose texts for another column, and
the record of a scan flood says there from where it came, so this address stays for the whole
six months (`ages_out_fails`). What is left of a row after a month is what its route wrote into
the other columns (`Remembered`, `anonymise_mentions`), and an address ages out exactly when none
of the rows that are between a month and six months old was written with it there (`ages_out`).
-/

namespace Masadan

/-! ## The prune -/

def DAY_MS : ℤ := 24 * 60 * 60 * 1000

def IP_RETENTION_DAYS : ℤ := 30

def ROW_RETENTION_DAYS : ℤ := 180

def SESSION_RETENTION_DAYS : ℤ := 90

structure RetentionResult where
  anonymised : ℕ
  deletedAttempts : ℕ
  deletedSessions : ℕ
  deriving DecidableEq, Repr

def World.daysAgo (w : World) (d : ℤ) : Time := w.now - d * DAY_MS

/-- An old row that still carries identifiers. -/
def World.identifying (w : World) (_ : Id) (a : OrderAttempt) : Bool :=
  decide (a.createdAt < w.daysAgo IP_RETENTION_DAYS) && (a.ip != [] || a.userAgent != [])

/-- What the identifying columns are set to. -/
def anonymise (a : OrderAttempt) : OrderAttempt := { a with ip := [], userAgent := [] }

/-- A row that is to go. -/
def World.outdated (w : World) (_ : Id) (a : OrderAttempt) : Bool :=
  decide (a.createdAt < w.daysAgo ROW_RETENTION_DAYS)

/-- An old session that no order refers to. -/
def World.spent (w : World) (id : Id) (s : TableSession) : Bool :=
  decide (s.createdAt < w.daysAgo SESSION_RETENTION_DAYS)
    && (w.orders.find? (fun _ o => o.sessionId == id)).isNone

/-- **The prune.** -/
def World.pruneRetainedData (w : World) : World × RetentionResult :=
  let attempts := w.orderAttempts.update w.identifying anonymise
  ({ w with
    orderAttempts := attempts.erase w.outdated
    tableSessions := w.tableSessions.erase w.spent },
   { anonymised := w.orderAttempts.count w.identifying
     deletedAttempts := attempts.count w.outdated
     deletedSessions := w.tableSessions.count w.spent })

theorem daysAgo_le (w : World) : w.daysAgo ROW_RETENTION_DAYS ≤ w.daysAgo IP_RETENTION_DAYS := by
  unfold World.daysAgo
  exact Int.sub_le_sub_left (by decide) _

@[simp] theorem anonymise_createdAt (a : OrderAttempt) : (anonymise a).createdAt = a.createdAt :=
  rfl

/-- **What the prune leaves of the ledger**: the rows of the last six months, those of more than
a month without their identifying columns. -/
theorem pruned_get? {w : World} {id : Id} {r : OrderAttempt} :
    w.pruneRetainedData.1.orderAttempts.get? id = some r
      ↔ ∃ a, w.orderAttempts.get? id = some a ∧ w.daysAgo ROW_RETENTION_DAYS ≤ a.createdAt
        ∧ r = if a.createdAt < w.daysAgo IP_RETENTION_DAYS then anonymise a else a := by
  -- a row without identifiers is as it would be without them
  have hrow : ∀ a : OrderAttempt, (if w.identifying id a then anonymise a else a)
      = if a.createdAt < w.daysAgo IP_RETENTION_DAYS then anonymise a else a := by
    intro a
    unfold World.identifying
    by_cases hold : a.createdAt < w.daysAgo IP_RETENTION_DAYS
    · by_cases hcarries : (a.ip != [] || a.userAgent != []) = true
      · rw [hcarries, decide_eq_true hold]
        exact (if_pos rfl).trans (if_pos hold).symm
      · obtain ⟨hip, hagent⟩ : a.ip = [] ∧ a.userAgent = [] := by simpa using hcarries
        have hblank : anonymise a = a := by
          cases a
          cases hip
          cases hagent
          rfl
        rw [hblank, ite_self, ite_self]
    · rw [decide_eq_false hold, if_neg hold]
      rfl
  show ((w.orderAttempts.update w.identifying anonymise).erase w.outdated).get? id = some r ↔ _
  rw [Rows.get?_erase, Option.filter_eq_some_iff, Rows.get?_update, Option.map_eq_some_iff]
  constructor
  · rintro ⟨⟨a, ha, rfl⟩, hkept⟩
    rw [hrow] at hkept ⊢
    refine ⟨a, ha, ?_, rfl⟩
    have hage : ¬ (if a.createdAt < w.daysAgo IP_RETENTION_DAYS then anonymise a else a).createdAt
        < w.daysAgo ROW_RETENTION_DAYS := by
      simpa [World.outdated] using hkept
    have hsame : (if a.createdAt < w.daysAgo IP_RETENTION_DAYS then anonymise a else a).createdAt
        = a.createdAt := by
      split
      · rfl
      · rfl
    rw [hsame] at hage
    exact not_lt.mp hage
  · rintro ⟨a, ha, hage, rfl⟩
    refine ⟨⟨a, ha, hrow a⟩, ?_⟩
    unfold World.outdated
    split
    · rw [anonymise_createdAt, decide_eq_false (not_lt.mpr hage)]
      rfl
    · rw [decide_eq_false (not_lt.mpr hage)]
      rfl

/-! ## The routes that record -/

inductive BillAnswer where
  | ok
  | no_session
  | no_visit
  | visit_closed
  deriving DecidableEq, Repr

/-- The HTTP status of an answer. -/
def BillAnswer.status : BillAnswer → ℕ
  | .ok => 200
  | .no_session => 401
  | .no_visit => 409
  | .visit_closed => 409

/-- **`POST /api/bill`.** -/
def postBill (cookie : Option ℕ) (caller : Caller) : Api BillAnswer := do
  let session ← getActiveSession cookie none
  match session with
  | none => return .no_session
  | some session =>
    match session.visitId with
    | none => return .no_visit
    | some visitId =>
      let ok ← requestBill visitId session.venueId
      if !ok then return .visit_closed
      else
        logAttempt caller .bill_requested session.base
        return .ok

/-- A request of a route that writes into the ledger. -/
inductive AttemptRequest where
  | order (req : OrderRequest)
  | cancel (cookie : Option ℕ) (caller : Caller) (id : Id)
  | bill (cookie : Option ℕ) (caller : Caller)
  | scan (req : ScanRequest)

def AttemptRequest.caller : AttemptRequest → Caller
  | .order req => req.caller
  | .cancel _ caller _ => caller
  | .bill _ caller => caller
  | .scan req => req.caller

def AttemptRequest.prog (hmac : Hmac) : AttemptRequest → Api Unit
  | .order req => (fun _ => ()) <$> postOrder req
  | .cancel cookie caller id => (fun _ => ()) <$> cancelOrder cookie caller id
  | .bill cookie caller => (fun _ => ()) <$> postBill cookie caller
  | .scan req => (fun _ => ()) <$> req.prog hmac

/-- What happens besides. -/
inductive AttemptMove where
  | tick (ms : ℕ)
  | crash
  | prune
  /-- The rest of the application changes whatever it likes but the ledger. -/
  | others (w : World)

/-- **The server of these routes.** Any call may fail, the process may crash, the prune may run
at any time, and all but the ledger may change. -/
abbrev attemptServer (hmac : Hmac) : Sys api where
  World := World
  Req := AttemptRequest
  Ans := Unit
  Choice := Choice
  Env := AttemptMove
  exec c op w := if c.fault && op.onDatabase then (w, .error .failed) else World.exec c op w
  prog := AttemptRequest.prog hmac
  external _ := true
  spawns _ := []
  env
    | .tick ms, w => { w with now := w.now + ms }
    | .crash, w => w
    | .prune, w => w.pruneRetainedData.1
    | .others w', w => { w' with now := w.now, orderAttempts := w.orderAttempts }
  kills
    | .crash => true
    | _ => false

/-! ## What was recorded -/

/-- A row that was recorded: for which request, what was written, and when. -/
structure AttemptEntry where
  id : Id
  req : AttemptRequest
  row : NewOrderAttempt
  loggedAt : Time

/-- The row that a route's call makes. -/
def NewOrderAttempt.made (row : NewOrderAttempt) (now : Time) : OrderAttempt where
  venueId := row.venueId
  tableId := row.tableId
  sessionId := row.sessionId
  orderId := row.orderId
  ip := row.ip
  userAgent := row.userAgent
  outcome := row.outcome
  detail := row.detail
  createdAt := now

def AttemptEntry.made (e : AttemptEntry) : OrderAttempt := e.row.made e.loggedAt

section

variable {hmac : Hmac}

/-- What an answer to a call records. -/
def recordedBy (w : World) (c : Choice) (req : AttemptRequest) : Call → Option AttemptEntry
  | .orderAttemptCreate row =>
    if c.fault then none else some ⟨w.orderAttempts.next, req, row, w.now⟩
  | _ => none

theorem recordedBy_eq_some {w : World} {c : Choice} {req : AttemptRequest} {op : Call}
    {e : AttemptEntry} (h : recordedBy w c req op = some e) :
    ∃ row, op = .orderAttemptCreate row ∧ e = ⟨w.orderAttempts.next, req, row, w.now⟩ := by
  cases op with
  | orderAttemptCreate row =>
    have hsome : (if c.fault then none else some ⟨w.orderAttempts.next, req, row, w.now⟩)
        = some e := h
    split at hsome
    · cases hsome
    · exact ⟨row, rfl, (Option.some.inj hsome).symm⟩
  | _ => cases h

/-- What an action records. -/
def recorded (p : (attemptServer hmac).Pool) : (attemptServer hmac).Action → Option AttemptEntry
  | .step i c => p.threads[i]?.bind (fun t => t.prog.next.bind (recordedBy p.world c t.req))
  | _ => none

/-- **What a run records**, in order. -/
def entries : (attemptServer hmac).Pool → List (attemptServer hmac).Action → List AttemptEntry
  | _, [] => []
  | p, a :: as => (recorded p a).toList ++ entries (p.act a) as

theorem entries_concat (p : (attemptServer hmac).Pool) (as : List (attemptServer hmac).Action)
    (a : (attemptServer hmac).Action) :
    entries p (as ++ [a]) = entries p as ++ (recorded (p.run as) a).toList := by
  induction as generalizing p with
  | nil => exact List.append_nil _
  | cons b as ih =>
    show (recorded p b).toList ++ entries (p.act b) (as ++ [a]) = _
    rw [ih, ← List.append_assoc]
    rfl

end

/-- The ledger and the clock are as they were. -/
structure SameAttempts (w w' : World) : Prop where
  now : w'.now = w.now
  orderAttempts : w'.orderAttempts = w.orderAttempts

/-- **No other call writes into the ledger**, and none moves the clock. -/
theorem exec_sameAttempts {op : Call} (hop : ∀ row, op ≠ .orderAttemptCreate row) (c : Choice)
    (w : World) : SameAttempts w (World.exec c op w).1 := by
  cases op with
  | orderAttemptCreate row => exact absurd rfl (hop row)
  | _ =>
    dsimp only [World.exec, World.orderUpdate, World.orderCreate, World.orderEditTransaction,
      World.tableVisitDelete, World.tableVisitUpdate, World.settleTransaction,
      World.tableSessionCreate, World.tableSessionUpdate, World.posDeliveryUpdate,
      World.tableCreate, World.tableUpdate, World.regenerateTransaction, World.rotateTransaction,
      World.staffUserCreate, World.staffUserUpdate]
    repeat' split
    all_goals exact ⟨rfl, rfl⟩

/-! ## What is left of a row -/

/-- **The ledger remembers what was recorded.** -/
structure Remembered (es : List AttemptEntry) (w : World) : Prop where
  below : ∀ e ∈ es, e.id < w.orderAttempts.next
  /-- A row that is there says what was written, its identifying columns apart. -/
  kept : ∀ e ∈ es, ∀ r, w.orderAttempts.get? e.id = some r → anonymise r = anonymise e.made
  /-- For six months it is there. -/
  there : ∀ e ∈ es, w.daysAgo ROW_RETENTION_DAYS ≤ e.loggedAt →
    ∃ r, w.orderAttempts.get? e.id = some r
  /-- For a month it is as it was written. -/
  young : ∀ e ∈ es, w.daysAgo IP_RETENTION_DAYS ≤ e.loggedAt →
    w.orderAttempts.get? e.id = some e.made

section

variable {es : List AttemptEntry} {w w' : World}

theorem daysAgo_mono (h : w.now ≤ w'.now) (d : ℤ) : w.daysAgo d ≤ w'.daysAgo d :=
  Int.sub_le_sub_right h _

/-- Time passes. -/
theorem Remembered.later (h : Remembered es w) (hnow : w.now ≤ w'.now)
    (hsame : w'.orderAttempts = w.orderAttempts) : Remembered es w' where
  below := by
    rw [hsame]
    exact h.below
  kept := by
    rw [hsame]
    exact h.kept
  there := by
    rw [hsame]
    exact fun e he hage => h.there e he ((daysAgo_mono hnow _).trans hage)
  young := by
    rw [hsame]
    exact fun e he hage => h.young e he ((daysAgo_mono hnow _).trans hage)

/-- A row is written. -/
theorem Remembered.record (h : Remembered es w) {e : AttemptEntry}
    (hid : e.id = w.orderAttempts.next) (hnow : w'.now = w.now)
    (hcreate : w'.orderAttempts = w.orderAttempts.create e.made) : Remembered (es ++ [e]) w' := by
  have hdays : ∀ d, w'.daysAgo d = w.daysAgo d := by
    intro d
    unfold World.daysAgo
    rw [hnow]
  have hnew : w'.orderAttempts.get? e.id = some e.made := by
    rw [hcreate, hid]
    exact Rows.get?_create_next _ _
  have hold : ∀ e' ∈ es, w'.orderAttempts.get? e'.id = w.orderAttempts.get? e'.id := by
    intro e' he'
    rw [hcreate, Rows.get?_create, if_neg (h.below e' he').ne]
  refine ⟨fun e' he' => ?_, fun e' he' r hr => ?_, fun e' he' hage => ?_, fun e' he' hage => ?_⟩
  · rw [hcreate, Rows.next_create]
    rcases List.mem_append.mp he' with he' | he'
    · exact Nat.lt_succ_of_lt (h.below e' he')
    · rw [List.mem_singleton.mp he', hid]
      exact Nat.lt_succ_self _
  · rcases List.mem_append.mp he' with he' | he'
    · exact h.kept e' he' r ((hold e' he').symm.trans hr)
    · rw [List.mem_singleton.mp he', hnew] at hr
      rw [List.mem_singleton.mp he', Option.some.inj hr]
  · rcases List.mem_append.mp he' with he' | he'
    · rw [hdays] at hage
      rw [hold e' he']
      exact h.there e' he' hage
    · rw [List.mem_singleton.mp he']
      exact ⟨_, hnew⟩
  · rcases List.mem_append.mp he' with he' | he'
    · rw [hdays] at hage
      rw [hold e' he']
      exact h.young e' he' hage
    · rw [List.mem_singleton.mp he']
      exact hnew

/-- A row is as old as its entry. -/
theorem Remembered.age (h : Remembered es w) {e : AttemptEntry} (he : e ∈ es) {r : OrderAttempt}
    (hr : w.orderAttempts.get? e.id = some r) : r.createdAt = e.loggedAt :=
  congrArg OrderAttempt.createdAt (h.kept e he r hr)

/-- The prune runs. -/
theorem Remembered.prune (h : Remembered es w) : Remembered es w.pruneRetainedData.1 := by
  refine ⟨h.below, fun e he r hr => ?_, fun e he hage => ?_, fun e he hage => ?_⟩
  · obtain ⟨a, ha, _, rfl⟩ := pruned_get?.mp hr
    rw [← h.kept e he a ha]
    split
    · rfl
    · rfl
  · obtain ⟨a, ha⟩ := h.there e he hage
    exact ⟨_, pruned_get?.mpr ⟨a, ha, hage.trans_eq (h.age he ha).symm, rfl⟩⟩
  · refine pruned_get?.mpr ⟨e.made, h.young e he hage, (daysAgo_le w).trans hage, ?_⟩
    exact (if_neg (not_lt.mpr hage)).symm

end

section

variable {hmac : Hmac}

/-- What one action does to the ledger: it records a row, or it records none and leaves the
ledger, or it is the prune. -/
inductive AttemptStep (w w' : World) : Option AttemptEntry → Prop where
  | records (e : AttemptEntry) (hid : e.id = w.orderAttempts.next) (hnow : w'.now = w.now)
      (hcreate : w'.orderAttempts = w.orderAttempts.create e.made) : AttemptStep w w' (some e)
  | leaves (hnow : w.now ≤ w'.now) (hsame : w'.orderAttempts = w.orderAttempts) :
      AttemptStep w w' none
  | prunes (h : w' = w.pruneRetainedData.1) : AttemptStep w w' none

/-- A call that is answered. -/
theorem exec_attempts (hmac : Hmac) (op : Call) (c : Choice) (req : AttemptRequest) (w : World) :
    AttemptStep w ((attemptServer hmac).exec c op w).1 (recordedBy w c req op) := by
  by_cases hfault : (c.fault && op.onDatabase) = true
  · have hexec : (attemptServer hmac).exec c op w = (w, .error .failed) := if_pos hfault
    have hnone : recordedBy w c req op = none := by
      cases op with
      | orderAttemptCreate row => exact if_pos (Bool.and_eq_true_iff.mp hfault).1
      | _ => rfl
    rw [hexec, hnone]
    exact .leaves (le_refl _) rfl
  · have hexec : (attemptServer hmac).exec c op w = World.exec c op w := if_neg hfault
    rw [hexec]
    by_cases hop : ∃ row, op = .orderAttemptCreate row
    · obtain ⟨row, rfl⟩ := hop
      have hsome : recordedBy w c req (.orderAttemptCreate row)
          = some ⟨w.orderAttempts.next, req, row, w.now⟩ :=
        if_neg (fun h => hfault (Bool.and_eq_true_iff.mpr ⟨h, rfl⟩))
      rw [hsome]
      exact .records _ rfl rfl rfl
    · have hsame := exec_sameAttempts (fun row h => hop ⟨row, h⟩) c w
      have hnone : recordedBy w c req op = none := by
        cases op with
        | orderAttemptCreate row => exact absurd ⟨row, rfl⟩ hop
        | _ => rfl
      rw [hnone]
      exact .leaves hsame.now.ge hsame.orderAttempts

/-- **What one action does to the ledger.** -/
theorem act_attempts (p : (attemptServer hmac).Pool) (a : (attemptServer hmac).Action) :
    AttemptStep p.world (p.act a).world (recorded p a) := by
  cases a with
  | arrive r => exact .leaves (le_refl _) rfl
  | env m =>
    cases m with
    | tick ms => exact .leaves (Int.le_add_of_nonneg_right (Int.natCast_nonneg ms)) rfl
    | crash => exact .leaves (le_refl _) rfl
    | prune => exact .prunes rfl
    | others w' => exact .leaves (le_refl _) rfl
  | step i c =>
    show AttemptStep p.world (p.step i c).world
      (p.threads[i]?.bind (fun t => t.prog.next.bind (recordedBy p.world c t.req)))
    unfold Sys.Pool.step
    cases p.threads[i]? with
    | none => exact .leaves (le_refl _) rfl
    | some t =>
      rw [Option.bind_some]
      dsimp only
      cases t.prog with
      | ret u => exact .leaves (le_refl _) rfl
      | raise e => exact .leaves (le_refl _) rfl
      | call op k => exact exec_attempts hmac op c t.req p.world

/-- **In every run the ledger remembers what the run has recorded.** -/
theorem remembered_run (w₀ : World) (acts : List (attemptServer hmac).Action) :
    Remembered (entries (.init w₀ : (attemptServer hmac).Pool) acts)
      ((Sys.Pool.init w₀ : (attemptServer hmac).Pool).run acts).world := by
  induction acts using List.reverseRecOn with
  | nil =>
    have hnone : ∀ e : AttemptEntry, e ∉ entries (.init w₀ : (attemptServer hmac).Pool) [] :=
      fun e => List.not_mem_nil
    exact ⟨fun e he => absurd he (hnone e), fun e he => absurd he (hnone e),
      fun e he => absurd he (hnone e), fun e he => absurd he (hnone e)⟩
  | append_singleton acts a ih =>
    rw [entries_concat, Sys.Pool.run_concat]
    have hstep := act_attempts ((Sys.Pool.init w₀ : (attemptServer hmac).Pool).run acts) a
    generalize recorded _ a = e at hstep
    cases hstep with
    | records e hid hnow hcreate => exact ih.record hid hnow hcreate
    | leaves hnow hsame =>
      rw [Option.toList_none, List.append_nil]
      exact ih.later hnow hsame
    | prunes h =>
      rw [Option.toList_none, List.append_nil, h]
      exact ih.prune

end

/-! ## What the routes write -/

/-- A call that writes a row only with its caller's address, and a detail of the kind `D`. -/
def Call.LogsAs (caller : Caller) (D : Text → Prop) : Call → Prop
  | .orderAttemptCreate row => row.ip = caller.ip ∧ row.userAgent = caller.userAgent ∧ D row.detail
  | _ => True

/-- What a route may write into the column for details. -/
def AttemptRequest.details : AttemptRequest → Text → Prop
  | .order req, d => d ∈ [[], req.zod.message.slice 300, text "unknown modifier option",
      text "exhausted ticket-number retries"]
    ∨ (∃ recent inFlight : ℕ, d = text s!"recent={recent} open={inFlight}")
    ∨ ∃ itemId : Id, d = text s!"unavailable item {itemId}"
  | .cancel _ _ _, d => d = []
  | .bill _ _, d => d = []
  | .scan req, d => d ∈ [[], req.code, text "scan cap",
      text "scan flood from " ++ req.caller.address]

section

variable {caller : Caller} {D : Text → Prop}

theorem logAttempt_logs {outcome : AttemptOutcome} {extra : AttemptInfo} (h : D extra.detail) :
    (logAttempt caller outcome extra).Calls (Call.LogsAs caller D) (fun _ => True) :=
  Prog.calls_bind (Prog.calls_attempt (Prog.calls_perform (S := api) ⟨rfl, rfl, h⟩))
    (fun _ _ => trivial)

/-- A row, and the answer. -/
theorem logAttempt_then {α : Type} {outcome : AttemptOutcome} {extra : AttemptInfo} {a : α}
    (h : D extra.detail) :
    ((logAttempt caller outcome extra).bind (fun _ => .ret a)).Calls (Call.LogsAs caller D)
      (fun _ => True) :=
  Prog.calls_bind (logAttempt_logs h) (fun _ _ => trivial)

theorem getActiveSession_logs (cookie : Option ℕ) :
    (getActiveSession cookie none).Calls (Call.LogsAs caller D) (fun _ => True) :=
  getActiveSession_asks (fun _ => trivial) (fun _ => trivial) cookie none

theorem Call.JoinWork.logsAs {op : Call} (h : op.JoinWork) : op.LogsAs caller D := by
  cases op <;> first
    | exact trivial
    | exact h.elim

theorem mintSession_logs (tableId venueId : Id) (token : ℕ) :
    (mintSession tableId venueId token).Calls (Call.LogsAs caller D) (fun _ => True) := by
  unfold mintSession
  refine Prog.calls_bind (Prog.calls_mono (openOrJoinVisit_calls tableId venueId)
    (fun _ h => h.logsAs) (fun _ h => h)) (fun visitId _ => ?_)
  refine Prog.calls_bind (Prog.calls_perform (S := api) trivial) (fun _ _ => ?_)
  refine Prog.calls_bind (Prog.calls_perform (S := api) trivial) (fun active _ => ?_)
  split
  · exact Prog.calls_bind (Prog.calls_perform (S := api) trivial) (fun _ _ => trivial)
  · exact trivial

theorem createAttempts_logs (draft : OrderDraft) (n : ℕ) :
    (createAttempts draft n).Calls (Call.LogsAs caller D) (fun _ => True) :=
  createAttempts_asks (fun _ => trivial) (fun _ => trivial) n

theorem requestBill_logs (visitId venueId : Id) :
    (requestBill visitId venueId).Calls (Call.LogsAs caller D) (fun _ => True) :=
  requestBill_asks (fun _ => trivial) trivial (fun _ => trivial)

end

theorem place_logs (req : OrderRequest) (session : ActiveSession) (body : OrderBody) :
    (place req.caller session body).Calls
      (Call.LogsAs req.caller (AttemptRequest.details (.order req))) (fun _ => True) := by
  unfold place
  refine Prog.calls_bind (Prog.calls_perform (S := api) trivial) (fun recent _ => ?_)
  refine Prog.calls_bind (Prog.calls_perform (S := api) trivial) (fun inFlight _ => ?_)
  split
  · exact logAttempt_then (.inr (.inl ⟨recent, inFlight, rfl⟩))
  · refine Prog.calls_bind (Prog.calls_perform (S := api) trivial) (fun byId _ => ?_)
    split
    · next refusal _ =>
      cases refusal with
      | item_unavailable itemId => exact logAttempt_then (.inr (.inr ⟨itemId, rfl⟩))
      | unknown_option => exact logAttempt_then (.inl (by simp))
      | invalid_modifiers groupId => exact trivial
    · refine Prog.calls_bind (createAttempts_logs _ NUMBER_RETRIES) (fun order _ => ?_)
      cases order with
      | none => exact logAttempt_then (.inl (by simp))
      | some o =>
        exact Prog.calls_bind (logAttempt_logs (.inl List.mem_cons_self)) (fun _ _ =>
          Prog.calls_bind (Prog.calls_perform (S := api) trivial) (fun _ _ => trivial))

theorem postOrder_logs (req : OrderRequest) :
    (postOrder req).Calls (Call.LogsAs req.caller (AttemptRequest.details (.order req)))
      (fun _ => True) := by
  unfold postOrder
  refine Prog.calls_bind (getActiveSession_logs req.cookie) (fun session _ => ?_)
  split
  · split
    · exact logAttempt_then (.inl List.mem_cons_self)
    · exact trivial
  · next session =>
    unfold answerOrder
    split
    · exact logAttempt_then (.inl (by simp))
    · next body _ =>
      have hreplayed : (replayed session.id body.idempotencyKey).Calls
          (Call.LogsAs req.caller (AttemptRequest.details (.order req))) (fun _ => True) := by
        cases body.idempotencyKey with
        | none => exact trivial
        | some key => exact Prog.calls_perform (S := api) trivial
      refine Prog.calls_bind hreplayed (fun existing _ => ?_)
      split
      · exact trivial
      · exact place_logs req session body

theorem cancelOrder_logs (cookie : Option ℕ) (caller : Caller) (id : Id) :
    (cancelOrder cookie caller id).Calls
      (Call.LogsAs caller (AttemptRequest.details (.cancel cookie caller id))) (fun _ => True) := by
  unfold cancelOrder
  refine Prog.calls_bind (getActiveSession_logs cookie) (fun session _ => ?_)
  split
  · exact trivial
  · refine Prog.calls_bind (Prog.calls_perform (S := api) trivial) (fun found _ => ?_)
    split
    · exact trivial
    · split
      · exact trivial
      · refine Prog.calls_bind (Prog.calls_perform (S := api) trivial) (fun count _ => ?_)
        split
        · exact trivial
        · exact Prog.calls_bind (logAttempt_logs rfl) (fun _ _ =>
            Prog.calls_bind (Prog.calls_perform (S := api) trivial) (fun _ _ => trivial))

theorem postBill_logs (cookie : Option ℕ) (caller : Caller) :
    (postBill cookie caller).Calls
      (Call.LogsAs caller (AttemptRequest.details (.bill cookie caller))) (fun _ => True) := by
  unfold postBill
  refine Prog.calls_bind (getActiveSession_logs cookie) (fun session _ => ?_)
  split
  · exact trivial
  · split
    · exact trivial
    · refine Prog.calls_bind (requestBill_logs _ _) (fun ok _ => ?_)
      split
      · exact trivial
      · exact logAttempt_then rfl

theorem scan_logs (hmac : Hmac) (req : ScanRequest) :
    (req.prog hmac).Calls (Call.LogsAs req.caller (AttemptRequest.details (.scan req)))
      (fun _ => True) := by
  have hfailure : ∀ {outcome : AttemptOutcome} {extra : AttemptInfo} {a : ScanAnswer},
      AttemptRequest.details (.scan req) extra.detail →
      ((logFailure req.caller outcome extra).bind (fun _ => .ret a)).Calls
        (Call.LogsAs req.caller (AttemptRequest.details (.scan req))) (fun _ => True) := by
    intro outcome extra a hdetail
    unfold logFailure
    refine Prog.calls_bind (B := fun _ => True) ?_ (fun _ _ => trivial)
    refine Prog.calls_bind (Prog.calls_perform (S := api) trivial) (fun counted _ => ?_)
    split
    · exact logAttempt_logs hdetail
    · exact trivial
  unfold ScanRequest.prog getScan
  refine Prog.calls_bind (Prog.calls_perform (S := api) trivial) (fun gate _ => ?_)
  cases gate with
  | some log =>
    show (if _ then _ else _ : Api ScanAnswer).Calls _ _
    split
    · exact logAttempt_then (by simp [AttemptRequest.details])
    · exact trivial
  | none =>
    refine Prog.calls_bind (Prog.calls_perform (S := api) trivial) (fun found _ => ?_)
    split
    · exact hfailure (by simp [AttemptRequest.details])
    · split
      · exact hfailure (by simp [AttemptRequest.details])
      · split
        · exact hfailure (by simp [AttemptRequest.details])
        · refine Prog.calls_bind (Prog.calls_perform (S := api) trivial) (fun ok _ => ?_)
          split
          · exact logAttempt_then (by simp [AttemptRequest.details])
          · exact Prog.calls_bind (mintSession_logs _ _ _) (fun minted _ =>
              logAttempt_then (by simp [AttemptRequest.details]))

theorem prog_logs (hmac : Hmac) (r : AttemptRequest) :
    (r.prog hmac).Calls (Call.LogsAs r.caller r.details) (fun _ => True) := by
  cases r with
  | order req => exact Prog.calls_bind (postOrder_logs req) (fun _ _ => trivial)
  | cancel cookie caller id =>
    exact Prog.calls_bind (cancelOrder_logs cookie caller id) (fun _ _ => trivial)
  | bill cookie caller => exact Prog.calls_bind (postBill_logs cookie caller) (fun _ _ => trivial)
  | scan req => exact Prog.calls_bind (scan_logs hmac req) (fun _ _ => trivial)

/-- **A row is recorded with its caller's address and agent**, and with one of its route's
details. -/
theorem entries_written {hmac : Hmac} (w₀ : World) (acts : List (attemptServer hmac).Action) :
    ∀ e ∈ entries (.init w₀ : (attemptServer hmac).Pool) acts,
      e.row.ip = e.req.caller.ip ∧ e.row.userAgent = e.req.caller.userAgent
        ∧ e.req.details e.row.detail := by
  induction acts using List.reverseRecOn with
  | nil => exact fun e he => absurd he List.not_mem_nil
  | append_singleton acts a ih =>
    intro e he
    rw [entries_concat] at he
    rcases List.mem_append.mp he with he | he
    · exact ih e he
    · cases a with
      | arrive r => exact absurd he List.not_mem_nil
      | env m => exact absurd he List.not_mem_nil
      | step i c =>
        obtain ⟨t, ht, he⟩ := Option.bind_eq_some_iff.mp (Option.mem_toList.mp he)
        obtain ⟨op, hop, he⟩ := Option.bind_eq_some_iff.mp he
        have hcalls := Sys.Pool.calls_run (prog_logs hmac) w₀ acts t (List.mem_of_getElem? ht)
        cases hk : t.prog with
        | ret u =>
          rw [hk] at hop
          cases hop
        | raise err =>
          rw [hk] at hop
          cases hop
        | call op' k =>
          rw [hk] at hop hcalls
          cases hop
          obtain ⟨row, rfl, rfl⟩ := recordedBy_eq_some he
          exact hcalls.1

/-! ## The law -/

def AttemptOutcome.text : AttemptOutcome → Text
  | .ok => Masadan.text "ok"
  | .expired_session => Masadan.text "expired_session"
  | .validation_error => Masadan.text "validation_error"
  | .rate_limited => Masadan.text "rate_limited"
  | .number_conflict => Masadan.text "number_conflict"
  | .customer_cancelled => Masadan.text "customer_cancelled"
  | .bill_requested => Masadan.text "bill_requested"
  | .table_inactive => Masadan.text "table_inactive"
  | .invalid_qr => Masadan.text "invalid_qr"
  | .scan_ok => Masadan.text "scan_ok"

section

variable (idText : Id → Text)

/-- The texts in a row's columns. `idText` is the text of an id. -/
def OrderAttempt.texts (id : Id) (a : OrderAttempt) : List Text :=
  idText id :: [a.venueId, a.tableId, a.sessionId, a.orderId].filterMap (fun k => k.map idText)
    ++ [a.ip, a.userAgent, a.outcome.text, a.detail]

/-- Some column of the row contains the address. A caller without one has none to contain. -/
def OrderAttempt.mentions (id : Id) (a : OrderAttempt) (ip : Text) : Prop :=
  ip ≠ [] ∧ ∃ s ∈ a.texts idText id, ip <:+: s

/-- **Personal data ages out** when the prune runs. -/
structure AgesOut (es : List AttemptEntry) (w : World) : Prop where
  /-- No row of more than a month contains the address that it was recorded with. -/
  forgotten : ∀ e ∈ es, ∀ r, w.pruneRetainedData.1.orderAttempts.get? e.id = some r →
    r.createdAt < w.daysAgo IP_RETENTION_DAYS → ¬ r.mentions idText e.id e.req.caller.ip
  /-- No row is more than six months old. -/
  gone : ∀ id r, w.pruneRetainedData.1.orderAttempts.get? id = some r →
    w.daysAgo ROW_RETENTION_DAYS ≤ r.createdAt
  /-- The rows of the last month are unchanged. -/
  unchanged : ∀ id r, w.daysAgo IP_RETENTION_DAYS ≤ r.createdAt →
    (w.pruneRetainedData.1.orderAttempts.get? id = some r ↔ w.orderAttempts.get? id = some r)
  /-- They are as they were written. -/
  asWritten : ∀ e ∈ es, w.daysAgo IP_RETENTION_DAYS ≤ e.loggedAt →
    w.pruneRetainedData.1.orderAttempts.get? e.id = some e.made

/-- The texts of a row as its route logs it, the address and the agent apart. -/
def AttemptEntry.besides (e : AttemptEntry) : List Text :=
  idText e.id :: [e.row.venueId, e.row.tableId, e.row.sessionId, e.row.orderId].filterMap
      (fun k => k.map idText)
    ++ [e.row.outcome.text, e.row.detail]

/-- **No address was logged in another column** of a row that is now between a month and six
months old. -/
def NothingRepeated (es : List AttemptEntry) (w : World) : Prop :=
  ∀ e ∈ es, w.daysAgo ROW_RETENTION_DAYS ≤ e.loggedAt →
    e.loggedAt < w.daysAgo IP_RETENTION_DAYS →
    e.req.caller.ip ≠ [] → ∀ s ∈ e.besides idText, ¬ e.req.caller.ip <:+: s

variable {idText} in
/-- **What the blanking leaves** of an address is what was logged of it besides: the columns of
the address and of the agent are empty, and an empty text contains no address. -/
theorem anonymise_mentions {e : AttemptEntry} {ip : Text} :
    (anonymise e.made).mentions idText e.id ip
      ↔ ip ≠ [] ∧ ∃ s ∈ e.besides idText, ip <:+: s := by
  refine and_congr_right (fun hip => ?_)
  have hempty : ¬ ip <:+: [] := fun h => hip (List.infix_nil.mp h)
  constructor
  · rintro ⟨s, hs, hin⟩
    rcases List.mem_append.mp hs with hs | hs
    · exact ⟨s, List.mem_append_left _ hs, hin⟩
    · -- the four columns of text, of which two are blank
      have hcols : s ∈ [[], [], e.row.outcome.text, e.row.detail] := hs
      rcases List.mem_cons.mp hcols with rfl | hcols
      · exact absurd hin hempty
      rcases List.mem_cons.mp hcols with rfl | hcols
      · exact absurd hin hempty
      exact ⟨s, List.mem_append_right _ hcols, hin⟩
  · rintro ⟨s, hs, hin⟩
    refine ⟨s, ?_, hin⟩
    rcases List.mem_append.mp hs with hs | hs
    · exact List.mem_append_left _ hs
    · exact List.mem_append_right _ (List.mem_cons_of_mem _ (List.mem_cons_of_mem _ hs))

/-- **What ages out.** -/
theorem Remembered.agesOut_iff {es : List AttemptEntry} {w : World} (h : Remembered es w) :
    AgesOut idText es w ↔ NothingRepeated idText es w := by
  have hleft : ∀ e ∈ es, ∀ a, w.orderAttempts.get? e.id = some a →
      e.loggedAt < w.daysAgo IP_RETENTION_DAYS →
      (if a.createdAt < w.daysAgo IP_RETENTION_DAYS then anonymise a else a)
        = anonymise e.made := by
    intro e he a ha hold
    rw [h.age he ha, if_pos hold]
    exact h.kept e he a ha
  constructor
  · intro hages e he hkept hold hip s hs hin
    obtain ⟨a, ha⟩ := h.there e he hkept
    have hrow := hleft e he a ha hold
    have hforgotten : ¬ (anonymise e.made).mentions idText e.id e.req.caller.ip := by
      refine hrow ▸ hages.forgotten e he _ (pruned_get?.mpr ⟨a, ha, ?_, rfl⟩) ?_
      · rw [h.age he ha]
        exact hkept
      · rw [hrow]
        exact hold
    exact hforgotten (anonymise_mentions.mpr ⟨hip, s, hs, hin⟩)
  · intro hnone
    refine ⟨fun e he r hr hold => ?_, fun id r hr => ?_, fun id r hyoung => ?_, h.prune.young⟩
    · have hage := h.prune.age he hr
      obtain ⟨a, ha, hkept, rfl⟩ := pruned_get?.mp hr
      rw [hage] at hold
      rw [h.age he ha] at hkept
      rw [hleft e he a ha hold]
      intro hmentions
      obtain ⟨hip, s, hs, hin⟩ := anonymise_mentions.mp hmentions
      exact hnone e he hkept hold hip s hs hin
    · obtain ⟨a, _, hkept, rfl⟩ := pruned_get?.mp hr
      split
      · exact hkept
      · exact hkept
    · rw [pruned_get?]
      constructor
      · rintro ⟨a, ha, _, rfl⟩
        by_cases hold : a.createdAt < w.daysAgo IP_RETENTION_DAYS
        · rw [if_pos hold] at hyoung
          exact absurd hold (not_lt.mpr hyoung)
        · rw [if_neg hold]
          exact ha
      · exact fun hr => ⟨r, hr, (daysAgo_le w).trans hyoung, (if_neg (not_lt.mpr hyoung)).symm⟩

end

/-- **After a prune an address is in the ledger for no longer than a month**, whatever requests
were recorded and whatever happened between them, unless some route wrote it into another
column, and else it is. -/
theorem ages_out (hmac : Hmac) (idText : Id → Text) (w₀ : World)
    (acts : List (attemptServer hmac).Action) :
    AgesOut idText (entries (.init w₀ : (attemptServer hmac).Pool) acts)
        ((Sys.Pool.init w₀ : (attemptServer hmac).Pool).run acts).world
      ↔ NothingRepeated idText (entries (.init w₀ : (attemptServer hmac).Pool) acts)
        ((Sys.Pool.init w₀ : (attemptServer hmac).Pool).run acts).world :=
  (remembered_run w₀ acts).agesOut_iff idText

/-- The record of a flood says where it came from. -/
theorem flood_mentions {idText : Id → Text} {e : AttemptEntry} (hip : e.req.caller.ip ≠ [])
    (h : e.row.detail = text "scan flood from " ++ e.req.caller.address) :
    e.row.detail ∈ e.besides idText ∧ e.req.caller.ip <:+: e.row.detail := by
  have haddress : e.req.caller.address = e.req.caller.ip := if_neg hip
  refine ⟨List.mem_append_right _ (List.mem_cons_of_mem _ List.mem_cons_self), ?_⟩
  rw [h, haddress]
  exact (List.suffix_append _ _).isInfix

/-- An address that has used up its failures. -/
def usedUp : World :=
  { World.blank 0 with
    windows := [(namespaced (text "scan:fail:" ++ text "203.0.113.7"), ⟨FAIL_LIMIT, 600000⟩)] }

/-- It scans once more, and a month passes. -/
def floodThenMonth (hmac : Hmac) : List (attemptServer hmac).Action :=
  [.arrive (.scan (guess (text "203.0.113.7"))), .step 0 plain, .step 0 plain,
    .env (.tick (31 * 86400000))]

/-- **An address can outlast the month**: that of a scan flood. -/
theorem ages_out_fails :
    ¬ ∀ (hmac : Hmac) (idText : Id → Text) (w₀ : World) (acts : List (attemptServer hmac).Action),
      w₀.orderAttempts = Rows.empty →
      AgesOut idText (entries (.init w₀ : (attemptServer hmac).Pool) acts)
        ((Sys.Pool.init w₀ : (attemptServer hmac).Pool).run acts).world := by
  intro h
  have hages := h (fun _ message => message) (fun _ => []) usedUp
    (floodThenMonth (fun _ message => message)) rfl
  have hnone := ((remembered_run usedUp (floodThenMonth _)).agesOut_iff _).mp hages
  let e : AttemptEntry := ⟨0, .scan (guess (text "203.0.113.7")), ⟨.rate_limited,
    text "203.0.113.7", [], text "scan flood from " ++ text "203.0.113.7", none, none, none,
    none⟩, 0⟩
  have hip : e.req.caller.ip ≠ [] := by decide
  obtain ⟨hmem, hin⟩ := (flood_mentions hip rfl : e.row.detail ∈ e.besides (fun _ => []) ∧ _)
  exact hnone e List.mem_cons_self (by decide) (by decide) hip _ hmem hin

end Masadan
