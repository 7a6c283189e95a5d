import Masadan.QrReset
import Masadan.ScanFloods

/-!
# Valid scans and the wall

A scan is counted as failed before its table is looked up, and the count is taken back when
its signature turns out to be good. In between it waits for the database, and the others of
its address wait with it: what the counter stands at is how many have passed the gate since
the last of them was refunded (`Crowd`), which are no more than wait.

So the scans of a full restaurant behind one address do not lock each other out as long as
fewer than `FAIL_LIMIT` pass the gate between two refunds (`valid_not_walled`), for instance
if fewer wait at a time (`uncrowded_of_few`); but twenty that have passed it send the next to
the wall, though every signature is good (`valid_not_walled_fails`).
-/

namespace Masadan

/-! ## The scans of one address -/

/-- A scan of the address, of an active table, with a good signature. -/
def World.scansWell (hmac : Hmac) (ip : Text) (w : World) (r : ScanRequest) : Bool :=
  r.caller.address == ip && !w.fails hmac r

/-- The server serving the good scans of one address. -/
abbrev scanServer (hmac : Hmac) (ip : Text) (w₀ : World) : Sys api :=
  server (ScanRequest.prog hmac) (w₀.scansWell hmac ip) (fun _ => []) false

/-- A run of them, from a world. -/
abbrev scanRun (hmac : Hmac) (ip : Text) (w₀ : World) (acts : List (scanServer hmac ip w₀).Action) :
    (scanServer hmac ip w₀).Pool :=
  Sys.Pool.run (Sys.Pool.init w₀ : (scanServer hmac ip w₀).Pool) acts

/-! ## The crowd at the gate -/

/-- The calls of a scan that its address is counted by: the first passes the gate, and the
third is the refund. -/
inductive Passage where
  | gate
  | refund
  deriving DecidableEq

def passageOf (v : View api World) : Option Passage :=
  match v.past.length with
  | 0 => some .gate
  | 2 => some .refund
  | _ => none

/-- **The crowd of an address**: how many have passed the gate since the last refund, in a
window that the first of them opens; and how many have been refunded, in a window likewise. -/
structure Crowd where
  atGate : Option FixedWindow.Win
  refunded : Option FixedWindow.Win

/-- After a call at a time. -/
def Crowd.after (crowd : Crowd) (now : Time) : Option Passage → Crowd
  | some .gate =>
    { crowd with atGate := some (FixedWindow.hit (FAIL_WINDOW_SEC * 1000) now crowd.atGate) }
  | some .refund =>
    ⟨none, some (FixedWindow.hit (OK_WINDOW_SEC * 1000) now crowd.refunded)⟩
  | none => crowd

/-- Nobody passes the gate in a crowd: since the last refund fewer than `FAIL_LIMIT` have,
unless the window has ended. -/
def Crowd.few (crowd : Crowd) (now : Time) : Option Passage → Bool
  | some .gate => FixedWindow.room FAIL_LIMIT now crowd.atGate
  | _ => true

/-- No more than `OK_LIMIT` are refunded in a window. -/
def Crowd.withinOkLimit (crowd : Crowd) (now : Time) : Option Passage → Bool
  | some .refund => FixedWindow.room OK_LIMIT now crowd.refunded
  | _ => true

section

variable (hmac : Hmac) (ip : Text) (w₀ : World)

/-- What passes in an action. -/
def passage (p : (scanServer hmac ip w₀).Pool) : (scanServer hmac ip w₀).Action → Option Passage
  | .step i _ =>
    match p.threads[i]? with
    | none => none
    | some t => t.prog.next.bind (fun _ => passageOf t.view)
  | _ => none

/-- The actions of a run all meet a condition on the crowd. -/
def along (ok : Crowd → Time → Option Passage → Bool) :
    Crowd → (scanServer hmac ip w₀).Pool → List (scanServer hmac ip w₀).Action → Bool
  | _, _, [] => true
  | crowd, p, a :: acts => ok crowd p.world.now (passage hmac ip w₀ p a)
      && along ok (crowd.after p.world.now (passage hmac ip w₀ p a)) (p.act a) acts

/-- What the counters of the address stand at as a run begins. -/
def crowdAt (w : World) : Crowd := ⟨w.meters (failKey ip), w.meters (okKey ip)⟩

end

/-! ## One scan among others -/

section

variable (hmac : Hmac) (ip : Text) (w₀ : World)

/-- What the calls of a scan leave of the windows: the first is the gate, the third the refund. -/
def windowsAfter (r : ScanRequest) (v : View api World) (w : World) : Windows :=
  match v.past.length with
  | 0 => (failGate r.caller.address w.now w.windows).1
  | 2 => (okGate r.caller.address w.now w.windows).1
  | _ => w.windows

/-- The scan gets through, where the call is one that asks. -/
def letThrough (r : ScanRequest) (v : View api World) (w : World) : Bool :=
  match v.past.length with
  | 0 => (failGate r.caller.address w.now w.windows).2 == none
  | 2 => (okGate r.caller.address w.now w.windows).2
  | _ => true

/-- What good scans promise, where each is let through. -/
abbrev passProtocol : Protocol (scanServer hmac ip w₀) where
  Inv w := w.tables = w₀.tables ∧ w.venues = w₀.venues ∧ Windows.Distinct w.windows
  Evolves _ _ := True
  refl _ := trivial
  Guard r v _ _ w := w₀.scansWell hmac ip r && letThrough r v w
  Local r v e := e.after.windows = windowsAfter r v e.before ∧ e.after.now = e.before.now

end

/-- What a scan does once it is counted as good. -/
def Call.PassWork : Call → Prop
  | .query _ | .tableVisitCreate _ _ | .tableVisitDelete _ | .tableSessionCreate _
  | .tableSessionUpdateMany _ _ | .orderAttemptCreate _ => True
  | _ => False

theorem Call.JoinWork.passWork {op : Call} (h : op.JoinWork) : op.PassWork := by
  cases op <;> first
    | exact trivial
    | exact h.elim

/-- It does nothing to the tables, the venues, the windows and the clock. -/
theorem exec_passWork {c : Choice} {op : Call} (h : op.PassWork) (w : World) :
    (World.exec c op w).1.tables = w.tables ∧ (World.exec c op w).1.venues = w.venues
      ∧ (World.exec c op w).1.windows = w.windows ∧ (World.exec c op w).1.now = w.now := by
  cases op with
  | query q => exact ⟨rfl, rfl, rfl, rfl⟩
  | tableVisitCreate tableId venueId => exact ⟨rfl, rfl, rfl, rfl⟩
  | tableVisitDelete id =>
    dsimp only [World.exec]
    unfold World.tableVisitDelete
    repeat' split
    all_goals exact ⟨rfl, rfl, rfl, rfl⟩
  | tableSessionCreate data =>
    dsimp only [World.exec]
    unfold World.tableSessionCreate
    repeat' split
    all_goals exact ⟨rfl, rfl, rfl, rfl⟩
  | tableSessionUpdateMany cond data => exact ⟨rfl, rfl, rfl, rfl⟩
  | orderAttemptCreate row => exact ⟨rfl, rfl, rfl, rfl⟩
  | _ => exact h.elim

theorem mintSession_passWork (tableId venueId : Id) (token : ℕ) :
    (mintSession tableId venueId token).Calls Call.PassWork (fun _ => True) := by
  unfold mintSession
  refine Prog.calls_bind (Prog.calls_mono (openOrJoinVisit_calls tableId venueId)
    (fun _ h => h.passWork) (fun _ h => h)) (fun visitId _ => ?_)
  refine Prog.calls_bind (Prog.calls_perform (S := api) trivial) (fun _ _ => ?_)
  refine Prog.calls_bind (Prog.calls_perform (S := api) trivial) (fun active _ => ?_)
  split
  · exact Prog.calls_bind (Prog.calls_perform (S := api) trivial) (fun _ _ => trivial)
  · exact trivial

theorem logAttempt_passWork (caller : Caller) (outcome : AttemptOutcome) (extra : AttemptInfo) :
    (logAttempt caller outcome extra).Calls Call.PassWork (fun _ => True) :=
  Prog.calls_bind (Prog.calls_attempt (Prog.calls_perform (S := api) trivial)) (fun _ _ => trivial)

section

variable {hmac : Hmac} {ip : Text} {w₀ w : World} {r : ScanRequest} {v : View api World}

/-- From its third call on, a scan's calls keep the promise. -/
theorem takes_passWork {op : Call} {c : Choice} (hop : op.PassWork) (hpast : 3 ≤ v.past.length)
    (hw : (passProtocol hmac ip w₀).Inv w) :
    (passProtocol hmac ip w₀).Takes r v ⟨op, w, (World.exec c op w).1⟩ := by
  obtain ⟨ht, hv, hwindows, hnow⟩ := exec_passWork (c := c) hop w
  refine ⟨⟨ht.trans hw.1, hv.trans hw.2.1, ?_⟩, trivial, ?_, hnow⟩
  · show Windows.Distinct (World.exec c op w).1.windows
    rw [hwindows]
    exact hw.2.2
  · show (World.exec c op w).1.windows = windowsAfter r v w
    unfold windowsAfter
    rw [hwindows]
    split
    · omega
    · omega
    · rfl

theorem Windows.Distinct.failGate {windows : Windows} (h : windows.Distinct) (ip : Text)
    (now : Time) : Windows.Distinct (failGate ip now windows).1 := by
  unfold Masadan.failGate
  dsimp only
  split
  · exact h.rateLimit
  · exact h.rateLimit.rateLimit

theorem Windows.Distinct.okGate {windows : Windows} (h : windows.Distinct) (ip : Text)
    (now : Time) : Windows.Distinct (okGate ip now windows).1 :=
  Windows.Distinct.rateLimit (h.filter _)

/-- What a good scan finds: an active table, and its own signature. -/
theorem scansWell_found (hr : w₀.scansWell hmac ip r = true) : ∃ id table venue,
    w₀.tableByCode r.code = some (id, table, venue) ∧ table.active = true
      ∧ verifyTableQr hmac venue.qrSecret table.code table.qrVersion r.sig = true := by
  unfold World.scansWell World.fails at hr
  rw [Bool.and_eq_true, Bool.not_eq_true'] at hr
  cases hfound : w₀.tableByCode r.code with
  | none =>
    rw [hfound] at hr
    cases hr.2
  | some found =>
    obtain ⟨id, table, venue⟩ := found
    rw [hfound] at hr
    obtain ⟨hactive, hgood⟩ := Bool.or_eq_false_iff.mp hr.2
    exact ⟨id, table, venue, rfl, (Bool.not_eq_false' _).mp hactive, (Bool.not_eq_false' _).mp hgood⟩

/-- **A scan that is let through is not sent to the wall.** -/
theorem getScan_through (hr : w₀.scansWell hmac ip r = true) :
    (passProtocol hmac ip w₀).Ok r (fun _ x => x ≠ .ok .wall) ⟨w, []⟩ (r.prog hmac) := by
  unfold ScanRequest.prog getScan
  -- the gate
  refine ok_write (fun w₁ c w₁' x hw₁ _ hg hx => ?_)
  cases hx
  have hgate : (failGate r.caller.address w₁.now w₁.windows).2 = none :=
    beq_iff_eq.mp (Bool.and_eq_true_iff.mp hg).2
  refine ⟨⟨⟨hw₁.1, hw₁.2.1, hw₁.2.2.failGate _ _⟩, trivial, rfl, rfl⟩, ?_⟩
  rw [hgate]
  -- the table, which is as it was
  refine ok_write (fun w₂ c w₂' x hw₂ _ _ hx => ?_)
  cases hx
  refine ⟨⟨hw₂, trivial, rfl, rfl⟩, ?_⟩
  obtain ⟨id, table, venue, hfound, hactive, hgood⟩ := scansWell_found hr
  have htable : w₂.tableByCode r.code = some (id, table, venue) := by
    rw [← hfound]
    unfold World.tableByCode
    rw [hw₂.1, hw₂.2.1]
  dsimp only [Prog.ofExcept, Prog.ret_bind]
  rw [htable]
  dsimp only
  rw [hactive, hgood]
  -- the refund
  refine ok_write (fun w₃ c w₃' x hw₃ _ hg hx => ?_)
  cases hx
  have hok : (okGate r.caller.address w₃.now w₃.windows).2 = true := (Bool.and_eq_true_iff.mp hg).2
  refine ⟨⟨⟨hw₃.1, hw₃.2.1, hw₃.2.2.okGate _ _⟩, trivial, rfl, rfl⟩, ?_⟩
  rw [hok]
  dsimp only [Prog.ofExcept, Prog.ret_bind]
  rw [Bool.not_true, if_neg Bool.false_ne_true]
  refine Protocol.ok_mono (Protocol.ok_of_calls_given (A := Call.PassWork) (B := fun a => a ≠ .wall)
    (K := fun past => 3 ≤ past.length) ?_ (fun e es h => h.trans (Nat.le_succ _))
    (fun v w c op hv hop hw _ => takes_passWork hop hv hw) (le_refl 3))
    (fun _ x hx heq => hx _ heq rfl)
  refine Prog.calls_bind (mintSession_passWork _ _ _) (fun minted _ => ?_)
  exact Prog.calls_bind (logAttempt_passWork _ _ _) (fun _ _ h => nomatch h)

/-- **The good scans keep the promise.** -/
theorem passSound : (passProtocol hmac ip w₀).Sound
    (fun r _ x => w₀.scansWell hmac ip r = true → x ≠ .ok .wall) where
  env e w hw := by
    cases e with
    | tick ms => exact ⟨hw, trivial⟩
    | crash => exact ⟨hw, trivial⟩
  entry r w _ := by
    by_cases hr : w₀.scansWell hmac ip r = true
    · exact Protocol.ok_mono (getScan_through hr) (fun _ _ hx _ => hx)
    · refine Protocol.ok_of_never (fun c op w => ?_) (fun x h => absurd h hr)
      show (w₀.scansWell hmac ip r && _) = false
      rw [Bool.not_eq_true] at hr
      rw [hr]
      rfl

/-! ## What the counters stand at -/

/-- **The counters of the address are the crowd.** -/
structure Counts (crowd : Crowd) (p : (scanServer hmac ip w₀).Pool) : Prop where
  ok : (passProtocol hmac ip w₀).PoolOk
    (fun r _ x => w₀.scansWell hmac ip r = true → x ≠ .ok .wall) w₀ p
  reqs : ∀ t ∈ p.threads, w₀.scansWell hmac ip t.req = true
  reads : ∃ m, Reads p.world.now p.world.windows m ∧ m (failKey ip) = crowd.atGate
    ∧ m (okKey ip) = crowd.refunded

variable {crowd : Crowd} {p : (scanServer hmac ip w₀).Pool} {windows : Windows} {now : Time}
  {m : Meters}

theorem passage_step {i : ℕ} {c : Choice} {t : (scanServer hmac ip w₀).Thread} {op : Call}
    {k : Except DbError (Call.Res op) → Api ScanAnswer} (ht : p.threads[i]? = some t)
    (hk : t.prog = .call op k) : passage hmac ip w₀ p (.step i c) = passageOf t.view := by
  unfold passage
  dsimp only
  rw [ht]
  dsimp only
  rw [hk]
  rfl

/-- Nothing passes where no call is answered. -/
theorem passage_idle {i : ℕ} (c : Choice)
    (h : ¬ ∃ t op k, p.threads[i]? = some t ∧ t.prog = .call op k) :
    p.step i c = p ∧ passage hmac ip w₀ p (.step i c) = none := by
  constructor
  · rcases p.step_cases i c with hs | ⟨t, op, k, ht, hk, _⟩
    · exact hs
    · exact absurd ⟨t, op, k, ht, hk⟩ h
  · unfold passage
    dsimp only
    split
    · rfl
    · next t ht =>
      cases hk : t.prog with
      | ret a => rfl
      | raise e => rfl
      | call op k => exact absurd ⟨t, op, k, ht, hk⟩ h

/-- The gate lets through who does not come in a crowd. -/
theorem failGate_room (h : Reads now windows m)
    (hroom : FixedWindow.room FAIL_LIMIT now (m (failKey ip)) = true) :
    (failGate ip now windows).2 = none
      ∧ Reads now (failGate ip now windows).1 (m.hit (failKey ip) FAIL_WINDOW_SEC now) := by
  obtain ⟨hallowed, hreads⟩ := h.rateLimit (failKey ip) FAIL_LIMIT FAIL_WINDOW_SEC
  have hgate : failGate ip now windows
      = ((rateLimit (failKey ip) FAIL_LIMIT FAIL_WINDOW_SEC now windows).1, none) :=
    if_pos (hallowed.trans hroom)
  rw [hgate]
  exact ⟨rfl, hreads⟩

/-- And the refund leaves the gate as if nobody had come. -/
theorem okGate_room (h : Reads now windows m) :
    (okGate ip now windows).2 = FixedWindow.room OK_LIMIT now (m (okKey ip))
      ∧ Reads now (okGate ip now windows).1
        ((m.clear (failKey ip)).hit (okKey ip) OK_WINDOW_SEC now) := by
  obtain ⟨hallowed, hreads⟩ := (h.clear (failKey ip)).rateLimit (okKey ip) OK_LIMIT OK_WINDOW_SEC
  refine ⟨hallowed.trans ?_, hreads⟩
  unfold Meters.clear
  rw [Function.update_of_ne failKey_ne_okKey.symm]

/-- **Whoever is answered is let through.** -/
theorem Counts.guard (h : Counts crowd p) {t : (scanServer hmac ip w₀).Thread}
    (hmem : t ∈ p.threads) (hfew : crowd.few p.world.now (passageOf t.view) = true)
    (hok : crowd.withinOkLimit p.world.now (passageOf t.view) = true) :
    letThrough t.req t.view p.world = true := by
  obtain ⟨m, hreads, hgate, hrefunded⟩ := h.reads
  have haddress : t.req.caller.address = ip :=
    beq_iff_eq.mp (Bool.and_eq_true_iff.mp (h.reqs t hmem)).1
  unfold letThrough
  rw [haddress]
  unfold passageOf at hfew hok
  split
  · next hlen =>
    rw [hlen] at hfew
    have hroom : FixedWindow.room FAIL_LIMIT p.world.now (m (failKey ip)) = true := by
      rw [hgate]
      exact hfew
    rw [(failGate_room hreads hroom).1]
    rfl
  · next hlen =>
    rw [hlen] at hok
    rw [(okGate_room hreads).1, hrefunded]
    exact hok
  · rfl

/-- **A call moves the counters as it moves the crowd.** -/
theorem Counts.moves (h : Counts crowd p) {t : (scanServer hmac ip w₀).Thread}
    (hmem : t ∈ p.threads) (hfew : crowd.few p.world.now (passageOf t.view) = true) :
    ∃ m, Reads p.world.now (windowsAfter t.req t.view p.world) m
      ∧ m (failKey ip) = (crowd.after p.world.now (passageOf t.view)).atGate
      ∧ m (okKey ip) = (crowd.after p.world.now (passageOf t.view)).refunded := by
  obtain ⟨m, hreads, hgate, hrefunded⟩ := h.reads
  have haddress : t.req.caller.address = ip :=
    beq_iff_eq.mp (Bool.and_eq_true_iff.mp (h.reqs t hmem)).1
  unfold windowsAfter
  rw [haddress]
  unfold passageOf at hfew ⊢
  split
  · -- the gate
    next hlen =>
    rw [hlen] at hfew
    have hroom : FixedWindow.room FAIL_LIMIT p.world.now (m (failKey ip)) = true := by
      rw [hgate]
      exact hfew
    refine ⟨_, (failGate_room hreads hroom).2, ?_, ?_⟩
    · rw [Meters.hit_self, hgate]
      rfl
    · rw [Meters.hit_other failKey_ne_okKey.symm]
      exact hrefunded
  · -- the refund
    refine ⟨_, (okGate_room hreads).2, ?_, ?_⟩
    · rw [Meters.hit_other failKey_ne_okKey]
      exact Function.update_self ..
    · rw [Meters.hit_self]
      unfold Meters.clear
      rw [Function.update_of_ne failKey_ne_okKey.symm, hrefunded]
      rfl
  · exact ⟨m, hreads, hgate, hrefunded⟩

/-- **Every action keeps it.** -/
theorem Counts.act (h : Counts crowd p) {a : (scanServer hmac ip w₀).Action}
    (hfew : crowd.few p.world.now (passage hmac ip w₀ p a) = true)
    (hok : crowd.withinOkLimit p.world.now (passage hmac ip w₀ p a) = true) :
    Counts (crowd.after p.world.now (passage hmac ip w₀ p a)) (p.act a) := by
  have hcond : (passProtocol hmac ip w₀).cond p a = true := by
    refine (passProtocol hmac ip w₀).cond_of_step (fun i c t op k heq ht hk => ?_)
    rw [heq, passage_step ht hk] at hfew hok
    have hmem := List.mem_of_getElem? ht
    exact Bool.and_eq_true_iff.mpr ⟨h.reqs t hmem, h.guard hmem hfew hok⟩
  refine ⟨h.ok.act passSound hcond, fun t ht => ?_, ?_⟩
  · rcases Sys.Pool.act_req ht with ⟨t₀, ht₀, hreq⟩ | ⟨_, hexternal⟩ | ⟨op, hspawned⟩
    · rw [← hreq]
      exact h.reqs t₀ ht₀
    · exact hexternal
    · obtain ⟨_, _, hjob⟩ := spawns_cases hspawned
      cases hjob
  · cases a with
    | arrive r =>
      have hworld : (p.act (.arrive r)).world = p.world := by
        dsimp only [Sys.Pool.act]
        split
        · rfl
        · rfl
      rw [hworld]
      exact h.reads
    | step i c =>
      by_cases hcall : ∃ t op k, p.threads[i]? = some t ∧ t.prog = .call op k
      · obtain ⟨t, op, k, ht, hk⟩ := hcall
        have hmem := List.mem_of_getElem? ht
        have hguard := (passProtocol hmac ip w₀).cond_step ht hk hcond
        obtain ⟨htakes, _⟩ := h.ok.answer (c := c) ht hk hguard
        obtain ⟨hwindows, hnow⟩ := htakes.here
        rw [passage_step ht hk] at hfew ⊢
        dsimp only [Sys.Pool.act]
        rw [Sys.Pool.step_of_call ht hk]
        dsimp only at hwindows hnow ⊢
        rw [hwindows, hnow]
        exact h.moves hmem hfew
      · obtain ⟨hsame, hnone⟩ := passage_idle c hcall
        rw [hnone]
        dsimp only [Sys.Pool.act]
        rw [hsame]
        exact h.reads
    | env e =>
      obtain ⟨m, hreads, hrest⟩ := h.reads
      cases e with
      | tick ms =>
        exact ⟨m, hreads.later (Int.le_add_of_nonneg_right (Int.natCast_nonneg ms)), hrest⟩
      | crash => exact ⟨m, hreads, hrest⟩

/-- **Any number of them.** -/
theorem Counts.run (h : Counts crowd p) {acts : List (scanServer hmac ip w₀).Action}
    (hfew : along hmac ip w₀ Crowd.few crowd p acts = true)
    (hok : along hmac ip w₀ Crowd.withinOkLimit crowd p acts = true) :
    ∃ crowd', Counts crowd' (p.run acts) := by
  induction acts generalizing crowd p with
  | nil => exact ⟨crowd, h⟩
  | cons a acts ih =>
    obtain ⟨hfew, hfew'⟩ := Bool.and_eq_true_iff.mp hfew
    obtain ⟨hok, hok'⟩ := Bool.and_eq_true_iff.mp hok
    exact ih (h.act hfew hok) hfew' hok'

/-! ## Those who wait -/

/-- The scan has passed its gate, and waits to be refunded. -/
def waits (v : View api World) : Bool := v.past.length == 1 || v.past.length == 2

theorem waits_iff {v : View api World} :
    waits v = true ↔ v.past.length = 1 ∨ v.past.length = 2 := by
  unfold waits
  rw [Bool.or_eq_true, beq_iff_eq, beq_iff_eq]

theorem waits_push {v : View api World} {e : Event api World} :
    waits (v.push e) = true ↔ v.past.length = 0 ∨ v.past.length = 1 := by
  rw [waits_iff, View.past_push, List.length_cons]
  omega

variable (p) in
/-- How many wait. -/
def waiting : ℕ := p.threads.countP (fun t => waits t.view)

variable (p) in
/-- Whoever comes to the gate finds fewer than `FAIL_LIMIT` waiting. -/
def fewWait (a : (scanServer hmac ip w₀).Action) : Bool :=
  passage hmac ip w₀ p a != some .gate || decide (waiting p < FAIL_LIMIT)

/-- One more call: the program is now among those who wait, or it is not. -/
theorem waiting_set {i : ℕ} {t : (scanServer hmac ip w₀).Thread}
    (ht : p.threads[i]? = some t) (w' : World) (t' : (scanServer hmac ip w₀).Thread) :
    waiting (⟨w', p.threads.set i t'⟩ : (scanServer hmac ip w₀).Pool)
        + (if waits t.view = true then 1 else 0)
      = waiting p + (if waits t'.view = true then 1 else 0) := by
  obtain ⟨hi, hget⟩ := List.getElem?_eq_some_iff.mp ht
  unfold waiting
  dsimp only
  rw [List.countP_set hi, hget]
  split
  · next hw =>
    have hpos : 0 < p.threads.countP (fun t => waits t.view) :=
      List.countP_pos_iff.mpr ⟨t, List.mem_of_getElem? ht, hw⟩
    omega
  · omega

theorem hit_count_le (len now : ℤ) {n : ℕ} {win : Option FixedWindow.Win}
    (h : ∀ v, win = some v → v.count ≤ n) : (FixedWindow.hit len now win).count ≤ n + 1 := by
  unfold FixedWindow.hit
  cases win with
  | none => exact Nat.le_add_left 1 n
  | some v =>
    dsimp only
    split
    · exact Nat.le_add_left 1 n
    · exact Nat.succ_le_succ (h v rfl)

/-- **A call**: the crowd is no more than wait. -/
theorem crowd_step {i : ℕ} {c : Choice} {t : (scanServer hmac ip w₀).Thread} {op : Call}
    {k : Except DbError (Call.Res op) → Api ScanAnswer} (ht : p.threads[i]? = some t)
    (hk : t.prog = .call op k) (h : ∀ v, crowd.atGate = some v → v.count ≤ waiting p) :
    ∀ v, (crowd.after now (passageOf t.view)).atGate = some v → v.count ≤ waiting (p.step i c) := by
  have hnil : (scanServer hmac ip w₀).spawns op = [] := by
    cases op <;> rfl
  obtain ⟨n, hn⟩ : ∃ n, waiting (p.step i c) = n := ⟨_, rfl⟩
  have hset : n + (if waits t.view = true then 1 else 0) = waiting p
      + (if waits (t.view.push ⟨op, p.world, ((scanServer hmac ip w₀).exec c op p.world).1⟩) = true
        then 1 else 0) := by
    rw [← hn, Sys.Pool.step_of_call ht hk, hnil, List.map_nil, List.append_nil]
    exact waiting_set ht _ _
  rw [hn]
  intro v hv
  unfold passageOf at hv
  split at hv
  · -- the gate: one more has passed it, and one more waits
    next hlen =>
    cases hv
    have hle := hit_count_le (FAIL_WINDOW_SEC * 1000) now h
    rw [if_neg (by rw [waits_iff]; omega), if_pos (waits_push.mpr (.inl hlen))] at hset
    omega
  · cases hv
  · next hgate hrefund =>
    have hle := h v hv
    have hfirst : t.view.past.length ≠ 0 := hgate
    have hthird : t.view.past.length ≠ 2 := hrefund
    by_cases hone : t.view.past.length = 1
    · rw [if_pos (waits_iff.mpr (.inl hone)), if_pos (waits_push.mpr (.inr hone))] at hset
      omega
    · rw [if_neg (by rw [waits_iff]; omega), if_neg (by rw [waits_push]; omega)] at hset
      omega

/-- **Any action**: the crowd is no more than wait. -/
theorem crowd_act (a : (scanServer hmac ip w₀).Action)
    (h : ∀ v, crowd.atGate = some v → v.count ≤ waiting p) :
    ∀ v, (crowd.after p.world.now (passage hmac ip w₀ p a)).atGate = some v →
      v.count ≤ waiting (p.act a) := by
  cases a with
  | arrive r =>
    intro v hv
    refine (h v hv).trans ?_
    dsimp only [Sys.Pool.act]
    split
    · unfold waiting
      rw [List.countP_append]
      exact Nat.le_add_right _ _
    · exact le_rfl
  | step i c =>
    by_cases hcall : ∃ t op k, p.threads[i]? = some t ∧ t.prog = .call op k
    · obtain ⟨t, op, k, ht, hk⟩ := hcall
      rw [passage_step ht hk]
      exact crowd_step ht hk h
    · obtain ⟨hsame, hnone⟩ := passage_idle c hcall
      rw [hnone]
      dsimp only [Sys.Pool.act]
      rw [hsame]
      exact h
  | env e =>
    cases e with
    | tick ms => exact h
    | crash => exact h

/-- Where few wait at the gate, there is room. -/
theorem few_of_fewWait {a : (scanServer hmac ip w₀).Action}
    (h : ∀ v, crowd.atGate = some v → v.count ≤ waiting p) (ha : fewWait p a = true) :
    crowd.few p.world.now (passage hmac ip w₀ p a) = true := by
  unfold fewWait at ha
  cases hpassage : passage hmac ip w₀ p a with
  | none => rfl
  | some x =>
    cases x with
    | refund => rfl
    | gate =>
      rw [hpassage, bne_self_eq_false, Bool.false_or, decide_eq_true_iff] at ha
      show FixedWindow.room FAIL_LIMIT p.world.now crowd.atGate = true
      unfold FixedWindow.room
      split
      · rfl
      · next v hv => rw [decide_eq_true ((h v hv).trans_lt ha), Bool.or_true]

/-- **Few who wait are no crowd.** -/
theorem uncrowded_of_few {acts : List (scanServer hmac ip w₀).Action}
    (h : ∀ v, crowd.atGate = some v → v.count ≤ waiting p) (hfew : p.Meets fewWait acts = true) :
    along hmac ip w₀ Crowd.few crowd p acts = true := by
  induction acts generalizing crowd p with
  | nil => rfl
  | cons a acts ih =>
    obtain ⟨ha, hrest⟩ := Sys.Pool.meets_cons.mp hfew
    exact Bool.and_eq_true_iff.mpr ⟨few_of_fewWait h ha, ih (crowd_act a h) hrest⟩

end

/-! ## Every run -/

/-- **Valid scans are not walled by other valid scans** as long as nobody comes to the gate in
a crowd. -/
theorem valid_not_walled (hmac : Hmac) (ip : Text) (w₀ : World)
    (hdistinct : Windows.Distinct w₀.windows) (acts : List (scanServer hmac ip w₀).Action)
    (hok : along hmac ip w₀ Crowd.withinOkLimit (crowdAt ip w₀) (Sys.Pool.init w₀) acts = true)
    (hfew : along hmac ip w₀ Crowd.few (crowdAt ip w₀) (Sys.Pool.init w₀) acts = true) :
    ∀ t ∈ (scanRun hmac ip w₀ acts).threads, t.outcome ≠ some (.ok .wall) := by
  have hstart : Counts (crowdAt ip w₀) (Sys.Pool.init w₀ : (scanServer hmac ip w₀).Pool) :=
    ⟨Protocol.PoolOk.init ⟨rfl, rfl, hdistinct⟩, fun t ht => absurd ht List.not_mem_nil,
      w₀.meters, .start hdistinct w₀.now, rfl, rfl⟩
  obtain ⟨_, hcounts⟩ := hstart.run hfew hok
  intro t ht houtcome
  exact hcounts.ok.post ht houtcome (hcounts.reqs t ht) rfl

/-! ### A full restaurant -/

/-- A phone of the restaurant scans the card of its table. -/
def cardScan (token : ℕ) : ScanRequest := ⟨⟨[], []⟩, [9], signTableQr joined [7] [9] 0, token⟩

/-- The restaurant's scans. -/
abbrev restaurant : Sys api := scanServer joined (text "unknown") oneTable

/-- Twenty-one phones scan; each has passed the gate before any has its table. -/
def rush : List restaurant.Action :=
  (List.range 21).map (fun token => .arrive (cardScan token))
    ++ (List.range 21).map (fun i => .step i plain) ++ [.step 20 plain]

/-- **The twenty-first is sent to the wall.** -/
theorem valid_not_walled_fails :
    ¬ ∀ (hmac : Hmac) (ip : Text) (w₀ : World), Windows.Distinct w₀.windows →
      Windows.Opens w₀.windows (failKey ip) w₀.now →
      ∀ acts : List (scanServer hmac ip w₀).Action,
      along hmac ip w₀ Crowd.withinOkLimit (crowdAt ip w₀) (Sys.Pool.init w₀) acts = true →
      ∀ t ∈ (scanRun hmac ip w₀ acts).threads, t.outcome ≠ some (.ok .wall) := by
  intro h
  have hall := h joined (text "unknown") oneTable List.nodup_nil (fun _ hw => nomatch hw) rush
    (by decide +kernel)
  have hwalled : (scanRun joined (text "unknown") oneTable rush).threads.any
      (fun t => t.outcome == some (.ok .wall)) = true := by decide +kernel
  obtain ⟨t, ht, houtcome⟩ := List.any_eq_true.mp hwalled
  exact hall t ht (beq_iff_eq.mp houtcome)

/-- Twenty-one phones scan. Twenty have passed the gate before any has its table; the first of
them gets its table and its refund before the last one comes; and all go on to the end. -/
def refundedRush : List restaurant.Action :=
  (List.range 21).map (fun token => .arrive (cardScan token))
    ++ (List.range 20).map (fun i => .step i plain)
    ++ [.step 0 plain, .step 0 plain, .step 20 plain]
    ++ (List.range 8).flatMap (fun _ => (List.range 21).map (fun i => .step i plain))

/-- None of the twenty-one is sent to the wall. -/
theorem valid_not_walled_rush :
    (scanRun joined (text "unknown") oneTable refundedRush).threads.all
      (fun t => t.outcome.isSome && t.outcome != some (.ok .wall)) = true := by
  have hended : (scanRun joined (text "unknown") oneTable refundedRush).threads.all
      (fun t => t.outcome.isSome) = true := by decide +kernel
  refine List.all_eq_true.mpr (fun t ht => Bool.and_eq_true_iff.mpr
    ⟨List.all_eq_true.mp hended t ht, bne_iff_ne.mpr ?_⟩)
  exact valid_not_walled joined (text "unknown") oneTable List.nodup_nil refundedRush
    (by decide +kernel) (by decide +kernel) t ht

end Masadan
