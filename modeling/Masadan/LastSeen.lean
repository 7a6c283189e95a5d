import Masadan.Handlers
import Masadan.Throttle

/-!
# The throttled stamp

`getActiveSession` (`src/lib/tableSession.ts`) writes `lastSeenAt` once a minute, not on
every request. Beside it stands a version that writes on each request it accepts. Both are
sent the requests of one session, whose expiry, revocation and table take their course:
what each accepts is what `Throttle` says of its stamp (`Stamped`).
-/

namespace Masadan

/-- `getActiveSession`, with something else to write for an accepted request. -/
def validateWith (write : Id → TableSession → Time → Api Unit) (cookie : Option ℕ)
    (expected : Option Text) : Api (Option ActiveSession) := do
  match cookie with
  | none => return none
  | some token =>
    let found ← query (fun w => w.sessionByToken token)
    match found with
    | none => return none
    | some (id, session, table) =>
      if session.revokedAt.isSome then return none
      else
        let now ← query (fun w => w.now)
        if session.expiresAt < now then return none
        else if session.lastSeenAt + IDLE_MS < now then return none
        else if expected.any (fun code => code != table.code) then return none
        else if !table.active then return none
        else
          let _ ← write id session now
          return some ⟨id, session.venueId, session.tableId, table.code, table.name, session.visitId⟩

/-- The write of the stamp. -/
def stampSession (id : Id) : Api Unit :=
  perform (.tableSessionUpdate id (fun now s => { s with lastSeenAt := now }))

/-- The version that stamps every request it accepts. -/
def stampedActiveSession : Option ℕ → Option Text → Api (Option ActiveSession) :=
  validateWith (fun id _ _ => stampSession id)

/-- `getActiveSession` stamps when the stamp is not fresh. -/
def stampOnceStale (id : Id) (session : TableSession) (now : Time) : Api Unit :=
  if session.lastSeenAt + TOUCH_INTERVAL_MS ≤ now then stampSession id else return ()

theorem getActiveSession_eq : getActiveSession = validateWith stampOnceStale := by
  funext cookie expected
  cases cookie with
  | none => rfl
  | some token =>
    unfold getActiveSession validateWith
    refine congrArg (Prog.bind _) (funext (fun found => ?_))
    cases found with
    | none => rfl
    | some found =>
      obtain ⟨id, session, table⟩ := found
      refine ite_congr rfl (fun _ => rfl) (fun _ => ?_)
      refine congrArg (Prog.bind _) (funext (fun now => ?_))
      refine ite_congr rfl (fun _ => rfl) (fun _ => ?_)
      refine ite_congr rfl (fun _ => rfl) (fun _ => ?_)
      refine ite_congr rfl (fun _ => rfl) (fun _ => ?_)
      refine ite_congr rfl (fun _ => rfl) (fun _ => ?_)
      unfold stampOnceStale
      by_cases hstale : session.lastSeenAt + TOUCH_INTERVAL_MS ≤ now
      · rw [if_pos hstale, if_pos hstale]
        rfl
      · rw [if_neg hstale, if_neg hstale]
        rfl

/-- A session: its row, its table's, when it is revoked, and when its table is active. -/
structure SessionCourse where
  token : ℕ
  id : Id
  tableId : Id
  revokedAt : Option Time
  active : Time → Bool

/-- A request of the session. -/
structure SessionRequest where
  time : Time
  expected : Option Text
  deriving DecidableEq, Repr

namespace SessionCourse

variable (c : SessionCourse)

/-- The revocation as it stands at a time. -/
def revocation (t : Time) : Option Time := c.revokedAt.filter (fun r => decide (r ≤ t))

/-- The database at a time of the course. -/
def world (w : World) (t : Time) : World :=
  { w with
    now := t
    tableSessions := w.tableSessions.updateAt c.id (fun s => { s with revokedAt := c.revocation t })
    tables := w.tables.updateAt c.tableId (fun table => { table with active := c.active t }) }

/-- A request is served. -/
def serve (validate : Option ℕ → Option Text → Api (Option ActiveSession)) (w : World)
    (r : SessionRequest) : World × Except DbError (Option ActiveSession) :=
  (validate (some c.token) r.expected).runAlone (World.exec plain) (c.world w r.time)

/-- The database after some requests. -/
def after (validate : Option ℕ → Option Text → Api (Option ActiveSession)) (w : World)
    (requests : List SessionRequest) : World :=
  requests.foldl (fun w r => (c.serve validate w r).1) w

/-- A request is accepted: it is answered with a session. -/
def accepted : Except DbError (Option ActiveSession) → Bool
  | .ok session => session.isSome
  | .error _ => false

def accepts (validate : Option ℕ → Option Text → Api (Option ActiveSession)) (w : World)
    (r : SessionRequest) : Bool := accepted (c.serve validate w r).2

/-- A request as a use: what speaks against it, but for its stamp. -/
def toUse (expiresAt : Time) (code : Text) (r : SessionRequest) : Throttle.Use where
  time := r.time
  valid := (c.revocation r.time).isNone && !decide (expiresAt < r.time)
    && !r.expected.any (fun x => x != code) && c.active r.time

/-- **The session is stamped**: the row the token is found by, with its stamp. -/
structure Stamped (expiresAt : Time) (code : Text) (stamp : Time) (w : World) : Prop where
  found : ∃ s table, w.sessionByToken c.token = some (c.id, s, table) ∧ s.tableId = c.tableId
    ∧ s.expiresAt = expiresAt ∧ s.lastSeenAt = stamp ∧ table.code = code

end SessionCourse

/-! ## One request -/

namespace SessionCourse

variable {c : SessionCourse} {expiresAt stamp : Time} {code : Text} {w : World}

/-- The session as a request finds it. -/
theorem Stamped.world (h : c.Stamped expiresAt code stamp w) (t : Time) :
    ∃ s table, (c.world w t).sessionByToken c.token = some (c.id, s, table)
      ∧ s.tableId = c.tableId ∧ s.expiresAt = expiresAt ∧ s.lastSeenAt = stamp
      ∧ table.code = code ∧ s.revokedAt = c.revocation t ∧ table.active = c.active t := by
  obtain ⟨s, table, hfound, hplace, hexpires, hstamp, hcode⟩ := h.found
  obtain ⟨hrow, htable⟩ := sessionByToken_eq_some.mp hfound
  have hfind := Rows.find?_updateAt (fun s : TableSession => { s with revokedAt := c.revocation t })
    (fun _ _ => rfl) hrow
  refine ⟨{ s with revokedAt := c.revocation t }, { table with active := c.active t },
    sessionByToken_eq_some.mpr ⟨hfind, ?_⟩, hplace, hexpires,
    hstamp, hcode, rfl, rfl⟩
  show (w.tables.updateAt c.tableId _).get? s.tableId = _
  rw [Rows.get?_updateAt, htable]
  exact congrArg some (if_pos hplace)

/-- A write of the stamp. -/
theorem stamped_write {s : TableSession} {table : Table}
    (hfound : w.sessionByToken c.token = some (c.id, s, table)) (hplace : s.tableId = c.tableId)
    (hexpires : s.expiresAt = expiresAt) (hcode : table.code = code) {w' : World}
    {x : Except DbError Unit}
    (hx : w.tableSessionUpdate c.id (fun now s => { s with lastSeenAt := now }) = (w', x)) :
    x = .ok () ∧ c.Stamped expiresAt code w.now w' := by
  obtain ⟨hrow, htable⟩ := sessionByToken_eq_some.mp hfound
  unfold World.tableSessionUpdate at hx
  rw [(sessionByToken_spec hfound).1] at hx
  cases hx
  have hfind := Rows.find?_updateAt (fun s : TableSession => { s with lastSeenAt := w.now })
    (fun _ _ => rfl) hrow
  exact ⟨rfl, { s with lastSeenAt := w.now }, table, sessionByToken_eq_some.mpr ⟨hfind, htable⟩,
    hplace, hexpires, rfl, hcode⟩

/-- What is asked of a request. -/
theorem good_toUse {r : SessionRequest}
    (h : Throttle.good IDLE_MS stamp (c.toUse expiresAt code r) = true) :
    c.revocation r.time = none ∧ r.time ≤ expiresAt ∧ r.time ≤ stamp + IDLE_MS
      ∧ r.expected.any (fun x => x != code) = false ∧ c.active r.time = true := by
  obtain ⟨hvalid, htime⟩ := Throttle.good_iff.mp h
  unfold toUse at hvalid
  dsimp only at hvalid
  rw [Bool.and_eq_true, Bool.and_eq_true, Bool.and_eq_true, Option.isNone_iff_eq_none,
    Bool.not_eq_true', decide_eq_false_iff_not, not_lt, Bool.not_eq_true'] at hvalid
  obtain ⟨⟨⟨hrevoked, hexpires⟩, hexpected⟩, hactive⟩ := hvalid
  exact ⟨hrevoked, hexpires, htime, hexpected, hactive⟩

theorem toUse_good {r : SessionRequest} (hrevoked : c.revocation r.time = none)
    (hexpires : r.time ≤ expiresAt) (htime : r.time ≤ stamp + IDLE_MS)
    (hexpected : r.expected.any (fun x => x != code) = false) (hactive : c.active r.time = true) :
    Throttle.good IDLE_MS stamp (c.toUse expiresAt code r) = true := by
  refine Throttle.good_iff.mpr ⟨?_, htime⟩
  unfold toUse
  dsimp only
  rw [hrevoked, hexpected, hactive, decide_eq_false (not_lt.mpr hexpires)]
  rfl

/-- What a request is answered, and the stamp it leaves. -/
def Answered (c : SessionCourse) (expiresAt stamp : Time) (code : Text)
    (next : Time → Throttle.Use → Time) (r : SessionRequest) (w : World)
    (x : Except DbError (Option ActiveSession)) : Prop :=
  accepted x = Throttle.good IDLE_MS stamp (c.toUse expiresAt code r)
    ∧ c.Stamped expiresAt code (next stamp (c.toUse expiresAt code r)) w

/-- **A request** is accepted if its use is good. -/
theorem Stamped.serve (h : c.Stamped expiresAt code stamp w)
    {write : Id → TableSession → Time → Api Unit} {next : Time → Throttle.Use → Time}
    (hnext : ∀ u, ¬ Throttle.good IDLE_MS stamp u = true → next stamp u = stamp)
    (r : SessionRequest)
    (hwrite : ∀ w₁ s table, w₁.sessionByToken c.token = some (c.id, s, table) →
      s.tableId = c.tableId → s.expiresAt = expiresAt → s.lastSeenAt = stamp → table.code = code →
      w₁.now = r.time → Throttle.good IDLE_MS stamp (c.toUse expiresAt code r) = true →
      Alone (fun w' x => x = .ok ()
          ∧ c.Stamped expiresAt code (next stamp (c.toUse expiresAt code r)) w')
        (write c.id s r.time) w₁) :
    c.Answered expiresAt stamp code next r
      (c.serve (validateWith write) w r).1 (c.serve (validateWith write) w r).2 := by
  obtain ⟨s, table, hfound, hplace, rfl, rfl, rfl, hrevoked, hactive⟩ := h.world r.time
  have hworld : c.Stamped s.expiresAt table.code s.lastSeenAt (c.world w r.time) :=
    ⟨⟨s, table, hfound, hplace, rfl, rfl, rfl⟩⟩
  have hnow : (c.world w r.time).now = r.time := rfl
  unfold SessionCourse.serve
  generalize c.world w r.time = w₁ at hfound hworld hnow
  -- each check that fails is one the use fails
  have hno : ¬ Throttle.good IDLE_MS s.lastSeenAt (c.toUse s.expiresAt table.code r) = true →
      Alone (c.Answered s.expiresAt s.lastSeenAt table.code next r) (.ret none) w₁ := by
    intro hbad
    refine ⟨(Bool.eq_false_iff.mpr hbad).symm, ?_⟩
    rw [hnext _ hbad]
    exact hworld
  show Alone (c.Answered s.expiresAt s.lastSeenAt table.code next r)
    (validateWith write (some c.token) r.expected) w₁
  unfold validateWith
  refine alone_query ?_
  rw [hfound]
  dsimp only
  split
  · next hset =>
    refine hno (fun hgood => ?_)
    rw [hrevoked, (good_toUse hgood).1] at hset
    cases hset
  · next hunset =>
    refine alone_query ?_
    rw [hnow]
    split
    · next hlate => exact hno (fun hgood => absurd (good_toUse hgood).2.1 (not_le.mpr hlate))
    · next hexpires =>
      split
      · next hidle => exact hno (fun hgood => absurd (good_toUse hgood).2.2.1 (not_le.mpr hidle))
      · next hfresh =>
        split
        · next hother =>
          refine hno (fun hgood => ?_)
          rw [(good_toUse hgood).2.2.2.1] at hother
          cases hother
        · next hexpected =>
          split
          · next hclosed =>
            refine hno (fun hgood => ?_)
            rw [hactive, (good_toUse hgood).2.2.2.2] at hclosed
            cases hclosed
          · next hopen =>
            have hgood : Throttle.good IDLE_MS s.lastSeenAt
                (c.toUse s.expiresAt table.code r) = true := by
              refine toUse_good ?_ (not_lt.mp hexpires) (not_lt.mp hfresh)
                (Bool.not_eq_true _ ▸ hexpected) ?_
              · rwa [hrevoked, Option.not_isSome_iff_eq_none] at hunset
              · rwa [hactive, Bool.not_eq_true', Bool.not_eq_false] at hopen
            refine Prog.alone_bind (Prog.alone_mono
              (hwrite w₁ s table hfound hplace rfl rfl rfl hnow hgood) (fun w' x hx => ?_))
            obtain ⟨rfl, hstamped⟩ := hx
            exact ⟨hgood.symm, hstamped⟩

/-- The stamp is written. -/
theorem stampSession_alone {s : TableSession} {table : Table}
    (hfound : w.sessionByToken c.token = some (c.id, s, table)) (hplace : s.tableId = c.tableId)
    (hexpires : s.expiresAt = expiresAt) (hcode : table.code = code) :
    Alone (fun w' x => x = .ok () ∧ c.Stamped expiresAt code w.now w') (stampSession c.id) w := by
  unfold stampSession perform Prog.perform Alone Prog.Alone
  rw [Prog.runAlone_call]
  generalize hx : World.exec plain (.tableSessionUpdate c.id
    (fun now s => { s with lastSeenAt := now })) w = written
  obtain ⟨w', x⟩ := written
  obtain ⟨rfl, hstamped⟩ := stamped_write hfound hplace hexpires hcode hx
  exact ⟨rfl, hstamped⟩

/-- The version that stamps every request. -/
theorem Stamped.serve_stamped (h : c.Stamped expiresAt code stamp w) (r : SessionRequest) :
    c.Answered expiresAt stamp code (Throttle.exact IDLE_MS) r
      (c.serve stampedActiveSession w r).1 (c.serve stampedActiveSession w r).2 := by
  refine h.serve (fun u hu => if_neg hu) r
    (fun w₁ s table hfound hplace hexpires hstamp hcode hnow hgood => ?_)
  rw [show Throttle.exact IDLE_MS stamp (c.toUse expiresAt code r) = w₁.now from
    (if_pos hgood).trans hnow.symm]
  exact stampSession_alone hfound hplace hexpires hcode

/-- **`getActiveSession`.** -/
theorem Stamped.serve_throttled (h : c.Stamped expiresAt code stamp w) (r : SessionRequest) :
    c.Answered expiresAt stamp code (Throttle.throttled IDLE_MS TOUCH_INTERVAL_MS) r
      (c.serve getActiveSession w r).1 (c.serve getActiveSession w r).2 := by
  rw [getActiveSession_eq]
  refine h.serve (fun u hu => if_neg hu) r
    (fun w₁ s table hfound hplace hexpires hstamp hcode hnow hgood => ?_)
  unfold Throttle.throttled stampOnceStale
  rw [if_pos hgood, hstamp]
  show Alone _ (if stamp + TOUCH_INTERVAL_MS ≤ r.time then _ else _) w₁
  by_cases hstale : stamp + TOUCH_INTERVAL_MS ≤ r.time
  · rw [if_pos hstale, if_pos (show stamp + TOUCH_INTERVAL_MS ≤ (c.toUse expiresAt code r).time
      from hstale), show (c.toUse expiresAt code r).time = w₁.now from hnow.symm]
    exact stampSession_alone hfound hplace hexpires hcode
  · rw [if_neg hstale, if_neg (show ¬ stamp + TOUCH_INTERVAL_MS ≤ (c.toUse expiresAt code r).time
      from hstale)]
    exact ⟨rfl, s, table, hfound, hplace, hexpires, hstamp, hcode⟩

/-- **A trace of requests** is answered as its uses are. -/
theorem Stamped.after {validate : Option ℕ → Option Text → Api (Option ActiveSession)}
    {next : Time → Throttle.Use → Time}
    (hserve : ∀ {stamp w}, c.Stamped expiresAt code stamp w → ∀ r,
      c.Answered expiresAt stamp code next r (c.serve validate w r).1 (c.serve validate w r).2)
    (h : c.Stamped expiresAt code stamp w) (requests : List SessionRequest) :
    c.Stamped expiresAt code ((requests.map (c.toUse expiresAt code)).foldl next stamp)
      (c.after validate w requests) := by
  induction requests generalizing stamp w with
  | nil => exact h
  | cons r rest ih => exact ih (hserve h r).2

end SessionCourse

/-- **The throttled stamp is safe.** Along the requests of a session, `getActiveSession`
accepts only what the version that stamps every request accepts; and what that accepts no
later than `IDLE_MS - TOUCH_INTERVAL_MS` after a request that `getActiveSession` accepted,
it accepts too. -/
theorem stamps_safe (w : World) (c : SessionCourse) (s : TableSession) (table : Table)
    (hfound : w.sessionByToken c.token = some (c.id, s, table)) (hplace : s.tableId = c.tableId)
    (requests : List SessionRequest) (hstart : ∀ r ∈ requests, s.lastSeenAt ≤ r.time)
    (hclock : requests.Pairwise (fun r r' => r.time ≤ r'.time)) :
    (∀ u r v, requests = u ++ r :: v →
      c.accepts getActiveSession (c.after getActiveSession w u) r = true →
      c.accepts stampedActiveSession (c.after stampedActiveSession w u) r = true)
    ∧ ∀ u p m r v, requests = u ++ p :: m ++ r :: v →
      c.accepts getActiveSession (c.after getActiveSession w u) p = true →
      r.time ≤ p.time + (IDLE_MS - TOUCH_INTERVAL_MS) →
      c.accepts stampedActiveSession (c.after stampedActiveSession w (u ++ p :: m)) r = true →
      c.accepts getActiveSession (c.after getActiveSession w (u ++ p :: m)) r = true := by
  have hstamped : c.Stamped s.expiresAt table.code s.lastSeenAt w :=
    ⟨⟨s, table, hfound, hplace, rfl, rfl, rfl⟩⟩
  -- what each answers is what its stamp says of the use
  have hthrottled : ∀ u r, c.accepts getActiveSession (c.after getActiveSession w u) r
      = Throttle.good IDLE_MS ((u.map (c.toUse s.expiresAt table.code)).foldl
        (Throttle.throttled IDLE_MS TOUCH_INTERVAL_MS) s.lastSeenAt)
        (c.toUse s.expiresAt table.code r) := fun u r =>
    ((hstamped.after (fun h => h.serve_throttled) u).serve_throttled r).1
  have hexact : ∀ u r, c.accepts stampedActiveSession (c.after stampedActiveSession w u) r
      = Throttle.good IDLE_MS ((u.map (c.toUse s.expiresAt table.code)).foldl
        (Throttle.exact IDLE_MS) s.lastSeenAt) (c.toUse s.expiresAt table.code r) := fun u r =>
    ((hstamped.after (fun h => h.serve_stamped) u).serve_stamped r).1
  constructor
  · rintro u r v rfl haccepts
    rw [hthrottled] at haccepts
    rw [hexact]
    refine Throttle.good_of_throttled (fun x hx => ?_) ?_ haccepts
    · obtain ⟨q, hq, rfl⟩ := List.mem_map.mp hx
      exact hstart q (List.mem_append_left _ hq)
    · exact List.pairwise_map.mpr (List.pairwise_append.mp hclock).1
  · rintro u p m r v rfl hp hsoon haccepts
    rw [hthrottled] at hp ⊢
    rw [hexact] at haccepts
    rw [List.map_append, List.map_cons, List.foldl_append, List.foldl_cons]
    exact Throttle.throttled_good (by decide) hp _ (Throttle.good_iff.mp haccepts).1 hsoon

/-- A session that was minted at the start, at table 0. -/
def justScanned : World :=
  { World.blank 0 with
    tables := Rows.ofList [⟨0, text "TBL1", text "Masa 1", 1, true⟩]
    tableSessions := Rows.ofList [⟨0, 0, 7, none, 0, 0, HARD_CAP_MS, none⟩] }

def justScannedCourse : SessionCourse := ⟨7, 0, 0, none, fun _ => true⟩

/-- A request after fifty seconds leaves the stamp; one 29 minutes later is accepted. -/
theorem stamps_safe_later :
    justScannedCourse.accepts getActiveSession
      (justScannedCourse.after getActiveSession justScanned [⟨50000, none⟩]) ⟨1790000, none⟩ = true :=
  (stamps_safe justScanned justScannedCourse ⟨0, 0, 7, none, 0, 0, HARD_CAP_MS, none⟩
    ⟨0, text "TBL1", text "Masa 1", 1, true⟩ (by rfl) rfl [⟨50000, none⟩, ⟨1790000, none⟩]
    (by decide) (by decide)).2 [] ⟨50000, none⟩ [] ⟨1790000, none⟩ [] rfl (by decide +kernel)
    (by decide) (by decide +kernel)

end Masadan
