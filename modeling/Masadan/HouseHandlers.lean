import Masadan.HouseCalls
import Masadan.OldCodes

/-!
# The handlers keep house

Every handler, job and sweep of `Masadan.House` makes fit calls only, whatever the others do
while it waits. A handler learns what it needs from what it has read: the row was there, and
what identifies a row is kept (`Kept`), so whatever is under that id when the handler
writes is the same row.

The walks follow the handlers call by call. What a handler may touch is a hypothesis of its
lemma; the last section discharges it for the requests.
-/

namespace Masadan

section

variable (hmac : Hmac) (bcrypt : Bcrypt)

/-- The promise of every request of the server. -/
abbrev houseProtocol : Protocol (house hmac bcrypt) where
  Inv := Coherent
  Evolves := Kept
  refl := Kept.refl
  Local r v e := (∀ k a, Touches e.before e.after k a → r.mayTouch v.past k a)
    ∧ e.op.OwnLines e.before

end

/-! ## Rules -/

section Rules

variable {hmac : Hmac} {bcrypt : Bcrypt} {r : HouseRequest} {α β : Type} {v : View api World}

theorem house_rely {w w' : World} (h : (houseProtocol hmac bcrypt).Rely w w') : Kept w w' :=
  h.evolves Kept.trans

/-- A call fails and changes nothing, or does what it does. -/
theorem houseExec_cases (c : Choice) (op : Call) (w : World) :
    ((houseExec c op w).1 = w ∧ ∃ e, (houseExec c op w).2 = .error e)
      ∨ (w.dangling op = false ∧ houseExec c op w = World.exec c op w) := by
  unfold houseExec
  split
  · exact .inl ⟨rfl, _, rfl⟩
  · split
    · split
      · exact .inl ⟨rfl, _, rfl⟩
      · exact .inl ⟨rfl, _, rfl⟩
    · next hd => exact .inr ⟨Bool.not_eq_true _ ▸ hd, rfl⟩

/-- **The part keeps house**, and what it returns satisfies `R`. -/
abbrev HouseOk (hmac : Hmac) (bcrypt : Bcrypt) (r : HouseRequest) (R : View api World → α → Prop)
    (v : View api World) (p : Api α) : Prop :=
  (houseProtocol hmac bcrypt).Ok r (fun v' x => ∀ a, x = .ok a → R v' a) v p

theorem houseOk_ret {R : View api World → α → Prop} {a : α} (h : R v a) :
    HouseOk hmac bcrypt r R v (.ret a) := by
  rintro _ ⟨⟩
  exact h

theorem houseOk_raise {R : View api World → α → Prop} {e : DbError} :
    HouseOk hmac bcrypt r R v (.raise e) := fun _ h => by cases h

/-- A part, and then the rest from where the others have led to. -/
theorem houseOk_bind {R : View api World → α → Prop} {R' : View api World → β → Prop} {p : Api α}
    {f : α → Api β} (h : HouseOk hmac bcrypt r R v p)
    (hf : ∀ v' a, R v' a → v.past <:+ v'.past → Kept v.since v'.since →
      HouseOk hmac bcrypt r R' v' (f a)) : HouseOk hmac bcrypt r R' v (p.bind f) := by
  refine Protocol.ok_bind (Protocol.ok_mono (Protocol.ok_extend h) (fun v' x hx => ?_))
  obtain ⟨hR, _, hpast, hrely⟩ := hx
  cases x with
  | ok a => exact hf v' a (hR a rfl) hpast (house_rely hrely)
  | error e => exact fun _ h => by cases h

theorem houseOk_map {R : View api World → β → Prop} {p : Api α} {f : α → β}
    (h : HouseOk hmac bcrypt r (fun v a => R v (f a)) v p) :
    HouseOk hmac bcrypt r R v (f <$> p) :=
  houseOk_bind h (fun _ _ ha _ _ => houseOk_ret ha)

/-- A fit call is answered within the promise. -/
theorem house_takes {op : Call} {w : World} (hw : Coherent w)
    (hfit : op.Fits w (r.mayTouch v.past)) (c : Choice) :
    (houseProtocol hmac bcrypt).Takes r v ⟨op, w, (houseExec c op w).1⟩ := by
  rcases houseExec_cases c op w with ⟨hsame, _⟩ | ⟨hd, hexec⟩
  · rw [hsame]
    exact ⟨hw, Kept.refl w, fun k a ht => (Within.refl _ w).touches ht, Fits.ownLines hfit⟩
  · have hstep := Fits.step hw (c := c) hfit hd
    rw [hexec]
    exact ⟨hstep.coherent, hstep.kept, fun k a ht => hstep.within.touches ht, Fits.ownLines hfit⟩

/-- A call that is fit, and what is done with its outcome. -/
theorem houseOk_call {R : View api World → β → Prop} {op : Call}
    {k : Except DbError (Call.Res op) → Api β}
    (hfit : ∀ w, Coherent w → Kept v.since w → op.Fits w (r.mayTouch v.past))
    (hk : ∀ w w' x, Coherent w → Kept v.since w → Kept v.since w' →
      ((∃ e, x = .error e) ∨ ∃ c, World.exec c op w = (w', x)) →
      HouseOk hmac bcrypt r R (v.push ⟨op, w, w'⟩) (k x)) :
    HouseOk hmac bcrypt r R v (.call op k) := by
  intro w c hw hrely _
  have hv := house_rely hrely
  have htakes : (houseProtocol hmac bcrypt).Takes r v ⟨op, w, (houseExec c op w).1⟩ :=
    house_takes hw (hfit w hw hv) c
  refine ⟨htakes, ?_⟩
  rcases houseExec_cases c op w with ⟨hsame, e, he⟩ | ⟨_, hexec⟩
  · exact hk w _ _ hw hv (hv.trans htakes.evolves) (.inl ⟨e, he⟩)
  · exact hk w _ _ hw hv (hv.trans htakes.evolves) (.inr ⟨c, hexec.symm⟩)

/-- A call whose error is thrown, and the rest. -/
theorem houseOk_perform {R : View api World → β → Prop} {op : Call} {f : Call.Res op → Api β}
    (hfit : ∀ w, Coherent w → Kept v.since w → op.Fits w (r.mayTouch v.past))
    (hf : ∀ c w w' a, Coherent w → Kept v.since w → Kept v.since w' →
      World.exec c op w = (w', .ok a) → HouseOk hmac bcrypt r R (v.push ⟨op, w, w'⟩) (f a)) :
    HouseOk hmac bcrypt r R v ((perform op).bind f) := by
  refine houseOk_call hfit (fun w w' x hw hv hv' hx => ?_)
  cases x with
  | error e => exact houseOk_raise
  | ok a =>
    rcases hx with ⟨e, he⟩ | ⟨c, hexec⟩
    · cases he
    · exact hf c w w' a hw hv hv' hexec

/-- A call that is the last, or whose answer is not looked at. -/
theorem houseOk_last {op : Call}
    (hfit : ∀ w, Coherent w → Kept v.since w → op.Fits w (r.mayTouch v.past)) :
    HouseOk hmac bcrypt r (fun _ _ => True) v (perform op) := by
  refine houseOk_call hfit (fun w w' x _ _ _ _ => ?_)
  cases x with
  | error e => exact houseOk_raise
  | ok a => exact houseOk_ret trivial

/-- A read, and the rest. -/
theorem houseOk_read {R : View api World → β → Prop} (q : World → α) {f : α → Api β}
    (hf : ∀ w, Coherent w → Kept v.since w →
      HouseOk hmac bcrypt r R (v.push ⟨.query q, w, w⟩) (f (q w))) :
    HouseOk hmac bcrypt r R v ((query q).bind f) :=
  houseOk_call (fun _ _ _ => trivial) (fun w w' x hw hv _ hx => by
    rcases hx with ⟨e, rfl⟩ | ⟨c, hexec⟩
    · exact houseOk_raise
    · cases hexec
      exact hf w hw hv)

/-- `try`. -/
theorem houseOk_attempt {R : View api World → α → Prop} {p : Api α}
    (h : HouseOk hmac bcrypt r R v p) :
    HouseOk hmac bcrypt r (fun v' x => ∀ a, x = .ok a → R v' a) v p.attempt :=
  Protocol.ok_attempt (Protocol.ok_mono h (fun _ _ hx y hy a ha => by
    cases hy
    exact hx a ha))

/-- **A part all of whose calls are fit** wherever it makes them, given something of what the
request has seen that seeing more does not undo. -/
theorem houseOk_calls {A : Call → Prop} {B : α → Prop} {p : Api α}
    {K : List (Event api World) → Prop} (hp : p.Calls A B) (hK : ∀ e es, K es → K (e :: es))
    (hv : K v.past) (hA : ∀ past w op, K past → A op → Coherent w → Kept v.since w →
      op.Fits w (r.mayTouch past)) :
    HouseOk hmac bcrypt r (fun _ a => B a) v p := by
  induction p generalizing v with
  | ret a => exact houseOk_ret hp
  | raise e => exact houseOk_raise
  | call op k ih =>
    intro w c hw hrely hg
    have hkept := house_rely hrely
    have htakes : (houseProtocol hmac bcrypt).Takes r v ⟨op, w, (houseExec c op w).1⟩ :=
      house_takes hw (hA _ w op hv hp.1 hw hkept) c
    exact ⟨htakes, ih _ (hp.2 _) (hK _ _ hv) (fun past w' op hpast hop hw' hv' =>
      hA past w' op hpast hop hw' ((hkept.trans htakes.evolves).trans hv'))⟩

/-- A part that only reads, or writes where no row is. -/
def Call.Aside : Call → Prop
  | .query _ | .orderAttemptCreate _ | .background _ | .limiter _ | .accountCacheSet _ _
  | .accountCacheDelete _ => True
  | _ => False

theorem Call.Aside.fits {op : Call} (h : op.Aside) (w : World) (M : Kind → Addr → Prop) :
    op.Fits w M := by
  cases op <;> first
    | exact trivial
    | exact h.elim

theorem houseOk_aside {B : α → Prop} {p : Api α} (hp : p.Calls Call.Aside B) :
    HouseOk hmac bcrypt r (fun _ a => B a) v p :=
  houseOk_calls (K := fun _ => True) hp (fun _ _ h => h) trivial
    (fun past w _ _ hop _ _ => hop.fits w (r.mayTouch past))

end Rules

section

variable {hmac : Hmac} {bcrypt : Bcrypt} {r : HouseRequest} {v : View api World}

/-! ## Who is asking -/

/-- The member of staff is who the token says. -/
def Vouched (token : Option TokenClaims) (staff : SignedIn) : Prop :=
  ∃ c, token = some c ∧ staff.venueId = c.venueId ∧ c.sub = some staff.sub

theorem accountState_aside (staffId : Id) :
    (accountState staffId).Calls Call.Aside (fun _ => True) := by
  unfold accountState
  refine Prog.calls_bind (Prog.calls_perform (S := api) trivial) (fun cached _ => ?_)
  cases cached with
  | some state => exact trivial
  | none =>
    refine Prog.calls_bind (Prog.calls_perform (S := api) trivial) (fun user _ => ?_)
    cases user with
    | none => exact Prog.calls_bind (Prog.calls_perform (S := api) trivial) (fun _ _ => trivial)
    | some user =>
      exact Prog.calls_bind (Prog.calls_perform (S := api) trivial) (fun _ _ => trivial)

theorem getStaff_aside (token : Option TokenClaims) :
    (getStaff token).Calls Call.Aside (fun x => ∀ staff, x = some staff → Vouched token staff) := by
  unfold getStaff
  cases token with
  | none => exact fun _ h => by cases h
  | some claims =>
    dsimp only
    cases hsub : claims.sub with
    | none => exact fun _ h => by cases h
    | some sub =>
      refine Prog.calls_bind (accountState_aside sub) (fun found _ => ?_)
      cases found with
      | none => exact fun _ h => by cases h
      | some account =>
        dsimp only
        split
        · exact fun _ h => by cases h
        · split
          · exact fun _ h => by cases h
          · rintro _ ⟨⟩
            exact ⟨claims, rfl, rfl, hsub⟩

theorem requireStaff_aside (role : Role) (token : Option TokenClaims) :
    (requireStaff role token).Calls Call.Aside
      (fun x => ∀ staff, x = some staff → Vouched token staff) := by
  refine Prog.calls_bind (getStaff_aside token) (fun found hfound => ?_)
  cases found with
  | none => exact fun _ h => by cases h
  | some staff =>
    dsimp only
    split
    · exact fun _ h => by cases h
    · exact hfound

theorem logAttempt_aside (caller : Caller) (outcome : AttemptOutcome) (extra : AttemptInfo) :
    (logAttempt caller outcome extra).Calls Call.Aside (fun _ => True) :=
  Prog.calls_bind (Prog.calls_attempt (Prog.calls_perform (S := api) trivial))
    (fun _ _ => trivial)

theorem ordersInFlight_aside (visitId : Id) (force : Bool) :
    (ordersInFlight visitId force).Calls Call.Aside (fun _ => True) := by
  unfold ordersInFlight
  split
  · exact trivial
  · exact Prog.calls_perform (S := api) trivial

/-! ## A phone's session -/

/-- **The request has read the session**, under its cookie, where the rows were coherent. -/
def SawActive (v : View api World) (cookie : Option ℕ) (session : ActiveSession) : Prop :=
  ∃ e ∈ v.past, ∃ s, e.before.tableSessions.get? session.id = some s ∧ cookie = some s.token
    ∧ s.venueId = session.venueId ∧ s.tableId = session.tableId ∧ s.visitId = session.visitId
    ∧ Coherent e.before ∧ Kept e.before v.since

theorem SawActive.extend {cookie : Option ℕ} {session : ActiveSession} {v v' : View api World}
    (h : SawActive v cookie session) (hpast : v.past <:+ v'.past) (hv : Kept v.since v'.since) :
    SawActive v' cookie session := by
  obtain ⟨e, he, s, hs, htoken, hvenue, htable, hvisit, hcoherent, hkept⟩ := h
  exact ⟨e, hpast.mem he, s, hs, htoken, hvenue, htable, hvisit, hcoherent, hkept.trans hv⟩

theorem SawActive.cookie {cookie : Option ℕ} {session : ActiveSession}
    (h : SawActive v cookie session) :
    ∃ s, SawCookie v.past cookie session.id s ∧ s.venueId = session.venueId
      ∧ s.tableId = session.tableId := by
  obtain ⟨e, he, s, hs, htoken, hvenue, htable, _⟩ := h
  exact ⟨s, ⟨e, he, hs, htoken⟩, hvenue, htable⟩

theorem SawCookie.mono {past past' : List (Event api World)} {cookie : Option ℕ} {id : Id}
    {s : TableSession} (h : SawCookie past cookie id s) (hpast : past <:+ past') :
    SawCookie past' cookie id s := by
  obtain ⟨e, he, hs⟩ := h
  exact ⟨e, hpast.mem he, hs⟩

theorem PhoneMay.mono {past past' : List (Event api World)} {cookie : Option ℕ}
    {own shared : List Kind} {k : Kind} {a : Addr} (h : PhoneMay past cookie own shared k a)
    (hpast : past <:+ past') : PhoneMay past' cookie own shared k a := by
  obtain ⟨id, s, hsaw, hrest⟩ := h
  exact ⟨id, s, hsaw.mono hpast, hrest⟩

/-- **Validating the cookie** stamps no session but its own. -/
theorem getActiveSession_house {cookie : Option ℕ} (expected : Option Text)
    (hown : ∀ past id s, SawCookie past cookie id s → r.mayTouch past .session (s.addr id)) :
    HouseOk hmac bcrypt r (fun v' x => ∀ session, x = some session → SawActive v' cookie session) v
      (getActiveSession cookie expected) := by
  have hnone : ∀ v' : View api World, HouseOk hmac bcrypt r
      (fun v' x => ∀ session, x = some session → SawActive v' cookie session) v' (.ret none) :=
    fun v' => houseOk_ret (fun _ h => by cases h)
  unfold getActiveSession
  cases cookie with
  | none => exact hnone _
  | some token =>
    refine houseOk_read _ (fun w₁ hw₁ _ => ?_)
    split
    · exact hnone _
    · next id s t hfound =>
      split
      · exact hnone _
      · refine houseOk_read _ (fun w₂ _ hw₂ => ?_)
        split
        · exact hnone _
        · obtain ⟨hrow, htoken⟩ := sessionByToken_spec hfound
          have hsaw : SawActive ((v.push ⟨.query (fun w => w.sessionByToken token), w₁, w₁⟩).push
              ⟨.query (fun w => w.now), w₂, w₂⟩) (some token)
              ⟨id, s.venueId, s.tableId, t.code, t.name, s.visitId⟩ :=
            ⟨_, List.mem_cons_of_mem _ List.mem_cons_self, s, hrow, congrArg some htoken.symm, rfl,
              rfl, rfl, hw₁, hw₂⟩
          split
          · exact hnone _
          · split
            · exact hnone _
            · split
              · exact hnone _
              · split
                · refine houseOk_perform (fun w _ hw s' hs' => ⟨⟨rfl, rfl, rfl, .inl rfl, rfl, rfl,
                    fun h => h⟩, ?_⟩) (fun c w w' _ _ _ hkept _ => ?_)
                  · obtain ⟨s₀, hcookie, _⟩ := hsaw.cookie
                    have hsame := (hw₂.trans hw).sessions.same hrow hs'
                    rw [hsame.addr]
                    exact hown _ id s ⟨_, List.mem_cons_of_mem _ List.mem_cons_self, hrow,
                      congrArg some htoken.symm⟩
                  · refine houseOk_ret ?_
                    rintro _ ⟨⟩
                    exact hsaw.extend (List.suffix_cons _ _) hkept
                · exact houseOk_ret (fun session h => by cases h; exact hsaw)

/-- What the request may touch from here on. -/
abbrev May (r : HouseRequest) (v : View api World) (M : Kind → Addr → Prop) : Prop :=
  ∀ past k a, v.past <:+ past → M k a → r.mayTouch past k a

/-- Whatever the phone's session is now, it is at the same table of the same venue. -/
theorem SawActive.now {cookie : Option ℕ} {session : ActiveSession} {w : World} {s : TableSession}
    (h : SawActive v cookie session) (hw : Kept v.since w)
    (hs : w.tableSessions.get? session.id = some s) :
    s.tableId = session.tableId ∧ s.venueId = session.venueId := by
  obtain ⟨e, _, s₀, hs₀, _, hvenue, htable, _, _, hkept⟩ := h
  have hsame := (hkept.trans hw).sessions.same hs₀ hs
  exact ⟨hsame.tableId.trans htable, hsame.venueId.trans hvenue⟩

/-- So is its visit. -/
theorem SawActive.visitNow {cookie : Option ℕ} {session : ActiveSession} {w : World} {visitId : Id}
    {visit : TableVisit} (h : SawActive v cookie session) (hw : Kept v.since w)
    (hvisit : session.visitId = some visitId) (hget : w.tableVisits.get? visitId = some visit) :
    visit.tableId = session.tableId := by
  obtain ⟨e, _, s₀, hs₀, _, _, htable, hv₀, hcoherent, hkept⟩ := h
  obtain ⟨visit₀, hget₀, hat⟩ := (hcoherent.sessions _ s₀ hs₀).2 visitId (hv₀.trans hvisit)
  exact ((hkept.trans hw).visits.same hget₀ hget).tableId.trans (hat.trans htable)

/-! ## Orders -/

/-- The order is the session's, from here on. -/
def OrderOf (v : View api World) (session : ActiveSession) (id : Id) : Prop :=
  ∀ w, Kept v.since w → ∃ o, w.orders.get? id = some o ∧ o.venueId = session.venueId
    ∧ o.sessionId = session.id ∧ o.tableId = session.tableId

theorem OrderOf.of_row {w : World} {session : ActiveSession} {id : Id} {o : Order}
    (ho : w.orders.get? id = some o) (hvenue : o.venueId = session.venueId)
    (hsession : o.sessionId = session.id) (htable : o.tableId = session.tableId)
    (hw : Kept w v.since) : OrderOf v session id := by
  intro w' hw'
  have hkept := hw.trans hw'
  obtain ⟨o', ho', hsame⟩ := hkept.orders.found hkept.ordersStay ho
  exact ⟨o', ho', hsame.venueId.trans hvenue, hsame.sessionId.trans hsession,
    hsame.tableId.trans htable⟩

/-- An order of the session is at the session's table, and the venue's. -/
theorem SawActive.orderOf {cookie : Option ℕ} {session : ActiveSession} {w : World} {id : Id}
    {o : Order} (h : SawActive v cookie session) (hw : Coherent w) (hv : Kept v.since w)
    (ho : w.orders.get? id = some o) (hsession : o.sessionId = session.id) :
    o.venueId = session.venueId ∧ o.tableId = session.tableId := by
  obtain ⟨s, hs, hst, hsv⟩ := (hw.orders id o ho).1
  rw [hsession] at hs
  obtain ⟨htable, hvenue⟩ := h.now hv hs
  exact ⟨hsv.symm.trans hvenue, hst.symm.trans htable⟩

/-- What a phone that orders may touch. -/
abbrev MayOrder (r : HouseRequest) (v : View api World) (session : ActiveSession) : Prop :=
  May r v (fun k a => k ∈ [Kind.session, .order, .item, .news] ∧ a.venue = session.venueId
    ∧ a.table = some session.tableId ∧ a.session = some session.id)

theorem MayOrder.extend {session : ActiveSession} {v' : View api World}
    (h : MayOrder r v session) (hpast : v.past <:+ v'.past) : MayOrder r v' session :=
  fun past k a hv' => h past k a (hpast.trans hv')

section

variable {cookie : Option ℕ} {session : ActiveSession}

/-- **One attempt** inserts an order of the session. -/
theorem createOnce_house {totalKurus : ℤ} {key : Option Text} {items : List NewOrderItem}
    (hsaw : SawActive v cookie session) (hM : MayOrder r v session) :
    HouseOk hmac bcrypt r (fun v' order => OrderOf v' session order.1) v
      (createOnce ⟨session.venueId, session.tableId, session.id, session.visitId, totalKurus, key,
        items⟩) := by
  unfold createOnce
  refine houseOk_read _ (fun w₁ _ hv₁ => ?_)
  refine houseOk_call (fun w _ hw => ⟨fun s hs => hsaw.now (hv₁.trans hw) hs,
    fun visitId visit hvisit hget => hsaw.visitNow (hv₁.trans hw) hvisit hget, fun k hk id => ?_⟩)
    (fun w w' x _ _ _ hx => ?_)
  · refine hM _ _ _ (List.suffix_cons _ _) ⟨?_, rfl, rfl, rfl⟩
    rcases List.mem_cons.mp hk with rfl | hk
    · decide
    · obtain rfl := List.mem_singleton.mp hk
      decide
  · cases x with
    | error e => exact houseOk_raise
    | ok order =>
      rcases hx with ⟨e, he⟩ | ⟨c, hexec⟩
      · cases he
      · rw [exec_orderCreate] at hexec
        rcases orderCreate_cases hexec with h | h
        · obtain ⟨_, e, he⟩ := h
          cases he
        · obtain ⟨rfl, horder, _⟩ := h
          cases horder
          have hrow : (w.insertOrder (OrderDraft.row ⟨session.venueId, session.tableId, session.id,
              session.visitId, totalKurus, key, items⟩ (w₁.lastNumber session.venueId + 1))
              items).orders.get? w.orders.next = some ⟨session.venueId, session.tableId, session.id,
              session.visitId, w₁.lastNumber session.venueId + 1, .received, none, totalKurus,
              .unpaid, none, key, w.now⟩ := Rows.get?_create_next _ _
          exact houseOk_ret (OrderOf.of_row hrow rfl rfl rfl (Kept.refl _))

/-- **However often it is tried**, the order is the session's, whether new or of the key. -/
theorem createAttempts_house {totalKurus : ℤ} {key : Option Text} {items : List NewOrderItem}
    (n : ℕ) (hsaw : SawActive v cookie session) (hM : MayOrder r v session) :
    HouseOk hmac bcrypt r (fun v' x => ∀ order, x = some order → OrderOf v' session order.1) v
      (createAttempts ⟨session.venueId, session.tableId, session.id, session.visitId, totalKurus,
        key, items⟩ n) := by
  induction n generalizing v with
  | zero => exact houseOk_ret (fun _ h => by cases h)
  | succ n ih =>
    unfold createAttempts
    refine houseOk_bind (houseOk_attempt (createOnce_house hsaw hM)) (fun v₁ result hR hpast hkept => ?_)
    cases result with
    | ok order =>
      refine houseOk_ret (fun order' h => ?_)
      cases h
      exact hR order rfl
    | error err =>
      dsimp only
      split
      · next key' _ _ =>
        unfold readBack
        refine houseOk_read _ (fun w hw hv => ?_)
        split
        · exact houseOk_raise
        · next order hfound =>
          refine houseOk_ret (fun order' h => ?_)
          cases h
          obtain ⟨row, hrow, rfl⟩ := Option.map_eq_some_iff.mp hfound
          obtain ⟨ho, hp⟩ := Rows.find?_eq_some hrow
          have hsession := beq_iff_eq.mp (Bool.and_eq_true_iff.mp hp).1
          obtain ⟨hvenue, htable⟩ := hsaw.orderOf hw (hkept.trans hv) ho hsession
          exact OrderOf.of_row ho hvenue hsession htable (Kept.refl w)
      · split
        · split
          · exact houseOk_ret (fun _ h => by cases h)
          · exact ih (hsaw.extend hpast hkept) (hM.extend hpast)
        · exact houseOk_raise

/-- A row of the ledger, and the answer. -/
theorem logged_house {α : Type} {a : α} (caller : Caller) (outcome : AttemptOutcome)
    (extra : AttemptInfo) : HouseOk hmac bcrypt r (fun _ _ => True) v
      ((logAttempt caller outcome extra).bind (fun _ => .ret a)) :=
  houseOk_bind (houseOk_aside (logAttempt_aside caller outcome extra))
    (fun _ _ _ _ _ => houseOk_ret trivial)

theorem submit_house {caller : Caller} {body : OrderBody} {totalKurus : ℤ}
    {items : List NewOrderItem} (hsaw : SawActive v cookie session) (hM : MayOrder r v session) :
    HouseOk hmac bcrypt r (fun _ _ => True) v (submit caller session body totalKurus items) := by
  unfold submit createOrderWithNextNumber
  refine houseOk_bind (createAttempts_house _ hsaw hM) (fun v₁ order horder hpast₁ _ => ?_)
  cases order with
  | none => exact logged_house _ _ _
  | some order =>
    refine houseOk_bind (houseOk_aside (logAttempt_aside _ _ _)) (fun v₂ _ _ hpast₂ hkept₂ => ?_)
    refine houseOk_perform (fun w _ hw => ⟨horder order rfl w (hkept₂.trans hw), ?_⟩)
      (fun _ _ _ _ _ _ _ _ => houseOk_ret trivial)
    exact hM _ _ _ (hpast₁.trans hpast₂) ⟨by decide, rfl, rfl, rfl⟩

theorem place_house {caller : Caller} {body : OrderBody} (hsaw : SawActive v cookie session)
    (hM : MayOrder r v session) :
    HouseOk hmac bcrypt r (fun _ _ => True) v (place caller session body) := by
  unfold place
  refine houseOk_read _ (fun w₁ _ hv₁ => ?_)
  refine houseOk_read _ (fun w₂ _ hv₂ => ?_)
  split
  · exact logged_house _ _ _
  · refine houseOk_read _ (fun w₃ _ hv₃ => ?_)
    split
    · next refusal _ =>
      cases refusal with
      | item_unavailable itemId => exact logged_house _ _ _
      | unknown_option => exact logged_house _ _ _
      | invalid_modifiers groupId => exact houseOk_ret trivial
    · have hpast : ∀ es : List (Event api World), v.past <:+ es ++ v.past :=
        fun es => List.suffix_append es _
      exact submit_house (hsaw.extend (hpast [_, _, _]) (hv₁.trans (hv₂.trans hv₃)))
        (hM.extend (hpast [_, _, _]))

theorem answerOrder_house {req : OrderRequest} (hsaw : SawActive v cookie session)
    (hM : MayOrder r v session) :
    HouseOk hmac bcrypt r (fun _ _ => True) v (answerOrder req session) := by
  unfold answerOrder
  split
  · exact logged_house _ _ _
  · next body _ =>
    have hreplayed : HouseOk hmac bcrypt r (fun _ _ => True) v
        (replayed session.id body.idempotencyKey) := by
      unfold replayed
      split
      · exact houseOk_ret trivial
      · exact houseOk_last (fun _ _ _ => trivial)
    refine houseOk_bind hreplayed (fun v₁ existing _ hpast hkept => ?_)
    cases existing with
    | none => exact place_house (hsaw.extend hpast hkept) (hM.extend hpast)
    | some order => exact houseOk_ret trivial

end

/-- **A phone's order** is its own session's. -/
theorem postOrder_house {req : OrderRequest}
    (hmay : ∀ past k a, PhoneMay past req.cookie [.session, .order, .item, .news] [] k a →
      r.mayTouch past k a) :
    HouseOk hmac bcrypt r (fun _ _ => True) v (postOrder req) := by
  unfold postOrder
  refine houseOk_bind (getActiveSession_house none (fun past id s hs =>
    hmay past _ _ ⟨id, s, hs, rfl, rfl, .inl ⟨by decide, rfl⟩⟩)) (fun v₁ found hfound _ _ => ?_)
  cases found with
  | none =>
    show HouseOk _ _ _ _ _ (if _ then _ else _)
    split
    · exact logged_house _ _ _
    · exact houseOk_ret trivial
  | some session =>
    have hsaw := hfound session rfl
    obtain ⟨s, hcookie, hvenue, htable⟩ := hsaw.cookie
    refine answerOrder_house hsaw (fun past k a hpast hM => ?_)
    obtain ⟨hk, hav, hat, has⟩ := hM
    exact hmay past k a ⟨session.id, s, hcookie.mono hpast, hav.trans hvenue.symm,
      hat.trans (congrArg some htable.symm), .inl ⟨hk, has⟩⟩

/-- **A phone withdraws** its own session's orders only. -/
theorem cancelOrder_house {cookie : Option ℕ} {caller : Caller} {id : Id}
    (hmay : ∀ past k a, PhoneMay past cookie [.session, .order, .news] [] k a →
      (k ≠ .session → a.order = some id) → r.mayTouch past k a) :
    HouseOk hmac bcrypt r (fun _ _ => True) v (cancelOrder cookie caller id) := by
  unfold cancelOrder
  refine houseOk_bind (getActiveSession_house none (fun past id s hs =>
    hmay past _ _ ⟨id, s, hs, rfl, rfl, .inl ⟨by decide, rfl⟩⟩ (fun h => absurd rfl h)))
    (fun v₁ found hfound _ _ => ?_)
  cases found with
  | none => exact houseOk_ret trivial
  | some session =>
    have hsaw := hfound session rfl
    obtain ⟨s, hcookie, hvenue, htable⟩ := hsaw.cookie
    refine houseOk_read _ (fun w₁ hw₁ hv₁ => ?_)
    split
    · exact houseOk_ret trivial
    · next order horder =>
      obtain ⟨ho, hown⟩ := Option.filter_eq_some_iff.mp horder
      have hsession : order.sessionId = session.id := beq_iff_eq.mp hown
      obtain ⟨hordervenue, hordertable⟩ := hsaw.orderOf hw₁ hv₁ ho hsession
      split
      · exact houseOk_ret trivial
      · refine houseOk_perform (fun w hw hkept k o hk hp => ?_) (fun _ w w' count _ _ hkept _ => ?_)
        · obtain rfl : k = id := beq_iff_eq.mp (Bool.and_eq_true_iff.mp hp).1
          refine ⟨⟨rfl, rfl, rfl, .inl rfl, rfl, rfl, rfl⟩, ?_⟩
          -- the order was the session's when it was read, and still is
          have hsame := hkept.orders.same ho hk
          refine hmay _ _ _ ⟨session.id, s, hcookie.mono (List.suffix_cons _ _), ?_, ?_,
            .inl ⟨by decide, ?_⟩⟩ (fun _ => rfl)
          · exact hsame.venueId.trans (hordervenue.trans hvenue.symm)
          · exact congrArg some (hsame.tableId.trans (hordertable.trans htable.symm))
          · exact congrArg some (hsame.sessionId.trans hsession)
        · show HouseOk _ _ _ _ _ (if _ then _ else _)
          split
          · exact houseOk_ret trivial
          · refine houseOk_bind (houseOk_aside (logAttempt_aside _ _ _)) (fun v₂ _ _ hpast hv₂ => ?_)
            have hof : OrderOf v₂ session id :=
              OrderOf.of_row ho hordervenue hsession hordertable (hkept.trans hv₂)
            refine houseOk_perform (fun w _ hw => ⟨hof w hw, ?_⟩)
              (fun _ _ _ _ _ _ _ _ => houseOk_ret trivial)
            exact hmay _ _ _ ⟨session.id, s,
              hcookie.mono (List.IsSuffix.trans ⟨[_, _], rfl⟩ hpast), hvenue.symm,
              congrArg some htable.symm, .inl ⟨by decide, rfl⟩⟩ (fun _ => rfl)

/-! ## Bills -/

/-- The visit of a phone is at the phone's table. -/
theorem SawActive.visitAddr {cookie : Option ℕ} {session : ActiveSession} {w : World} {visitId : Id}
    {visit : TableVisit} (h : SawActive v cookie session) (hw : Kept v.since w)
    (hvisit : session.visitId = some visitId)
    (hget : w.visitOf visitId session.venueId = some visit) :
    visit.addr = { venue := session.venueId, table := some session.tableId } := by
  obtain ⟨hrow, hvenue⟩ := Option.filter_eq_some_iff.mp hget
  unfold TableVisit.addr
  rw [h.visitNow hw hvisit hrow, beq_iff_eq.mp hvenue]

/-- **A bill is asked for** at the visit's own table. -/
theorem requestBill_house {visitId venueId : Id}
    (hmay : ∀ w visit, Kept v.since w → w.visitOf visitId venueId = some visit →
      ∀ k ∈ [Kind.visit, .news], May r v (fun k' a => k' = k ∧ a = visit.addr)) :
    HouseOk hmac bcrypt r (fun _ _ => True) v (requestBill visitId venueId) := by
  unfold requestBill
  refine houseOk_read _ (fun w₁ _ hv₁ => ?_)
  split
  · exact houseOk_ret trivial
  · next visit hvisit =>
    obtain ⟨hrow, hvenue⟩ := Option.filter_eq_some_iff.mp hvisit
    obtain rfl : visit.venueId = venueId := beq_iff_eq.mp hvenue
    have hnews : ∀ v' : View api World, v.past <:+ v'.past →
        HouseOk hmac bcrypt r (fun _ _ => True) v'
          ((perform (.publish (.bill_requested visit.venueId visitId visit.tableId))).bind
            (fun _ => .ret true)) := fun v' hpast =>
      houseOk_perform (fun _ _ _ => ⟨trivial,
        hmay w₁ visit hv₁ hvisit .news (by decide) _ _ _ hpast ⟨rfl, rfl⟩⟩)
        (fun _ _ _ _ _ _ _ _ => houseOk_ret trivial)
    split
    · exact houseOk_ret trivial
    · split
      · refine houseOk_perform (fun w _ hw visit' hvisit' => ?_)
          (fun _ _ _ _ _ _ _ _ => hnews _ ⟨[_, _], rfl⟩)
        refine ⟨⟨rfl, rfl, rfl⟩, ?_⟩
        rw [(hw.visits.same hrow hvisit').addr]
        exact hmay w₁ visit hv₁ hvisit .visit (by decide) _ _ _ (List.suffix_cons _ _) ⟨rfl, rfl⟩
      · exact hnews _ (List.suffix_cons _ _)

/-- So is a request dismissed. -/
theorem clearBillRequest_house {visitId venueId : Id}
    (hmay : ∀ w visit, Kept v.since w → w.visitOf visitId venueId = some visit →
      ∀ k ∈ [Kind.visit, .news], May r v (fun k' a => k' = k ∧ a = visit.addr)) :
    HouseOk hmac bcrypt r (fun _ _ => True) v (clearBillRequest visitId venueId) := by
  unfold clearBillRequest
  refine houseOk_read _ (fun w₁ _ hv₁ => ?_)
  split
  · exact houseOk_ret trivial
  · next visit hvisit =>
    obtain ⟨hrow, hvenue⟩ := Option.filter_eq_some_iff.mp hvisit
    obtain rfl : visit.venueId = venueId := beq_iff_eq.mp hvenue
    split
    · exact houseOk_ret trivial
    · refine houseOk_perform (fun w _ hw visit' hvisit' => ?_) (fun _ _ _ _ _ _ _ _ => ?_)
      · refine ⟨⟨rfl, rfl, rfl⟩, ?_⟩
        rw [(hw.visits.same hrow hvisit').addr]
        exact hmay w₁ visit hv₁ hvisit .visit (by decide) _ _ _ (List.suffix_cons _ _) ⟨rfl, rfl⟩
      · exact houseOk_perform (fun _ _ _ => ⟨trivial, hmay w₁ visit hv₁ hvisit .news (by decide) _ _ _
          ⟨[_, _], rfl⟩ ⟨rfl, rfl⟩⟩) (fun _ _ _ _ _ _ _ _ => houseOk_ret trivial)

/-- **A phone asks for the bill** of its own table. -/
theorem postBill_house {cookie : Option ℕ} {caller : Caller}
    (hmay : ∀ past k a, PhoneMay past cookie [.session] [.visit, .news] k a →
      r.mayTouch past k a) :
    HouseOk hmac bcrypt r (fun _ _ => True) v (postBill cookie caller) := by
  unfold postBill
  refine houseOk_bind (getActiveSession_house none (fun past id s hs =>
    hmay past _ _ ⟨id, s, hs, rfl, rfl, .inl ⟨by decide, rfl⟩⟩)) (fun v₁ found hfound _ _ => ?_)
  cases found with
  | none => exact houseOk_ret trivial
  | some session =>
    have hsaw := hfound session rfl
    obtain ⟨s, hcookie, hvenue, htable⟩ := hsaw.cookie
    dsimp only
    split
    · exact houseOk_ret trivial
    · next visitId hvisitId =>
      refine houseOk_bind (requestBill_house (fun w visit hw hvisit k hk => ?_)) (fun v₂ ok _ _ _ => ?_)
      · rintro past k' _ hpast ⟨rfl, rfl⟩
        rw [hsaw.visitAddr hw hvisitId hvisit]
        exact hmay past k' _ ⟨session.id, s, hcookie.mono hpast, hvenue.symm,
          congrArg some htable.symm, .inr hk⟩
      · show HouseOk _ _ _ _ _ (if _ then _ else _)
        split
        · exact houseOk_ret trivial
        · exact houseOk_bind (houseOk_aside (logAttempt_aside _ _ _))
            (fun _ _ _ _ _ => houseOk_ret trivial)

/-- A phone that looks stamps its session. -/
theorem getBill_house {cookie : Option ℕ}
    (hmay : ∀ past k a, PhoneMay past cookie [.session] [] k a → r.mayTouch past k a) :
    HouseOk hmac bcrypt r (fun _ _ => True) v (getBill cookie) := by
  unfold getBill
  refine houseOk_bind (getActiveSession_house none (fun past id s hs =>
    hmay past _ _ ⟨id, s, hs, rfl, rfl, .inl ⟨by decide, rfl⟩⟩)) (fun v₁ found _ _ _ => ?_)
  cases found with
  | none => exact houseOk_ret trivial
  | some session =>
    dsimp only
    split
    · exact houseOk_ret trivial
    · refine houseOk_read _ (fun w _ _ => ?_)
      split
      · exact houseOk_ret trivial
      · exact houseOk_ret trivial

theorem getCustomerOrders_house {cookie : Option ℕ}
    (hmay : ∀ past k a, PhoneMay past cookie [.session] [] k a → r.mayTouch past k a) :
    HouseOk hmac bcrypt r (fun _ _ => True) v (getCustomerOrders cookie) := by
  unfold getCustomerOrders
  refine houseOk_bind (getActiveSession_house none (fun past id s hs =>
    hmay past _ _ ⟨id, s, hs, rfl, rfl, .inl ⟨by decide, rfl⟩⟩)) (fun v₁ found _ _ _ => ?_)
  cases found with
  | none => exact houseOk_ret trivial
  | some session => exact houseOk_read _ (fun _ _ _ => houseOk_ret trivial)

/-! ## Scans -/

/-- Whatever is under the id from here on is a visit at the table. -/
def VisitAt (v : View api World) (tableId visitId : Id) : Prop :=
  ∀ w visit, Kept v.since w → w.tableVisits.get? visitId = some visit → visit.tableId = tableId

theorem VisitAt.of_row {w : World} {tableId visitId : Id} {visit : TableVisit}
    (hrow : w.tableVisits.get? visitId = some visit) (hat : visit.tableId = tableId)
    (hw : Kept w v.since) : VisitAt v tableId visitId :=
  fun _ _ hv hget => ((hw.trans hv).visits.same hrow hget).tableId.trans hat

/-- Whatever is at the table from here on is the venue's. -/
def TableOf (v : View api World) (tableId venueId : Id) : Prop :=
  ∀ w t, Kept v.since w → w.tables.get? tableId = some t → t.venueId = venueId

theorem TableOf.extend {tableId venueId : Id} {v' : View api World} (h : TableOf v tableId venueId)
    (hv : Kept v.since v'.since) : TableOf v' tableId venueId :=
  fun w t hw ht => h w t (hv.trans hw) ht

theorem TableThere.of {w : World} {tableId venueId venueId' : Id} (h : TableOf v tableId venueId)
    (hw : Kept v.since w) (ht : w.TableThere tableId venueId') : venueId' = venueId := by
  obtain ⟨t, ht, rfl⟩ := ht
  exact h w t hw ht

/-- What a scan may touch: its table's visit and sessions, and the orders of a visit it
discards. -/
abbrev MayAt (r : HouseRequest) (v : View api World) (tableId venueId : Id) : Prop :=
  May r v (fun k a => k ∈ [Kind.visit, .session, .order] ∧ a.venue = venueId
    ∧ a.table = some tableId)

theorem MayAt.extend {tableId venueId : Id} {v' : View api World} (h : MayAt r v tableId venueId)
    (hpast : v.past <:+ v'.past) : MayAt r v' tableId venueId :=
  fun past k a hv' => h past k a (hpast.trans hv')

/-- **A scan sits down** at a visit of its table. -/
theorem openOrJoinVisit_house {tableId venueId : Id} (htable : TableOf v tableId venueId)
    (hmay : MayAt r v tableId venueId) :
    HouseOk hmac bcrypt r (fun v' visitId => VisitAt v' tableId visitId) v
      (openOrJoinVisit tableId venueId) := by
  have hopen : ∀ {w : World} {row : Id × TableVisit}, row ∈ w.openVisitsOf tableId →
      w.tableVisits.get? row.1 = some row.2 ∧ row.2.tableId = tableId := fun hrow => by
    obtain ⟨hget, hp⟩ := Rows.mem_filter.mp hrow
    exact ⟨hget, beq_iff_eq.mp (Bool.and_eq_true_iff.mp hp).1⟩
  unfold openOrJoinVisit
  refine houseOk_read _ (fun w₁ hw₁ hv₁ => ?_)
  split
  · next id hid =>
    obtain ⟨row, hrow, rfl⟩ := Option.map_eq_some_iff.mp hid
    obtain ⟨hget, hat⟩ := hopen ((orderByDesc_perm _ _).mem_iff.mp (List.mem_of_head? hrow))
    exact houseOk_ret (VisitAt.of_row hget hat (Kept.refl w₁))
  · refine houseOk_perform (fun w _ hw => ⟨fun t ht => htable w t (hv₁.trans hw) ht,
      hmay _ _ _ (List.suffix_cons _ _) ⟨by decide, rfl, rfl⟩⟩)
      (fun c w₂ w₂' created hw₂ hv₂ hv₂' hexec => ?_)
    -- the visit is there when it has been opened, and stays where it is
    have hcreated : w₂'.tableVisits.get? created = some ⟨venueId, tableId, .opened, w₂.now, none,
        none, none, none, none, none, none⟩ := by
      cases hexec
      exact Rows.get?_create_next _ _
    refine houseOk_read _ (fun w₃ hw₃ hv₃ => ?_)
    split
    · next oldest second rest hlist =>
      split
      · exact houseOk_ret (VisitAt.of_row hcreated rfl hv₃)
      · have holdest : oldest ∈ (orderBy (fun v => v.2.openedAt) (w₃.openVisitsOf tableId)).map
            Prod.fst := hlist ▸ List.mem_cons_self
        obtain ⟨row, hrow, rfl⟩ := List.mem_map.mp holdest
        obtain ⟨hget, hat⟩ := hopen ((orderBy_perm _ _).mem_iff.mp hrow)
        refine houseOk_bind (houseOk_attempt (houseOk_last (fun w hw hv visit hvisit => ?_)))
          (fun v' _ _ _ hkept => houseOk_ret (VisitAt.of_row hget hat hkept))
        have hsame := (hv₃.trans hv).visits.same hcreated hvisit
        intro k hk session order
        refine hmay _ _ _ ⟨[_, _, _], rfl⟩ ⟨hk, hsame.venueId, congrArg some hsame.tableId⟩
    · exact houseOk_ret (VisitAt.of_row hcreated rfl hv₃)

/-- **A scan mints a session**, at a visit of its table. -/
theorem mintSession_house {tableId venueId : Id} {token : ℕ} (htable : TableOf v tableId venueId)
    (hmay : MayAt r v tableId venueId) :
    HouseOk hmac bcrypt r (fun _ _ => True) v (mintSession tableId venueId token) := by
  unfold mintSession
  refine houseOk_bind (openOrJoinVisit_house htable hmay) (fun v₁ visitId hvisit hpast₁ hv₁ => ?_)
  refine houseOk_perform (fun w _ hw => ⟨fun t ht => htable w t (hv₁.trans hw) ht,
    fun visit hget => hvisit w visit hw hget, fun id => hmay _ _ _ hpast₁ ⟨by decide, rfl, rfl⟩⟩)
    (fun _ w₂ w₂' _ _ _ hv₂ _ => ?_)
  refine houseOk_read _ (fun w₃ hw₃ hv₃ => ?_)
  split
  · refine houseOk_perform (fun w hw hv id s hs hid => ⟨SessionKept.revoke w.now s, ?_⟩)
      (fun _ _ _ _ _ _ _ _ => houseOk_ret trivial)
    -- the session was at the table when the scan listed it, and still is
    obtain ⟨row, hrow, rfl⟩ := List.mem_map.mp (List.contains_iff_mem.mp hid)
    obtain ⟨hget, hat, _⟩ := mem_activeSessions.mp
      ((orderByDesc_perm _ _).mem_iff.mp (List.mem_of_mem_drop hrow))
    have hsame := hv.sessions.same hget hs
    have hat' : s.tableId = tableId := hsame.tableId.trans hat
    have hvenue := TableThere.of htable ((hv₁.trans hv₂).trans (hv₃.trans hv))
      (hat' ▸ (hw.sessions row.1 s hs).1)
    exact hmay _ _ _ (hpast₁.trans ⟨[_, _], rfl⟩) ⟨by decide, hvenue, congrArg some hat'⟩
  · exact houseOk_ret trivial

theorem logFailure_aside (caller : Caller) (outcome : AttemptOutcome) (extra : AttemptInfo) :
    (logFailure caller outcome extra).Calls Call.Aside (fun _ => True) := by
  unfold logFailure
  refine Prog.calls_bind (Prog.calls_perform (S := api) trivial) (fun counted _ => ?_)
  split
  · exact logAttempt_aside _ _ _
  · exact trivial

/-- **A scan** touches the table of its code only. -/
theorem getScan_house {req : ScanRequest}
    (hmay : ∀ past k a, k ∈ [Kind.visit, .session, .order] → (∃ e ∈ past, ∃ id t,
      e.before.tables.get? id = some t ∧ t.code = req.code ∧ a.venue = t.venueId
        ∧ a.table = some id) → r.mayTouch past k a) :
    HouseOk hmac bcrypt r (fun _ _ => True) v (req.prog hmac) := by
  have hwall : ∀ {v' : View api World} {p : Api Unit} {a : ScanAnswer},
      p.Calls Call.Aside (fun _ => True) →
      HouseOk hmac bcrypt r (fun _ _ => True) v' (p.bind (fun _ => .ret a)) :=
    fun hp => houseOk_bind (houseOk_aside hp) (fun _ _ _ _ _ => houseOk_ret trivial)
  unfold ScanRequest.prog getScan
  refine houseOk_perform (fun _ _ _ => trivial) (fun _ w₁ w₁' gate _ _ hv₁ _ => ?_)
  cases gate with
  | some log =>
    show HouseOk _ _ _ _ _ (if _ then _ else _)
    split
    · exact hwall (logAttempt_aside _ _ _)
    · exact houseOk_ret trivial
  | none =>
    refine houseOk_read _ (fun w₂ _ hv₂ => ?_)
    split
    · exact hwall (logFailure_aside _ _ _)
    · next id table venue hfound =>
      obtain ⟨hrow, _⟩ := tableByCode_spec hfound
      have hcode := tableByCode_code hfound
      split
      · exact hwall (logFailure_aside _ _ _)
      · split
        · exact hwall (logFailure_aside _ _ _)
        · refine houseOk_perform (fun _ _ _ => trivial) (fun _ w₃ w₃' ok _ _ hv₃ _ => ?_)
          dsimp only
          split
          · exact hwall (logAttempt_aside _ _ _)
          · refine houseOk_bind (mintSession_house
              (fun w t hw ht => ((hv₃.trans hw).tables.same hrow ht).venueId)
              (fun past k a hpast hM => hmay past k a hM.1
                ⟨_, hpast.mem (List.mem_cons_of_mem _ List.mem_cons_self), id, table, hrow, hcode,
                  hM.2.1, hM.2.2⟩)) (fun _ _ _ _ _ => ?_)
            exact hwall (logAttempt_aside _ _ _)

end

end Masadan
