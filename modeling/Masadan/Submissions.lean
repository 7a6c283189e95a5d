import Masadan.Amounts

/-!
# A submission among others

`POST /api/orders` under any protocol. A submission looks its session up, prices its lines
and inserts an order for them, again and again if the number is taken. A protocol that has
nothing against a read has only the insertion to allow, and may do so knowing what the
submission has seen: whose session its cookie is, and what its lines come to. What the
protocol gets for it is that a submission answered with success names an order of its
session under its key.
-/

namespace Masadan

/-! ## Orders under a key -/

/-- The order was submitted by the session under the key. -/
structure Order.Under (sessionId : Id) (key : Text) (o : Order) : Prop where
  session : o.sessionId = sessionId
  key : o.idempotencyKey = some key

/-- The id and the number are those of an order of the session under the key. -/
def World.Names (w : World) (sessionId : Id) (key : Text) (id : Id) (number : ℕ) : Prop :=
  ∃ o, w.orders.get? id = some o ∧ o.Under sessionId key ∧ o.number = number

/-- An insertion that goes through is under a key its session has no order under. -/
theorem keyTaken_eq_false {w : World} {sessionId : Id} {key : Text}
    (h : w.keyTaken sessionId (some key) = false) {id : Id} {o : Order}
    (ho : w.orders.get? id = some o) : ¬ o.Under sessionId key := by
  intro hunder
  have hfind : w.orders.find? (fun _ o => o.sessionId == sessionId
      && o.idempotencyKey == some key) = none := by
    simpa [World.keyTaken] using h
  have hnot := Rows.find?_eq_none hfind ho
  rw [hunder.session, hunder.key] at hnot
  simp at hnot

/-- What the lookup by key finds is the order under the key. -/
theorem orderByKey_names {w : World} {sessionId : Id} {key : Text} {id : Id} {number : ℕ}
    (h : w.orderByKey sessionId key = some (id, number)) : w.Names sessionId key id number := by
  obtain ⟨⟨k, o⟩, hfind, heq⟩ := Option.map_eq_some_iff.mp h
  obtain ⟨ho, hsel⟩ := Rows.find?_eq_some hfind
  cases heq
  rw [Bool.and_eq_true, beq_iff_eq, beq_iff_eq] at hsel
  exact ⟨o, ho, ⟨hsel.1, hsel.2⟩, rfl⟩

theorem orderSchema_key {zod : Zod} {raw : RawOrder} {body : OrderBody}
    (h : orderSchema zod raw = some body) :
    body.idempotencyKey = raw.idempotencyKey := by
  unfold orderSchema at h
  split at h
  · obtain ⟨items, _, rfl⟩ := Option.map_eq_some_iff.mp h
    rfl
  · cases h

/-- The submission has seen the order it names. -/
def Recalls (v : View api World) (sessionId : Id) (key : Text) (id : Id) (number : ℕ) : Prop :=
  ∃ e ∈ v.past, e.after.Names sessionId key id number

theorem Recalls.mono {v v' : View api World} {sessionId : Id} {key : Text} {id : Id} {number : ℕ}
    (h : Recalls v sessionId key id number) (hpast : v.past <:+ v'.past) :
    Recalls v' sessionId key id number := by
  obtain ⟨e, he, hn⟩ := h
  exact ⟨e, hpast.mem he, hn⟩

/-! ## Inserting -/

section

variable {R A : Type} {prog : R → Api A} {external : R → Bool} {background : Job → List R}
  {P : Protocol (server prog external background false)} {r : R} {v : View api World}

/-- **The protocol allows the draft's insertion**, from here on and under whatever
number. -/
def AllowsDraft (P : Protocol (server prog external background false)) (r : R)
    (v : View api World) (draft : OrderDraft) : Prop :=
  ∀ v' w c number w' x, v.past <:+ v'.past → P.Rely v.since v'.since → P.Inv w →
    P.Rely v'.since w →
    P.Guard r v' c (.orderCreate (draft.row number) draft.items) w = true →
    w.orderCreate c (draft.row number) draft.items = (w', x) →
    P.Takes r v' ⟨.orderCreate (draft.row number) draft.items, w, w'⟩

theorem AllowsDraft.extend {draft : OrderDraft} {v' : View api World} (h : AllowsDraft P r v draft)
    (hpast : v.past <:+ v'.past) (hrely : P.Rely v.since v'.since) :
    AllowsDraft P r v' draft :=
  fun v'' w c number w' x hpast' hrely' =>
    h v'' w c number w' x (hpast.trans hpast') (hrely.trans' hrely')

/-- **One attempt**: it inserts the order under the next number, or throws. -/
theorem createOnce_ok (hP : AllowsHarmless P) {draft : OrderDraft} (h : AllowsDraft P r v draft) :
    P.Ok r (fun v' x => ∀ id number, x = .ok (id, number) →
      ∀ key, draft.idempotencyKey = some key → Recalls v' draft.sessionId key id number) v
      (createOnce draft) := by
  unfold createOnce
  refine ok_query hP _ (fun w₁ _ hw₁ => ok_last (fun w c w' x hw hv hg hx => ?_))
  rw [exec_orderCreate] at hx
  refine ⟨h _ w c _ w' x (List.suffix_cons _ _) hw₁ hw hv hg hx, fun id number hid key hdraft => ?_⟩
  rcases orderCreate_cases hx with ⟨_, e, rfl⟩ | ⟨rfl, rfl, _, _⟩
  · cases hid
  · cases hid
    exact ⟨_, List.mem_cons_self, _, (Rows.get?_create w.orders _ _).trans (if_pos rfl),
      ⟨rfl, hdraft⟩, rfl⟩

/-- Reading the winner's order back. -/
theorem readBack_ok (hP : AllowsHarmless P) (sessionId : Id) (key : Text) :
    P.Ok r (fun v' x => ∀ id number, x = .ok (some (id, number)) →
      Recalls v' sessionId key id number) v (readBack sessionId key) := by
  unfold readBack
  refine ok_query hP _ (fun w _ _ => ?_)
  split
  · intro id number h
    cases h
  · next order hfound =>
    intro id number h
    cases h
    exact ⟨_, List.mem_cons_self, orderByKey_names hfound⟩

/-- **The retry loop names an order under the key, or none**, however often it
tries and whichever index refuses it. -/
theorem createAttempts_ok (hP : AllowsHarmless P) {draft : OrderDraft} (n : ℕ)
    (h : AllowsDraft P r v draft) :
    P.Ok r (fun v' x => ∀ id number, x = .ok (some (id, number)) →
      ∀ key, draft.idempotencyKey = some key → Recalls v' draft.sessionId key id number) v
      (createAttempts draft n) := by
  induction n generalizing v with
  | zero =>
    intro id number hx
    cases hx
  | succ n ih =>
    unfold createAttempts
    refine Protocol.ok_bind (Protocol.ok_attempt (Protocol.ok_mono
      (Protocol.ok_extend (createOnce_ok hP h)) (fun v' x hx => ?_)))
    obtain ⟨hx, _, hpast, hrely⟩ := hx
    dsimp only
    split
    · intro id number hid
      cases hid
      exact hx id number rfl
    · split
      · next key _ hdraft =>
        refine Protocol.ok_mono (readBack_ok hP draft.sessionId key) (fun v'' y hy => ?_)
        intro id number hid key' hkey'
        rw [hdraft] at hkey'
        cases hkey'
        exact hy id number hid
      · split
        · split
          · intro id number hid
            cases hid
          · exact ih (h.extend hpast hrely)
        · intro id number hid
          cases hid

/-! ## The route -/

/-- What a submission that is answered with success has seen. -/
abbrev Answers (v : View api World) (sessionId : Id) (key : Option Text)
    (x : Except DbError OrderAnswer) : Prop :=
  ∀ id number again, x = .ok (.ok id number again) →
    ∀ k, key = some k → Recalls v sessionId k id number

/-- The order a priced submission is to insert. -/
def ActiveSession.draft (session : ActiveSession) (body : OrderBody) (totalKurus : ℤ)
    (items : List NewOrderItem) : OrderDraft :=
  ⟨session.venueId, session.tableId, session.id, session.visitId, totalKurus,
    body.idempotencyKey, items⟩

theorem refuse_ok (hP : AllowsHarmless P) (caller : Caller) (base : AttemptInfo)
    (refusal : PriceRefusal) (sessionId : Id) (key : Option Text) :
    P.Ok r (fun v' x => Answers v' sessionId key x) v (refuse caller base refusal) := by
  have hno : ∀ (v' : View api World) (a : OrderAnswer), (∀ id number again,
      a ≠ .ok id number again) → Answers v' sessionId key (.ok a) := by
    intro v' a hne id number again h
    cases h
    exact absurd rfl (hne _ _ _)
  cases refusal with
  | item_unavailable itemId =>
    exact ok_harmless_bind hP (logAttempt_calls _ _ _)
      (fun v' _ _ _ _ => hno v' _ (by simp)) (fun _ _ _ _ _ _ _ h => by cases h)
  | unknown_option =>
    exact ok_harmless_bind hP (logAttempt_calls _ _ _)
      (fun v' _ _ _ _ => hno v' _ (by simp)) (fun _ _ _ _ _ _ _ h => by cases h)
  | invalid_modifiers groupId => exact hno v _ (by simp)

theorem submit_ok (hP : AllowsHarmless P) (caller : Caller) {session : ActiveSession}
    {body : OrderBody} {totalKurus : ℤ} {items : List NewOrderItem}
    (h : AllowsDraft P r v (session.draft body totalKurus items)) :
    P.Ok r (fun v' x => Answers v' session.id body.idempotencyKey x) v
      (submit caller session body totalKurus items) := by
  unfold submit createOrderWithNextNumber
  refine Protocol.ok_bind (Protocol.ok_mono (createAttempts_ok hP NUMBER_RETRIES h)
    (fun v' x hx => ?_))
  cases x with
  | error e =>
    intro id number again h
    cases h
  | ok order =>
    cases order with
    | none =>
      exact ok_harmless_bind hP (logAttempt_calls _ _ _)
        (fun _ _ _ _ _ id number again h => by cases h) (fun _ _ _ _ id number again h => by cases h)
    | some o =>
      obtain ⟨id, number⟩ := o
      refine ok_harmless_bind hP (logAttempt_calls _ _ _) (fun v₁ _ _ hpast₁ _ => ?_)
        (fun _ _ _ _ id number again h => by cases h)
      refine ok_harmless_bind hP (Prog.calls_perform (S := api) trivial)
        (fun v₂ _ _ hpast₂ _ => ?_) (fun _ _ _ _ id number again h => by cases h)
      intro id' number' again h k hk
      cases h
      exact (hx id number rfl k hk).mono (hpast₁.trans hpast₂)

/-- **What a submission has counted**: the orders of its session and of its table, and fewer of
both than there may be. -/
structure CountedOpen (sessionId tableId : Id) (past : List (Event api World)) : Prop where
  session : ∃ e ∈ past, e.op = .query (fun w => w.recentOrders sessionId)
    ∧ e.before.recentOrders sessionId < MAX_ORDERS_PER_SESSION_WINDOW
  table : ∃ e ∈ past, e.op = .query (fun w => w.openOrders tableId)
    ∧ e.before.openOrders tableId < MAX_OPEN_ORDERS_PER_TABLE

theorem CountedOpen.extend {sessionId tableId : Id} {past past' : List (Event api World)}
    (h : CountedOpen sessionId tableId past) (hpast : past <:+ past') :
    CountedOpen sessionId tableId past' where
  session := by
    obtain ⟨e, he, hcount⟩ := h.session
    exact ⟨e, hpast.mem he, hcount⟩
  table := by
    obtain ⟨e, he, hcount⟩ := h.table
    exact ⟨e, hpast.mem he, hcount⟩

/-- What a submission has seen when its lines are priced: its session, the caps open, and the
dishes as they are. -/
structure Admits (P : Protocol (server prog external background false)) (req : OrderRequest)
    (session : ActiveSession) (body : OrderBody) (totalKurus : ℤ) (items : List NewOrderItem)
    (v : View api World) : Prop where
  seen : SawSession P req.cookie session v
  counted : CountedOpen session.id session.tableId v.past
  parsed : req.body.bind (orderSchema req.zod) = some body
  inv : P.Inv v.since
  priced : priceLines (v.since.menuFor session.venueId (body.items.map (fun i => i.itemId)))
    body.items 0 [] = .ok (totalKurus, items)

theorem place_ok (hP : AllowsHarmless P) {req : OrderRequest} {session : ActiveSession}
    {body : OrderBody} (hsession : SawSession P req.cookie session v)
    (hbody : req.body.bind (orderSchema req.zod) = some body)
    (h : ∀ v' totalKurus items, Admits P req session body totalKurus items v' →
      AllowsDraft P r v' (session.draft body totalKurus items)) :
    P.Ok r (fun v' x => Answers v' session.id body.idempotencyKey x) v
      (place req.caller session body) := by
  unfold place
  refine ok_query hP _ (fun w₁ _ hw₁ => ok_query hP _ (fun w₂ _ hw₂ => ?_))
  split
  · exact ok_harmless_bind hP (logAttempt_calls _ _ _)
      (fun _ _ _ _ _ id number again h => by cases h) (fun _ _ _ _ id number again h => by cases h)
  · next hopen =>
    rw [not_or, Nat.not_le, Nat.not_le] at hopen
    refine ok_query hP _ (fun w₃ hw₃ hv₃ => ?_)
    split
    · exact refuse_ok hP req.caller session.base _ session.id body.idempotencyKey
    · next hpriced =>
      refine submit_ok hP req.caller (h _ _ _ ⟨hsession.extend ?_ ?_, ?_, hbody, hw₃, hpriced⟩)
      · exact ((List.suffix_cons _ _).trans (List.suffix_cons _ _)).trans (List.suffix_cons _ _)
      · exact (hw₁.trans' hw₂).trans' hv₃
      · exact ⟨⟨_, List.mem_cons_of_mem _ (List.mem_cons_of_mem _ List.mem_cons_self), rfl, hopen.1⟩,
          ⟨_, List.mem_cons_of_mem _ List.mem_cons_self, rfl, hopen.2⟩⟩

/-- The route from a valid session on: a repeated key is answered with its order. -/
theorem answerOrder_ok (hP : AllowsHarmless P) {req : OrderRequest} {session : ActiveSession}
    {raw : RawOrder} (hraw : req.body = some raw) (hsession : SawSession P req.cookie session v)
    (h : ∀ v' body totalKurus items, Admits P req session body totalKurus items v' →
      AllowsDraft P r v' (session.draft body totalKurus items)) :
    P.Ok r (fun v' x => Answers v' session.id raw.idempotencyKey x) v
      (answerOrder req session) := by
  unfold answerOrder
  split
  · exact ok_harmless_bind hP (logAttempt_calls _ _ _)
      (fun _ _ _ _ _ id number again h => by cases h) (fun _ _ _ _ id number again h => by cases h)
  · next body hbody =>
    have hschema := hbody
    rw [hraw, Option.bind_some] at hschema
    rw [← orderSchema_key hschema]
    cases hkey : body.idempotencyKey with
    | none =>
      -- without a key there is nothing to look up
      refine Protocol.ok_mono (place_ok hP hsession hbody (fun v' => h v' body)) (fun v' x hx => ?_)
      rw [hkey] at hx
      exact hx
    | some key =>
      refine ok_query hP _ (fun w _ hw => ?_)
      split
      · next id number hfound =>
        intro id' number' again hx k hk
        cases hx
        cases hk
        exact ⟨_, List.mem_cons_self, orderByKey_names hfound⟩
      · refine Protocol.ok_mono (place_ok hP (hsession.extend (List.suffix_cons _ _) hw) hbody
          (fun v' => h v' body)) (fun v' x hx => ?_)
        rw [hkey] at hx
        exact hx

/-- **What a submission answered with success has seen**: whose session its cookie is, and
the order it names under that session and its key. -/
def Acknowledged (req : OrderRequest) (v : View api World) (x : Except DbError OrderAnswer) :
    Prop :=
  ∀ raw key, req.body = some raw → raw.idempotencyKey = some key →
    ∀ id number again, x = .ok (.ok id number again) → ∃ sessionId,
      (∃ e ∈ v.past, e.after.sessionOf req.cookie = some sessionId)
      ∧ Recalls v sessionId key id number

/-- **The route**, given that the protocol allows a priced order's insertion. -/
theorem postOrder_acknowledged (hP : AllowsHarmless P) {req : OrderRequest}
    (h : ∀ v' session body totalKurus items, Admits P req session body totalKurus items v' →
      AllowsDraft P r v' (session.draft body totalKurus items)) :
    P.Ok r (Acknowledged req) v (postOrder req) := by
  have hno : ∀ (v' : View api World) (x : Except DbError OrderAnswer),
      (∀ id number again, x ≠ .ok (.ok id number again)) → Acknowledged req v' x :=
    fun v' x hne _ _ _ _ id number again h => absurd h (hne id number again)
  unfold postOrder
  refine Protocol.ok_bind (Protocol.ok_mono (getActiveSession_saw hP req.cookie none)
    (fun v₁ x hx => ?_))
  cases x with
  | error e => exact hno _ _ (by simp)
  | ok found =>
    cases found with
    | none =>
      show P.Ok _ _ _ (if _ then _ else _)
      split
      · exact ok_harmless_bind hP (logAttempt_calls _ _ _)
          (fun _ _ _ _ _ => hno _ _ (by simp)) (fun _ _ _ _ => hno _ _ (by simp))
      · exact hno _ _ (by simp)
    | some session =>
      have hsaw := hx session rfl
      show P.Ok _ _ _ (answerOrder req session)
      cases hbody : req.body with
      | none =>
        unfold answerOrder
        rw [hbody]
        exact ok_harmless_bind hP (logAttempt_calls _ _ _)
          (fun _ _ _ _ _ => hno _ _ (by simp)) (fun _ _ _ _ => hno _ _ (by simp))
      | some raw =>
        obtain ⟨e, he, _, hfirst, _⟩ := hx session rfl
        refine Protocol.ok_mono (Protocol.ok_extend (answerOrder_ok hP hbody hsaw
          (fun v' => h v' session))) (fun v' x hx => ?_)
        obtain ⟨hanswers, _, hpast, _⟩ := hx
        intro raw' key hraw hkey id number again hx
        rw [hbody] at hraw
        cases hraw
        exact ⟨session.id, ⟨e, hpast.mem he, hfirst⟩, hanswers id number again hx key hkey⟩

end

end Masadan
