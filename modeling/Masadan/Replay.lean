import Masadan.OrderTotals
import Masadan.Submissions

/-!
# A submission that is repeated orders once

A double-tap, or a retry after a timeout, submits the same order again under
the same key. The route looks the key up before it does anything; two
submissions that both find nothing are told apart by the unique index on
`(sessionId, idempotencyKey)`, and the one that is refused reads back the order
of the other. A refusal by the other index, on ticket numbers, is tried again
under a fresh number – and may then be refused by the first.

`replay_safe` says that whatever the order of reads, conflicts and retries, one
order is created under a key, and every submission that is answered with
success is answered with that order.
-/

namespace Masadan

/-! ## The requests -/

/-- The server serving `POST /api/orders`. -/
abbrev orderServer : Sys api :=
  server postOrder (fun _ => true) (fun _ => []) false

/-- A run of these requests, from a world. -/
abbrev orderRun (w₀ : World) (acts : List orderServer.Action) : orderServer.Pool :=
  Sys.Pool.run (Sys.Pool.init w₀ : orderServer.Pool) acts

/-- The request carries the key, with the cookie of the session and no other. -/
structure OrderRequest.Carries (w₀ : World) (sessionId : Id) (key : Text)
    (req : OrderRequest) : Prop where
  cookie : ∀ id s, w₀.tableSessions.get? id = some s → req.cookie = some s.token → id = sessionId
  body : ∃ raw, req.body = some raw ∧ raw.idempotencyKey = some key

/-! ## Orders under a key -/

/-- **The unique index**: a session has one order under a key. -/
def KeysUnique (w : World) : Prop :=
  ∀ sessionId key id id' o o', w.orders.get? id = some o → w.orders.get? id' = some o' →
    o.Under sessionId key → o'.Under sessionId key → id = id'

/-- An insertion the index lets through. -/
theorem KeysUnique.insertOrder {w : World} (h : KeysUnique w) {data : NewOrder}
    {items : List NewOrderItem} (hkey : w.keyTaken data.sessionId data.idempotencyKey = false) :
    KeysUnique (w.insertOrder data items) := by
  intro sessionId key id id' o o' ho ho' hunder hunder'
  have hget : (w.orders.create _).get? id = some o := ho
  have hget' : (w.orders.create _).get? id' = some o' := ho'
  rw [Rows.get?_create] at hget hget'
  -- no old order is under the key of the new one
  have hfresh : data.sessionId = sessionId → data.idempotencyKey = some key → ∀ id o,
      w.orders.get? id = some o → ¬ o.Under sessionId key := by
    rintro rfl hk id o ho
    rw [hk] at hkey
    exact keyTaken_eq_false hkey ho
  by_cases hid : id = w.orders.next
  · rw [if_pos hid] at hget
    cases hget
    by_cases hid' : id' = w.orders.next
    · rw [hid, hid']
    · rw [if_neg hid'] at hget'
      exact absurd hunder' (hfresh hunder.session hunder.key id' o' hget')
  · rw [if_neg hid] at hget
    by_cases hid' : id' = w.orders.next
    · rw [if_pos hid'] at hget'
      cases hget'
      exact absurd hunder (hfresh hunder'.session hunder'.key id o hget)
    · rw [if_neg hid'] at hget'
      exact h sessionId key id id' o o' hget hget' hunder hunder'

/-! ## The protocol -/

/-- **What happens to the orders**: they stay as they are, others join them; and no
session appears under a token it did not have. -/
structure OrdersJoin (w w' : World) : Prop where
  orders : ∀ id o, w.orders.get? id = some o → w'.orders.get? id = some o
  sessions : ∀ id s', w'.tableSessions.get? id = some s' →
    ∃ s, w.tableSessions.get? id = some s ∧ s.token = s'.token

theorem OrdersJoin.of_eq {w w' : World} (ho : w'.orders = w.orders)
    (hs : w'.tableSessions = w.tableSessions) : OrdersJoin w w' :=
  ⟨fun _ _ h => ho ▸ h, fun _ s' h => ⟨s', hs ▸ h, rfl⟩⟩

theorem SameRows.ordersJoin {w w' : World} (h : SameRows w w') : OrdersJoin w w' where
  orders id o ho := h.orders ▸ ho
  sessions id s' hs' := by
    obtain ⟨s, hs, heq⟩ := h.tableSessions id s' hs'
    exact ⟨s, hs, by rw [heq]⟩

/-- A key is used once, whatever the submissions do. -/
abbrev replayProtocol : Protocol orderServer where
  Inv := KeysUnique
  Evolves := OrdersJoin
  refl _ := OrdersJoin.of_eq rfl rfl

theorem KeysUnique.congr {w w' : World} (h : KeysUnique w) (ho : w'.orders = w.orders) :
    KeysUnique w' := by
  unfold KeysUnique
  rw [ho]
  exact h

theorem replay_allows : AllowsHarmless replayProtocol :=
  fun _ _ _ _ _ _ h hw => ⟨hw.congr h.orders, h.ordersJoin, trivial⟩

theorem rely_orders {w w' : World} (h : replayProtocol.Rely w w') {id : Id} {o : Order}
    (ho : w.orders.get? id = some o) : w'.orders.get? id = some o :=
  h.stable (D := fun u : World => u.orders.get? id = some o)
    (fun _ _ hstep hu => OrdersJoin.orders hstep id o hu) ho

theorem World.Names.rely {w w' : World} {sessionId : Id} {key : Text} {id : Id} {number : ℕ}
    (hn : w.Names sessionId key id number) (h : replayProtocol.Rely w w') :
    w'.Names sessionId key id number := by
  obtain ⟨o, ho, hunder, hnumber⟩ := hn
  exact ⟨o, rely_orders h ho, hunder, hnumber⟩

/-- A session that is there was there, under its token. -/
theorem rely_token {w w' : World} (h : replayProtocol.Rely w w') {id : Id} {s' : TableSession}
    (hs' : w'.tableSessions.get? id = some s') :
    ∃ s, w.tableSessions.get? id = some s ∧ s.token = s'.token := by
  induction h generalizing s' with
  | refl => exact ⟨s', hs', rfl⟩
  | tail _ hstep ih =>
    obtain ⟨s, hs, htoken⟩ := OrdersJoin.sessions hstep id s' hs'
    obtain ⟨s₀, hs₀, htoken₀⟩ := ih hs
    exact ⟨s₀, hs₀, htoken₀.trans htoken⟩

/-! ## One submission -/

/-- **What a submission answered with success has seen**: a session under its cookie,
and the order it names under that session and its key. -/
def Replied (req : OrderRequest) (v : View api World) (x : Except DbError OrderAnswer) : Prop :=
  ∀ raw key, req.body = some raw → raw.idempotencyKey = some key →
    ∀ id number again, x = .ok (.ok id number again) → ∃ sessionId,
      (∃ e ∈ v.past, ∃ s, e.after.tableSessions.get? sessionId = some s
        ∧ req.cookie = some s.token)
      ∧ Recalls v sessionId key id number

/-- The index refuses a second order under a key. -/
theorem replay_allowsDraft {r : OrderRequest} {v : View api World} (draft : OrderDraft) :
    AllowsDraft replayProtocol r v draft := by
  intro v' w c number w' x _ _ hw _ _ hx
  rcases orderCreate_cases hx with ⟨rfl, _⟩ | ⟨rfl, _, _, hkey⟩
  · exact ⟨hw, OrdersJoin.of_eq rfl rfl, trivial⟩
  · exact ⟨hw.insertOrder hkey,
      ⟨fun _ _ ho => Rows.get?_create_of_some ho, fun _ s hs => ⟨s, hs, rfl⟩⟩, trivial⟩

theorem postOrder_replied {r : OrderRequest} {v : View api World} (req : OrderRequest) :
    replayProtocol.Ok r (Replied req) v (postOrder req) := by
  refine Protocol.ok_mono (postOrder_acknowledged replay_allows
    (fun _ _ _ _ _ _ => replay_allowsDraft _)) (fun v' x hx => ?_)
  intro raw key hraw hkey id number again h
  obtain ⟨sessionId, ⟨e, he, hfirst⟩, hrecalls⟩ := hx raw key hraw hkey id number again h
  exact ⟨sessionId, ⟨e, he, sessionOf_token hfirst⟩, hrecalls⟩

theorem replaySound : replayProtocol.Sound Replied where
  env e w hw := by
    cases e with
    | tick ms => exact ⟨hw.congr rfl, OrdersJoin.of_eq rfl rfl⟩
    | crash => exact ⟨hw, OrdersJoin.of_eq rfl rfl⟩
  entry req w _ := postOrder_replied req

/-- **Submitting again orders once.** In every run, the orders of a session under a key
are one order, at any two moments; and a submission of the key by the session
that is answered with success is answered with that order. -/
theorem replay_safe (w₀ : World) (acts : List orderServer.Action) (h₀ : KeysUnique w₀)
    (sessionId : Id) (key : Text) :
    (∀ pre post, acts = pre ++ post → ∀ id id' o o',
      (orderRun w₀ pre).world.orders.get? id = some o → o.Under sessionId key →
      (orderRun w₀ acts).world.orders.get? id' = some o' → o'.Under sessionId key →
      id = id' ∧ o = o')
    ∧ ∀ req a, req.Carries w₀ sessionId key → (orderRun w₀ acts).Answered req a →
      a.status = 200 → ∃ id number again, a = .ok id number again
        ∧ (orderRun w₀ acts).world.Names sessionId key id number := by
  have hmeets : ∀ acts, Sys.Pool.Meets replayProtocol.cond (Sys.Pool.init w₀) acts = true :=
    fun acts => replayProtocol.meets_cond (fun _ _ _ _ _ => rfl) _ acts
  have hpool := replaySound.run h₀ (hmeets acts)
  constructor
  · rintro pre post rfl id id' o o' ho hunder ho' hunder'
    have hlater := rely_orders (replaySound.run_rely h₀ (hmeets (pre ++ post))) ho
    obtain rfl := hpool.inv sessionId key id id' o o' hlater ho' hunder hunder'
    exact ⟨rfl, Option.some.inj (hlater.symm.trans ho')⟩
  · rintro req a hcarries ⟨t, ht, rfl, hanswer⟩ hstatus
    obtain ⟨raw, hraw, hkey⟩ := hcarries.body
    cases a with
    | ok id number again =>
      obtain ⟨sessionId', ⟨e, he, s, hs, htoken⟩, e', he', hnames⟩ :=
        hpool.post ht hanswer raw key hraw hkey id number again rfl
      -- the session the cookie was of is the one it carries
      have hmade := hpool.made t ht e he
      obtain ⟨s₀, hs₀, htoken₀⟩ :=
        rely_token (hmade.reached.trans' (Protocol.Rely.single hmade.evolves)) hs
      obtain rfl := hcarries.cookie sessionId' s₀ hs₀ (htoken₀ ▸ htoken)
      exact ⟨id, number, again, rfl, hnames.rely (hpool.made t ht e' he').led⟩
    | _ => exact absurd hstatus (by simp [OrderAnswer.status])

/-! ### A double-tap -/

/-- The key of a submission. -/
def tapKey : Text := text "tap-0001"

/-- A submission of two dishes under the key. -/
def tap : OrderRequest :=
  ⟨some 7, ⟨[], []⟩, some ⟨[⟨0, 2, none, none⟩], some tapKey⟩, .plain, true⟩

/-- Two submissions, both past the lookup and with the same number in hand; one is
inserted; the other is refused by the index on numbers, tries the next one, is
refused by the index on keys, and reads the order back. -/
def doubleTap : List orderServer.Action :=
  [.arrive tap, .arrive tap] ++ List.replicate 7 (.step 0 plain) ++ List.replicate 7 (.step 1 plain)
    ++ List.replicate 3 (.step 0 plain) ++ List.replicate 6 (.step 1 ⟨false, true⟩)

/-- The second submission of a double-tap is answered with the one order. -/
theorem replay_safe_doubleTap : (orderRun kitchenOpen doubleTap).outcome 1
      = some (.ok (.ok 0 1 false))
    ∧ (orderRun kitchenOpen doubleTap).world.Names 0 tapKey 0 1 := by
  have hsecond : (orderRun kitchenOpen doubleTap).outcome 1 = some (.ok (.ok 0 1 false)) := by
    decide
  have hunique : KeysUnique kitchenOpen := fun _ _ _ _ _ _ h => by cases h
  have hcarries : tap.Carries kitchenOpen 0 tapKey := by
    refine ⟨fun id s hs _ => ?_, _, rfl, rfl⟩
    have honly : ∀ r ∈ kitchenOpen.tableSessions.rows, r.1 = 0 := by decide
    exact honly (id, s) (Rows.get?_eq_some_iff.mp hs)
  have hreq : ((orderRun kitchenOpen doubleTap).threads[1]?).map (fun t => t.req) = some tap := rfl
  obtain ⟨t, ht, houtcome⟩ := Option.bind_eq_some_iff.mp hsecond
  rw [ht] at hreq
  obtain ⟨id, number, again, hanswer, hnames⟩ :=
    (replay_safe kitchenOpen doubleTap hunique 0 tapKey).2 tap _ hcarries
      ⟨t, List.mem_of_getElem? ht, Option.some.inj hreq, houtcome⟩ rfl
  cases hanswer
  exact ⟨hsecond, hnames⟩

end Masadan
