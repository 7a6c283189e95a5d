import Masadan.Phone

/-!
# One cart, one order

While the phone holds a key, all it sends is under that key and one cookie, so the server
makes one order of it. The key is held in the memory of the page, though, and the cart is
not: a page that is loaded anew has the cart and no key, and what it sends then is another
order if the one before went through unnoticed. So the server makes at most one order
between two times the cart is emptied as long as the phone forgets a key only when nothing
that it sent under it can be, or become, an order (`one_order`); and a page that is reloaded
after an answer was lost orders twice (`one_order_fails`).
-/

namespace Masadan

/-- The submission's session has an order under its key. -/
def World.HasOrder (w : World) (x : Submission) : Prop :=
  ∃ sessionId id o, w.sessionOf x.cookie = some sessionId ∧ w.orders.get? id = some o
    ∧ o.Under sessionId x.key

theorem World.HasOrder.stays {w w' : World} {x : Submission} (h : w.HasOrder x)
    (hstay : OrdersStay w w') : w'.HasOrder x := by
  obtain ⟨sessionId, id, o, hsession, ho, hunder⟩ := h
  obtain ⟨⟨o', ho', hsame⟩, _⟩ := hstay.orders id o ho
  exact ⟨sessionId, id, o', hstay.sessions _ _ hsession, ho',
    hsame.session.trans hunder.session, hsame.key.trans hunder.key⟩

/-- What is under one key and cookie has one order. -/
theorem World.HasOrder.congr {w : World} {x y : Submission} (h : w.HasOrder x)
    (hkey : x.key = y.key) (hcookie : x.cookie = y.cookie) : w.HasOrder y := by
  unfold HasOrder at h ⊢
  rw [← hkey, ← hcookie]
  exact h

namespace PhoneNet

variable {hmac : Hmac} {w₀ : World} {s s' : PhoneNet hmac} {a : PhoneAction}

/-! ## What a submission can do -/

/-- The program of the `n`-th submission has made an order. -/
def Made (s : PhoneNet hmac) (n : ℕ) : Prop :=
  ∃ (i : ℕ) (t : (phoneServer hmac).Thread), s.fate n = .served i ∧ s.pool.threads[i]? = some t
    ∧ ∃ e ∈ t.view.past, e.after.orders.next ≠ e.before.orders.next

theorem Made.standing {n : ℕ} (h : s.Made n) : s.standing n = true := by
  obtain ⟨i, t, hi, ht, e, he, hnext⟩ := h
  unfold PhoneNet.standing
  rw [hi]
  dsimp only
  rw [ht]
  exact Bool.or_eq_true_iff.mpr (.inr (List.any_eq_true.mpr ⟨e, he, bne_iff_ne.mpr hnext⟩))

theorem Made.act {n : ℕ} (h : s.Made n) (b : (phoneServer hmac).Action) :
    Made { s with pool := s.pool.act b } n := by
  obtain ⟨i, t, hi, ht, e, he, hnext⟩ := h
  obtain ⟨t', ht', _, _, hpast⟩ := Sys.Pool.act_persists (a := b) phone_kills ht
  exact ⟨i, t', hi, ht', e, hpast.mem he, hnext⟩

/-- What has made an order has made it. -/
theorem Made.move {n : ℕ} (h : s.Made n) (hm : s.Move a s') : s'.Made n := by
  have hother : ∀ {m : ℕ} (f : Fate) (s : PhoneNet hmac), s.Made n → s.fate m = .inFlight →
      (s.setFate m f).Made n := by
    rintro m f s ⟨i, t, hi, ht, he⟩ hfate
    refine ⟨i, t, (if_neg ?_).trans hi, ht, he⟩
    rintro rfl
    cases hfate.symm.trans hi
  cases hm with
  | served b _ => exact h.act b
  | delivered m x caller zod budget _ hfate =>
    exact hother _ _ (h.act _) hfate
  | lost m _ hfate => exact hother _ _ h hfate
  | _ => exact h

/-- **A step of the server makes no order, or one**: a submission's whose session had none
under its key. -/
theorem Ok.orders_act (h : s.Ok w₀) (b : (phoneServer hmac).Action) :
    (s.pool.act b).world.orders.next = s.pool.world.orders.next
      ∨ (s.pool.act b).world.orders.next = s.pool.world.orders.next + 1
        ∧ ∃ (n : ℕ) (x : Submission), s.sent[n]? = some x ∧ s.standing n = true
          ∧ Made { s with pool := s.pool.act b } n ∧ ¬ s.pool.world.HasOrder x
          ∧ (s.pool.act b).world.HasOrder x := by
  have hcond := (placingProtocol hmac w₀).cond_true (fun _ _ _ _ _ => rfl) s.pool b
  rcases h.placing.act_cases hcond with hsame | ⟨e, rfl, henv⟩
    | ⟨i, c, t, op, k, rfl, ht, hk, _, _, htakes⟩
  · left
    rw [hsame]
  · left
    rw [henv]
    cases e with
    | tick ms => rfl
    | crash => rfl
  · rcases htakes.here with hnone | ⟨req, data, items, hreq, hins⟩
    · exact .inl hnone.next
    · have hafter : (s.pool.act (.step i c)).world = s.pool.world.insertOrder data items :=
        hins.done
      have hnext : (s.pool.act (.step i c)).world.orders.next = s.pool.world.orders.next + 1 := by
        rw [hafter]
        rfl
      obtain ⟨n, hn⟩ := h.owned i t req ht hreq
      obtain ⟨x, t', caller, zod, budget, hx, ht', hreq'⟩ := h.served n i hn
      cases ht.symm.trans ht'
      obtain rfl : req = x.request caller zod budget :=
        PhoneRequest.order.inj (hreq.symm.trans hreq')
      obtain ⟨body, hbody, hdata, _⟩ := hins.priced
      obtain ⟨rfl, _⟩ := orderSchema_cart hbody
      have hsession : s.pool.world.sessionOf x.cookie = some data.sessionId := hins.ofSession
      have hfree : s.pool.world.keyTaken data.sessionId (some x.key) = false := by
        have hkey : data.idempotencyKey = some x.key := hdata
        rw [← hkey]
        exact hins.free
      refine .inr ⟨hnext, n, x, hx, ?_, ?_, ?_, ?_⟩
      · unfold standing
        rw [hn]
        dsimp only
        rw [ht]
        unfold Sys.Thread.outcome
        dsimp only
        rw [hk]
        rfl
      · refine ⟨i, _, hn, Sys.Pool.act_remembers ht hk, _, List.mem_cons_self, ?_⟩
        exact fun hno => Nat.succ_ne_self _ (hnext.symm.trans hno)
      · rintro ⟨sessionId, id, o, hsession', ho, hunder⟩
        cases hsession.symm.trans hsession'
        exact keyTaken_eq_false hfree ho hunder
      · obtain ⟨o, ho, hof, hunder⟩ := get?_insertOrder s.pool.world data items
        rw [hafter]
        exact ⟨data.sessionId, _, o, hsession, ho, ⟨hof, hunder.trans hdata⟩⟩

/-! ## One key at a time -/

/-- The phone holds no key, or all that it sent under it is over and made no order. -/
def nothingStands (s : PhoneNet hmac) : Bool :=
  (List.range s.sent.length).all (fun n =>
    (s.sent[n]?).all (fun x => s.phone.idempotencyKey != some x.key || !s.standing n))

/-- The phone forgets a key only when nothing stands that it sent under it, or to read a
success under it. -/
def forgetsSafely (s : PhoneNet hmac) : PhoneAction → Bool
  | .reload => s.nothingStands
  | .landed i => (s.landing i).isNone || s.nothingStands
  | .read k => (s.phone.reading[k]?).all (fun p =>
      (s.sent[p.1]?).any (fun x => s.phone.idempotencyKey == some x.key) || s.nothingStands)
  | _ => true

theorem nothingStands_iff : s.nothingStands = true ↔ ∀ n x, s.sent[n]? = some x →
    s.phone.idempotencyKey = some x.key → s.standing n = false := by
  unfold nothingStands
  rw [List.all_eq_true]
  constructor
  · intro h n x hx hkey
    have hn := h n (List.mem_range.mpr (List.getElem?_eq_some_iff.mp hx).1)
    rw [hx, hkey] at hn
    simpa using hn
  · intro h n _
    cases hx : s.sent[n]? with
    | none => rfl
    | some x =>
      by_cases hkey : s.phone.idempotencyKey = some x.key
      · rw [Option.all_some, h n x hx hkey]
        exact Bool.or_true _
      · rw [Option.all_some, bne_iff_ne.mpr hkey]
        rfl

/-- **What stands is under the key the phone holds**, or its session has the order already.
Under one key there is one cookie, and a success that is yet to be read is of a submission
whose session has its order. -/
structure OneKey (s : PhoneNet hmac) : Prop where
  cookies : ∀ x ∈ s.sent, ∀ y ∈ s.sent, x.key = y.key → x.cookie = y.cookie
  cookie : ∀ x ∈ s.sent, s.phone.idempotencyKey = some x.key → x.cookie = s.phone.cookie
  gone : ∀ n x, s.sent[n]? = some x → s.standing n = true →
    s.phone.idempotencyKey = some x.key ∨ s.pool.world.HasOrder x
  read : ∀ n id, (n, id) ∈ s.phone.reading →
    ∃ x, s.sent[n]? = some x ∧ s.pool.world.HasOrder x

theorem OneKey.start (w₀ : World) (cookie : Option ℕ) (code : Text)
    (carts : Text → List CartLine) : (start hmac w₀ cookie code carts).OneKey where
  cookies _ hx := absurd hx List.not_mem_nil
  cookie _ hx := absurd hx List.not_mem_nil
  gone _ _ hx := nomatch hx
  read _ _ h := absurd h List.not_mem_nil

/-- A submission that succeeded has its order. -/
theorem Ok.succeeded (h : s.Ok w₀) {n : ℕ} {id : Id} {number : ℕ} {again : Bool}
    (hresponse : s.response n = some (.ok (.ordered (.ok id number again)))) :
    ∃ x, s.sent[n]? = some x ∧ s.pool.world.HasOrder x := by
  unfold response at hresponse
  split at hresponse
  · next i hi =>
    obtain ⟨x, t, caller, zod, budget, hx, ht, hreq⟩ := h.served n i hi
    have houtcome : t.outcome = some (.ok (.ordered (.ok id number again))) := by
      unfold Sys.Pool.outcome at hresponse
      rw [ht] at hresponse
      exact hresponse
    obtain ⟨acts, hacts⟩ := h.run
    rw [hacts] at ht ⊢
    obtain ⟨sessionId, hsession, o, ho, hunder, _⟩ :=
      answered_names (List.mem_of_getElem? ht) hreq rfl rfl houtcome
    exact ⟨x, hx, sessionId, id, o, hsession, ho, hunder⟩
  · cases hresponse
  · cases hresponse

/-- **A key is forgotten** when nothing stands under it, or to empty the cart on the order
there is under it. -/
theorem OneKey.drops (h : s.OneKey) (ha : s.forgetsSafely a = true) (hdrops : s.Drops a) :
    s.nothingStands = true ∨ ∃ y id, s.emptying a = some (y, id) ∧ y ∈ s.sent
      ∧ s.phone.idempotencyKey = some y.key ∧ s.pool.world.HasOrder y := by
  cases hdrops with
  | reload => exact .inl ha
  | landed i hi =>
    rcases Bool.or_eq_true_iff.mp ha with hnone | hn
    · rw [Option.isNone_iff_eq_none] at hnone
      rw [hnone] at hi
      cases hi
    · exact .inl hn
  | read k m id hk =>
    dsimp only [forgetsSafely] at ha
    rw [hk, Option.all_some] at ha
    rcases Bool.or_eq_true_iff.mp ha with hsame | hn
    · right
      obtain ⟨y, hy, hyk⟩ := (Option.any_eq_true _ _).mp hsame
      obtain ⟨y', hy', hhas⟩ := h.read m id (List.mem_of_getElem? hk)
      cases hy.symm.trans hy'
      refine ⟨y, id, ?_, List.mem_of_getElem? hy, beq_iff_eq.mp hyk, hhas⟩
      dsimp only [emptying]
      rw [hk]
      exact congrArg (Option.map _) hy
    · exact .inl hn

/-- What stands under a key that is forgotten is an order already. -/
theorem OneKey.forgotten (h : s.OneKey) (ha : s.forgetsSafely a = true) (hdrops : s.Drops a)
    {n : ℕ} {x : Submission} (hx : s.sent[n]? = some x) (hstanding : s.standing n = true)
    (hkey : s.phone.idempotencyKey = some x.key) : s.pool.world.HasOrder x := by
  rcases h.drops ha hdrops with hn | ⟨y, _, _, hy, hk, hhas⟩
  · rw [nothingStands_iff.mp hn n x hx hkey] at hstanding
    cases hstanding
  · have hkeys : y.key = x.key := Option.some.inj (hk.symm.trans hkey)
    exact hhas.congr hkeys (h.cookies y hy x (List.mem_of_getElem? hx) hkeys)

/-- The cart is sent. -/
theorem OneKey.submitted (h : s.OneKey) {key : Text} (hkey : s.phone.idempotencyKey = some key
    ∨ s.phone.idempotencyKey = none ∧ s.isNew key = true) : (s.send key).OneKey := by
  have hcookie : ∀ x ∈ s.sent, x.key = key → x.cookie = s.phone.cookie := by
    rintro x hx rfl
    rcases hkey with hheld | ⟨_, hnew⟩
    · exact h.cookie x hx hheld
    · unfold isNew at hnew
      rw [Bool.and_eq_true] at hnew
      have hother := List.all_eq_true.mp hnew.1 x hx
      rw [bne_self_eq_false] at hother
      cases hother
  refine ⟨fun x hx y hy hxy => ?_, fun x hx hk => ?_, fun n x hx hs => ?_, fun n id hr => ?_⟩
  · rcases List.mem_append.mp hx with hx | hx
    · rcases List.mem_append.mp hy with hy | hy
      · exact h.cookies x hx y hy hxy
      · rw [List.mem_singleton.mp hy] at hxy ⊢
        exact hcookie x hx hxy
    · rw [List.mem_singleton.mp hx] at hxy ⊢
      rcases List.mem_append.mp hy with hy | hy
      · exact (hcookie y hy hxy.symm).symm
      · rw [List.mem_singleton.mp hy]
  · rcases List.mem_append.mp hx with hx | hx
    · exact hcookie x hx (Option.some.inj hk).symm
    · rw [List.mem_singleton.mp hx]
      rfl
  · replace hx : (s.sent ++ [_])[n]? = some x := hx
    rw [List.getElem?_append] at hx
    split at hx
    · refine (h.gone n x hx hs).imp_left (fun hk => ?_)
      rcases hkey with hheld | ⟨hnone, _⟩
      · exact hheld.symm.trans hk
      · cases hnone.symm.trans hk
    · left
      rw [List.mem_singleton.mp (List.mem_of_getElem? hx)]
      rfl
  · obtain ⟨x, hx, hhas⟩ := h.read n id hr
    refine ⟨x, ?_, hhas⟩
    show (s.sent ++ [_])[n]? = some x
    rw [List.getElem?_append_left (List.getElem?_eq_some_iff.mp hx).1]
    exact hx

theorem OneKey.move (h : s.OneKey) (hok : s.Ok w₀) (ha : s.forgetsSafely a = true)
    (hm : s.Move a s') : s'.OneKey := by
  have hstays := hok.stays hm
  have hread : ∀ n id, (n, id) ∈ s.phone.reading →
      ∃ x, s'.sent[n]? = some x ∧ s'.pool.world.HasOrder x := by
    intro n id hr
    obtain ⟨x, hx, hhas⟩ := h.read n id hr
    exact ⟨x, hm.sent hx, hhas.stays hstays⟩
  have hgone : ∀ n x, s.sent[n]? = some x → s'.standing n = true →
      s.phone.idempotencyKey = some x.key ∨ s'.pool.world.HasOrder x := by
    intro n x hx hstanding
    exact (h.gone n x hx (hm.standing hstanding)).imp_right (fun hhas => hhas.stays hstays)
  cases hm with
  | kept phone hcookie hkey _ hreading =>
    refine ⟨h.cookies, fun x hx hx' => ?_, fun n x hx hs => ?_, fun n id hr => hread n id (hreading hr)⟩
    · exact (h.cookie x hx (hkey.symm.trans hx')).trans hcookie.symm
    · exact (hgone n x hx hs).imp_left (fun hk => hkey.trans hk)
  | succeeded phone n id number again _ hresponse hcookie hkey _ hreading =>
    refine ⟨h.cookies, fun x hx hx' => ?_, fun n x hx hs => ?_, fun m j hr => ?_⟩
    · exact (h.cookie x hx (hkey.symm.trans hx')).trans hcookie.symm
    · exact (hgone n x hx hs).imp_left (fun hk => hkey.trans hk)
    · replace hr : (m, j) ∈ phone.reading := hr
      rw [hreading] at hr
      rcases List.mem_append.mp hr with hr | hr
      · exact hread m j hr
      · cases List.mem_singleton.mp hr
        exact hok.succeeded hresponse
  | dropped phone hdrops hkey _ hreading =>
    refine ⟨h.cookies, fun x hx hx' => ?_, fun n x hx hs => .inr ?_,
      fun n id hr => hread n id (hreading hr)⟩
    · cases hkey.symm.trans hx'
    · rcases h.gone n x hx hs with hkey | hhas
      · exact h.forgotten ha hdrops hx hs hkey
      · exact hhas
  | served b _ => exact ⟨h.cookies, h.cookie, hgone, hread⟩
  | delivered n x caller zod budget _ _ => exact ⟨h.cookies, h.cookie, hgone, hread⟩
  | lost n _ _ => exact ⟨h.cookies, h.cookie, hgone, hread⟩
  | submitted drawn key _ _ hkey => exact h.submitted hkey

/-! ## At most one order -/

/-- No order since there were `n`, or one: of the key the phone holds. -/
def Grown (n : ℕ) (s : PhoneNet hmac) : Prop :=
  s.pool.world.orders.next = n ∨ s.pool.world.orders.next = n + 1
    ∧ ∃ (m : ℕ) (x : Submission), s.sent[m]? = some x ∧ s.phone.idempotencyKey = some x.key
      ∧ s.Made m ∧ s.pool.world.HasOrder x

/-- The server acts, or a request reaches it. -/
theorem Grown.act (h : Grown n s) (hok : s.Ok w₀) (hkey : s.OneKey)
    (b : (phoneServer hmac).Action) : Grown n { s with pool := s.pool.act b } := by
  have hstays := hok.stays_act b
  rcases hok.orders_act b with hnone | ⟨hone, m, x, hx, hs, hmade, hnot, hhas⟩
  · rcases h with hnext | ⟨hnext, m, x, hx, hk, hmade, hhas⟩
    · exact .inl (hnone.trans hnext)
    · exact .inr ⟨hnone.trans hnext, m, x, hx, hk, hmade.act b, hhas.stays hstays⟩
  · -- an order is made under the key that is held
    have hk : s.phone.idempotencyKey = some x.key := (hkey.gone m x hx hs).resolve_right hnot
    rcases h with hnext | ⟨_, m', y, hy, hk', _, hhas'⟩
    · exact .inr ⟨hone.trans (congrArg (· + 1) hnext), m, x, hx, hk, hmade, hhas⟩
    · have hkeys : y.key = x.key := Option.some.inj (hk'.symm.trans hk)
      exact absurd (hhas'.congr hkeys
        (hkey.cookies y (List.mem_of_getElem? hy) x (List.mem_of_getElem? hx) hkeys)) hnot

theorem Grown.move {n : ℕ} (h : Grown n s) (hok : s.Ok w₀) (hkey : s.OneKey)
    (ha : s.forgetsSafely a = true) (hempties : s.emptying a = none) (hm : s.Move a s') :
    Grown n s' := by
  -- unless an order is made, and unless the key is forgotten
  have hsame : s'.pool.world = s.pool.world → (∀ key, s.phone.idempotencyKey = some key →
      s'.phone.idempotencyKey = some key) → Grown n s' := by
    intro hworld hheld
    unfold Grown
    rw [hworld]
    rcases h with hnext | ⟨hnext, m, x, hx, hk, hmade, hhas⟩
    · exact .inl hnext
    · exact .inr ⟨hnext, m, x, hm.sent hx, hheld _ hk, hmade.move hm, hhas⟩
  cases hm with
  | kept phone _ hkeep _ _ => exact hsame rfl (fun _ hk => hkeep.trans hk)
  | succeeded phone m id number again _ _ _ hkeep _ _ =>
    exact hsame rfl (fun _ hk => hkeep.trans hk)
  | submitted drawn key _ _ hnew =>
    refine hsame rfl (fun k hk => ?_)
    rcases hnew with hheld | ⟨hnone, _⟩
    · exact hheld.symm.trans hk
    · cases hnone.symm.trans hk
  | served b _ => exact h.act hok hkey b
  | delivered m x caller zod budget _ _ => exact hsame rfl (fun _ hk => hk)
  | lost m _ _ => exact hsame rfl (fun _ hk => hk)
  | dropped phone hdrops _ _ _ =>
    rcases h with hnext | ⟨_, m, x, hx, hk, hmade, hhas⟩
    · exact .inl hnext
    · -- an order stands under the key, so it is not forgotten
      rcases hkey.drops ha hdrops with hn | ⟨_, _, hsome, _⟩
      · have hover := nothingStands_iff.mp hn m x hx hk
        rw [hmade.standing] at hover
        cases hover
      · rw [hempties] at hsome
        cases hsome

/-- **At most one order between two times the cart is emptied**: where the phone forgets a
key only when nothing stands that it sent under it, what is done without emptying the cart
makes at most one order. -/
theorem one_order (hmac : Hmac) (w₀ : World) (cookie : Option ℕ) (code : Text)
    (carts : Text → List CartLine) (pre acts : List PhoneAction)
    (hpre : (start hmac w₀ cookie code carts).Meets forgetsSafely pre = true)
    (hm : ((start hmac w₀ cookie code carts).run pre).Meets
      (fun s a => s.forgetsSafely a && (s.emptying a).isNone) acts = true) :
    ((start hmac w₀ cookie code carts).run (pre ++ acts)).pool.world.orders.next
      ≤ ((start hmac w₀ cookie code carts).run pre).pool.world.orders.next + 1 := by
  have hI : ((start hmac w₀ cookie code carts).run pre).Ok w₀
      ∧ ((start hmac w₀ cookie code carts).run pre).OneKey :=
    run_induction (fun s : PhoneNet hmac => s.Ok w₀ ∧ s.OneKey)
      (fun s a hs ha => ⟨hs.1.move (s.act_move a), hs.2.move hs.1 ha (s.act_move a)⟩)
      ⟨.start w₀ cookie code carts, .start w₀ cookie code carts⟩ hpre
  rw [run_append]
  generalize (start hmac w₀ cookie code carts).run pre = s at hI hm ⊢
  have hgrown : (s.run acts).Ok w₀ ∧ (s.run acts).OneKey
      ∧ Grown s.pool.world.orders.next (s.run acts) := by
    refine run_induction (fun s' : PhoneNet hmac => s'.Ok w₀ ∧ s'.OneKey
      ∧ Grown s.pool.world.orders.next s') (fun s' a hs ha => ?_) ⟨hI.1, hI.2, .inl rfl⟩ hm
    obtain ⟨hok, hkey, hgrown⟩ := hs
    rw [Bool.and_eq_true, Option.isNone_iff_eq_none] at ha
    exact ⟨hok.move (s'.act_move a), hkey.move hok ha.1 (s'.act_move a),
      hgrown.move hok hkey ha.1 ha.2 (s'.act_move a)⟩
  rcases hgrown.2.2 with hnext | ⟨hnext, _⟩
  · rw [hnext]
    exact Nat.le_succ _
  · rw [hnext]

/-! ### A page that is reloaded -/

end PhoneNet

/-- The cart is changed. -/
def PhoneAction.edits : PhoneAction → Bool
  | .add _ _ _ => true
  | .less _ => true
  | .more _ => true
  | _ => false

/-- The cart is sent, and what the server answers is lost; the page is reloaded, and the cart
is sent again. -/
def teaTwice : List PhoneAction :=
  .submit (text "cart-0001") :: servedAlone 0
    ++ [.failed, .reload, .submit (text "cart-0002")] ++ servedAlone 1

/-- **A page that is reloaded after an answer was lost orders the cart again.** -/
theorem one_order_fails :
    ¬ ∀ (hmac : Hmac) (w₀ : World) (cookie : Option ℕ) (code : Text) (carts : Text → List CartLine)
      (pre acts : List PhoneAction), ((PhoneNet.start hmac w₀ cookie code carts).run pre).Meets
        (fun s a => (s.emptying a).isNone && !a.edits) acts = true →
      ((PhoneNet.start hmac w₀ cookie code carts).run (pre ++ acts)).pool.world.orders.next
        ≤ ((PhoneNet.start hmac w₀ cookie code carts).run pre).pool.world.orders.next + 1 := by
  intro h
  have hmeets : (phoneAtTable.run [.add tea [] 0]).Meets
      (fun s a => (s.emptying a).isNone && !a.edits) teaTwice = true := by
    decide +kernel
  have htwice : (phoneAtTable.run ([.add tea [] 0] ++ teaTwice)).pool.world.orders.next
      = (phoneAtTable.run [.add tea [] 0]).pool.world.orders.next + 2 := by
    decide +kernel
  have hle := h _ kitchenOpen (some 7) [] (fun _ => []) [.add tea [] 0] teaTwice hmeets
  rw [htwice] at hle
  exact absurd hle (by decide)

/-- The cart is sent, what the server answers is lost, and the cart is sent again. -/
def teaRetried : List PhoneAction :=
  .submit (text "cart-0001") :: servedAlone 0
    ++ [.failed, .submit (text "cart-0002")] ++ servedAlone 1

/-- Sent again by the page that sent it, the cart is one order. -/
theorem one_order_retried : (phoneAtTable.run ([.add tea [] 0] ++ teaRetried)).pool.world.orders.next
    ≤ (phoneAtTable.run [.add tea [] 0]).pool.world.orders.next + 1 := by
  have hpre : phoneAtTable.Meets PhoneNet.forgetsSafely [.add tea [] 0] = true := by
    decide +kernel
  have hmeets : (phoneAtTable.run [.add tea [] 0]).Meets
      (fun s a => s.forgetsSafely a && (s.emptying a).isNone) teaRetried = true := by
    decide +kernel
  have h := PhoneNet.one_order _ kitchenOpen (some 7) [] (fun _ => []) [.add tea [] 0] teaRetried
    hpre hmeets
  exact h

end Masadan
