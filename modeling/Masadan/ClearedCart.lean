import Masadan.Phone

/-!
# A cart that is emptied was ordered

The phone empties its cart when it reads a success, and the success names an order. The
server answers a key it has an order under with that order, whatever the body says, and the
phone holds on to its key until a success is read: so the order is of the lines of the
submission that made it, which are those of the submission that is answered only if the cart
was not changed between the two (`cleared_cart`). A line added after an answer that was lost
is gone with the rest (`cleared_cart_fails`).
-/

namespace Masadan

/-! ## The lines of a cart and of an order -/

/-- The line of the order is the line of the cart: the dish, how many, the note, and the
options, by their names and prices. -/
structure World.LineOf (w : World) (l : CartLine) (i : OrderItem) : Prop where
  item : i.itemId = some l.itemId
  qty : (i.qty : ℤ) = l.qty
  note : i.note = l.note
  options : ∃ (dish : MenuItem) (chosen : List (ModifierOption × Id)),
    w.menuItems.get? l.itemId = some dish
      ∧ List.Forall₂ (fun id o => dish.option? id = some o) l.optionIds chosen
      ∧ i.modifiers = chosen.map (fun o => (o.1.nameTr, o.1.priceDeltaKurus))

/-- **The order consists of exactly the lines of the cart.** -/
def World.Consists (w : World) (orderId : Id) (cart : List CartLine) : Prop :=
  (∃ o, w.orders.get? orderId = some o) ∧ List.Forall₂ w.LineOf cart (w.linesOf orderId)

section

variable {w w' : World} {id : Id} {cart cart' : List CartLine}

theorem World.LineOf.congr {l l' : CartLine} {i : OrderItem} (h : w.LineOf l i)
    (hraw : l.raw = l'.raw) : w.LineOf l' i := by
  unfold CartLine.raw at hraw
  obtain ⟨hitem, hqty, hnote, hoptions⟩ := RawLine.mk.inj hraw
  refine ⟨hitem ▸ h.item, hqty ▸ h.qty, Option.some.inj hnote ▸ h.note, ?_⟩
  rw [← hitem, ← Option.some.inj hoptions]
  exact h.options

/-- Carts that are sent alike are alike in an order. -/
theorem World.Consists.congr (h : w.Consists id cart)
    (hraw : cart.map CartLine.raw = cart'.map CartLine.raw) : w.Consists id cart' := by
  obtain ⟨ho, hlines⟩ := h
  refine ⟨ho, ?_⟩
  generalize w.linesOf id = lines at hlines
  induction hlines generalizing cart' with
  | nil =>
    rw [List.map_nil, eq_comm, List.map_eq_nil_iff] at hraw
    rw [hraw]
    exact .nil
  | cons hl _ ih =>
    rw [List.map_cons, eq_comm, List.map_eq_cons_iff] at hraw
    obtain ⟨l', rest, rfl, hl', hrest⟩ := hraw
    exact .cons (hl.congr hl'.symm) (ih hrest.symm)

/-- An order keeps its lines. -/
theorem World.Consists.stays (h : w.Consists id cart) (hstay : OrdersStay w w')
    (hmenu : w'.menuItems = w.menuItems) : w'.Consists id cart := by
  obtain ⟨⟨o, ho⟩, hlines⟩ := h
  obtain ⟨⟨o', ho', _⟩, hsame⟩ := hstay.orders id o ho
  refine ⟨⟨o', ho'⟩, ?_⟩
  rw [hsame]
  exact hlines.imp (fun l i hl => ⟨hl.item, hl.qty, hl.note, by rw [hmenu]; exact hl.options⟩)

/-- **A line as it is priced is the line of the cart.** -/
theorem lineOf_priced {l : CartLine} {item : NewOrderItem} {venueId : Id} {itemIds : List Id}
    (hqty : 1 ≤ l.qty) (h : priceLine (w.menuFor venueId itemIds) l.parsed = .ok item) :
    w.LineOf l (item.row id) := by
  obtain ⟨dish, chosen, hfor, _, hchosen, rfl⟩ := priceLine_ok h
  unfold World.menuFor at hfor
  split at hfor
  · exact ⟨rfl, Int.toNat_of_nonneg (zero_le_one.trans hqty), rfl,
      dish, chosen, (Option.filter_eq_some_iff.mp hfor).1, hchosen, rfl⟩
  · cases hfor

end

namespace PhoneNet

variable {hmac : Hmac} {w₀ : World} {s s' : PhoneNet hmac} {a : PhoneAction}

/-- **Whose order it is**: an order under a key of the phone was made by a submission under
the key, and consists of its cart. -/
theorem Ok.inserter (h : s.Ok w₀) (h₀ : w₀.LinesOfOrders) {x : Submission} (hx : x ∈ s.sent)
    {id : Id} {o : Order} (ho : s.pool.world.orders.get? id = some o)
    (hkey : o.idempotencyKey = some x.key) :
    ∃ (n : ℕ) (y : Submission), s.sent[n]? = some y ∧ y.key = x.key ∧ s.standing n = true
      ∧ s.pool.world.Consists id y.cart := by
  have hnew : w₀.orders.get? id = none := by
    by_contra hsome
    obtain ⟨o₀, ho₀⟩ := Option.ne_none_iff_exists'.mp hsome
    obtain ⟨⟨o', ho', hsame⟩, _⟩ := (placing_rely h.placing.rely).orders id o₀ ho₀
    cases ho.symm.trans ho'
    exact h.unused x hx id o₀ ho₀ (hsame.key.symm.trans hkey)
  obtain ⟨acts, hacts⟩ := h.run
  rw [hacts] at ho
  obtain ⟨i, t, req, data, items, e, ht, hreq, he, hins, hid⟩ := exists_inserter ho hnew
  obtain ⟨⟨o', ho', _, hkey'⟩, hlines, _⟩ := inserted_kept h₀ (List.mem_of_getElem? ht) he hins
  rw [hid] at ho' hlines
  cases ho.symm.trans ho'
  obtain ⟨n, hn⟩ := h.owned i t req (hacts ▸ ht) hreq
  obtain ⟨y, t', caller, zod, budget, hy, ht', hreq'⟩ := h.served n i hn
  rw [hacts] at ht'
  cases ht.symm.trans ht'
  obtain rfl : req = y.request caller zod budget :=
    PhoneRequest.order.inj (hreq.symm.trans hreq')
  obtain ⟨body, hbody, hdata, hpriced⟩ := hins.priced
  obtain ⟨rfl, hqty⟩ := orderSchema_cart hbody
  refine ⟨n, y, hy, ?_, ?_, ?_⟩
  · exact Option.some.inj ((hdata.symm.trans hkey'.symm).trans hkey)
  · -- its program made the insertion
    unfold standing
    rw [hn, hacts]
    dsimp only
    rw [ht]
    refine Bool.or_eq_true_iff.mpr (.inr (List.any_eq_true.mpr ⟨e, he, ?_⟩))
    rw [hins.done, bne_iff_ne]
    exact Nat.succ_ne_self _
  · refine ⟨⟨o, hacts ▸ ho⟩, ?_⟩
    rw [hacts, hlines]
    obtain ⟨new, hnew, _, heach⟩ := priceLines_spec hpriced
    obtain rfl : items = new := hnew
    have hinv := (placing_run hmac w₀ acts).made t (List.mem_of_getElem? ht) e he
    have hmenu : (phoneRun hmac w₀ acts).world.menuItems = e.before.menuItems :=
      (placing_run hmac w₀ acts).inv.1.trans hinv.inv.1.symm
    rw [← menuFor_congr hmenu] at heach
    rw [List.forall₂_map_right_iff]
    exact ((List.forall₂_and_left _ _).mpr ⟨hqty, List.forall₂_map_left_iff.mp heach⟩).imp
      (fun l item hl => lineOf_priced hl.1 hl.2)

/-! ## Carts under one key -/

/-- The cart goes out under a key the phone holds only with the lines that every submission
under it had which is under way or made an order. -/
def sameLines (s : PhoneNet hmac) : PhoneAction → Bool
  | .submit _ => !s.phone.canSubmit || (List.range s.sent.length).all (fun n =>
      (s.sent[n]?).all (fun x => s.phone.idempotencyKey != some x.key || !s.standing n
        || decide (x.cart.map CartLine.raw = s.phone.cart.map CartLine.raw)))
  | _ => true

theorem sameLines_submit {drawn : Text} (h : s.sameLines (.submit drawn) = true)
    (hcan : s.phone.canSubmit = true) {n : ℕ} {x : Submission} (hx : s.sent[n]? = some x)
    (hkey : s.phone.idempotencyKey = some x.key) (hstanding : s.standing n = true) :
    x.cart.map CartLine.raw = s.phone.cart.map CartLine.raw := by
  unfold sameLines at h
  rw [hcan] at h
  have hn := List.all_eq_true.mp h n (List.mem_range.mpr (List.getElem?_eq_some_iff.mp hx).1)
  rw [hx, hkey, hstanding] at hn
  simpa using hn

/-- **Of two submissions under one key**, the earlier is over and made no order, or had the
lines of the later. And a success that is yet to be read names an order of the cart that was
submitted. -/
structure OneCart (s : PhoneNet hmac) : Prop where
  same : ∀ m n x y, m < n → s.sent[m]? = some x → s.sent[n]? = some y → x.key = y.key →
    s.standing m = true → x.cart.map CartLine.raw = y.cart.map CartLine.raw
  read : ∀ n id, (n, id) ∈ s.phone.reading →
    ∃ x, s.sent[n]? = some x ∧ s.pool.world.Consists id x.cart

theorem OneCart.start (w₀ : World) (cookie : Option ℕ) (code : Text)
    (carts : Text → List CartLine) : (start hmac w₀ cookie code carts).OneCart where
  same _ _ _ _ _ hx := nomatch hx
  read _ _ h := absurd h List.not_mem_nil

/-- What was so of a success stays so. -/
theorem OneCart.kept (h : s.OneCart) (hok : s.Ok w₀) (hm : s.Move a s') {n : ℕ} {id : Id}
    (hread : (n, id) ∈ s.phone.reading) :
    ∃ x, s'.sent[n]? = some x ∧ s'.pool.world.Consists id x.cart := by
  obtain ⟨x, hx, hlines⟩ := h.read n id hread
  have hmenu := (hok.move hm).placing.inv.1.trans hok.placing.inv.1.symm
  exact ⟨x, hm.sent hx, hlines.stays (hok.stays hm) hmenu⟩

/-- **A success names an order of the cart that was submitted.** -/
theorem OneCart.succeeded (h : s.OneCart) (hok : s.Ok w₀) (h₀ : w₀.LinesOfOrders) {n : ℕ} {id : Id}
    {number : ℕ} {again : Bool} (hawaited : s.phone.submitting = some n)
    (hresponse : s.response n = some (.ok (.ordered (.ok id number again)))) :
    ∃ x, s.sent[n]? = some x ∧ s.pool.world.Consists id x.cart := by
  unfold response at hresponse
  split at hresponse
  · next i hi =>
    obtain ⟨x, t, caller, zod, budget, hx, ht, hreq⟩ := hok.served n i hi
    have houtcome : t.outcome = some (.ok (.ordered (.ok id number again))) := by
      unfold Sys.Pool.outcome at hresponse
      rw [ht] at hresponse
      exact hresponse
    obtain ⟨acts, hacts⟩ := hok.run
    rw [hacts] at ht
    obtain ⟨_, _, o, ho, hunder, _⟩ :=
      answered_names (List.mem_of_getElem? ht) hreq rfl rfl houtcome
    obtain ⟨m, y, hy, hkey, hstanding, hlines⟩ :=
      hok.inserter h₀ (List.mem_of_getElem? hx) (hacts ▸ ho) hunder.key
    refine ⟨x, hx, ?_⟩
    -- nothing was sent after it
    have hlast := hok.newest n hawaited
    have hm : m < s.sent.length := (List.getElem?_eq_some_iff.mp hy).1
    by_cases hmn : m = n
    · rw [hmn, hx] at hy
      cases hy
      exact hlines
    · exact hlines.congr (h.same m n y x (by omega) hy hx hkey hstanding)
  · cases hresponse
  · cases hresponse

theorem OneCart.move (h : s.OneCart) (hok : s.Ok w₀) (h₀ : w₀.LinesOfOrders)
    (ha : s.sameLines a = true) (hm : s.Move a s') : s'.OneCart := by
  have hread : ∀ n id, (n, id) ∈ s.phone.reading →
      ∃ x, s'.sent[n]? = some x ∧ s'.pool.world.Consists id x.cart := fun n id hr => h.kept hok hm hr
  have hsame : s'.sent = s.sent → ∀ m n x y, m < n → s'.sent[m]? = some x → s'.sent[n]? = some y →
      x.key = y.key → s'.standing m = true → x.cart.map CartLine.raw = y.cart.map CartLine.raw := by
    intro hsent m n x y hmn hx hy hkey hstanding
    rw [hsent] at hx hy
    exact h.same m n x y hmn hx hy hkey (hm.standing hstanding)
  cases hm with
  | kept phone _ _ _ hreading => exact ⟨hsame rfl, fun n id hr => hread n id (hreading hr)⟩
  | dropped phone _ _ _ hreading => exact ⟨hsame rfl, fun n id hr => hread n id (hreading hr)⟩
  | served b _ => exact ⟨hsame rfl, hread⟩
  | delivered n x caller zod budget _ _ => exact ⟨hsame rfl, hread⟩
  | lost n _ _ => exact ⟨hsame rfl, hread⟩
  | succeeded phone n id number again hawaited hresponse _ _ _ hreading =>
    refine ⟨hsame rfl, fun m j hr => ?_⟩
    replace hr : (m, j) ∈ phone.reading := hr
    rw [hreading] at hr
    rcases List.mem_append.mp hr with hr | hr
    · exact hread m j hr
    · cases List.mem_singleton.mp hr
      exact h.succeeded hok h₀ hawaited hresponse
  | submitted drawn key hsubmit hcan hkey =>
    subst hsubmit
    refine ⟨fun m n x y hmn hx hy hxy hstanding => ?_, hread⟩
    replace hx : (s.sent ++ [_])[m]? = some x := hx
    replace hy : (s.sent ++ [_])[n]? = some y := hy
    have hn := (List.getElem?_eq_some_iff.mp hy).1
    rw [List.length_append, List.length_singleton] at hn
    rw [List.getElem?_append_left (by omega)] at hx
    rw [List.getElem?_append] at hy
    split at hy
    · exact h.same m n x y hmn hx hy hxy hstanding
    · -- the later of the two is the one just sent
      obtain rfl : _ = y := List.mem_singleton.mp (List.mem_of_getElem? hy) |>.symm
      rcases hkey with hheld | ⟨_, hnew⟩
      · exact sameLines_submit ha hcan hx (hheld.trans (congrArg some hxy.symm)) hstanding
      · unfold isNew at hnew
        rw [Bool.and_eq_true] at hnew
        have hother := List.all_eq_true.mp hnew.1 x (List.mem_of_getElem? hx)
        rw [hxy, bne_self_eq_false] at hother
        cases hother

/-- **An emptied cart was ordered**: where a cart goes out again under a key only as it went
out before, the success on which the phone empties its cart names an order of exactly the
lines that were submitted. -/
theorem cleared_cart (hmac : Hmac) (w₀ : World) (h₀ : w₀.LinesOfOrders) (cookie : Option ℕ)
    (code : Text) (carts : Text → List CartLine) (acts : List PhoneAction)
    (hm : (start hmac w₀ cookie code carts).Meets sameLines acts = true) (a : PhoneAction)
    (x : Submission) (id : Id)
    (hempties : ((start hmac w₀ cookie code carts).run acts).emptying a = some (x, id)) :
    ((start hmac w₀ cookie code carts).run acts).pool.world.Consists id x.cart := by
  have hI : ((start hmac w₀ cookie code carts).run acts).Ok w₀
      ∧ ((start hmac w₀ cookie code carts).run acts).OneCart :=
    run_induction (fun s : PhoneNet hmac => s.Ok w₀ ∧ s.OneCart)
      (fun s a hs ha => ⟨hs.1.move (s.act_move a), hs.2.move hs.1 h₀ ha (s.act_move a)⟩)
      ⟨.start w₀ cookie code carts, .start w₀ cookie code carts⟩ hm
  cases a with
  | read k =>
    dsimp only [emptying] at hempties
    split at hempties
    · cases hempties
    · next n j hk =>
      obtain ⟨y, hy, hxy⟩ := Option.map_eq_some_iff.mp hempties
      cases hxy
      obtain ⟨y, hy', hlines⟩ := hI.2.read n _ (List.mem_of_getElem? hk)
      cases hy.symm.trans hy'
      exact hlines
  | _ => cases hempties

/-! ### A tea that was added late -/

end PhoneNet

/-- One tea is sent, and what the server answers is lost; a second tea is added, and both
are sent. -/
def lateTea : List PhoneAction :=
  teaSent (text "cart-0001") ++ servedAlone 0
    ++ [.failed, .add tea [] 1, .submit (text "cart-0002")] ++ servedAlone 1 ++ [.answered]

/-- **A tea that is added after an answer was lost is gone with the cart**: the success names
the order of one tea. -/
theorem cleared_cart_fails :
    ¬ ∀ (hmac : Hmac) (w₀ : World), w₀.LinesOfOrders → ∀ (cookie : Option ℕ) (code : Text)
      (carts : Text → List CartLine) (acts : List PhoneAction) (a : PhoneAction) (x : Submission)
      (id : Id), ((PhoneNet.start hmac w₀ cookie code carts).run acts).emptying a = some (x, id) →
      ((PhoneNet.start hmac w₀ cookie code carts).run acts).pool.world.Consists id x.cart := by
  intro h
  have hempties : (phoneAtTable.run lateTea).emptying (.read 0) = some
      (⟨text "cart-0001", some 7, [⟨(0, 0), 0, 1, [], []⟩, ⟨(0, 1), 0, 1, [], []⟩]⟩, 0) := by
    decide +kernel
  obtain ⟨_, hlines⟩ := h _ kitchenOpen (fun id i hi => nomatch hi) (some 7) [] (fun _ => [])
    lateTea (.read 0) _ _ hempties
  have hone : ((phoneAtTable.run lateTea).pool.world.linesOf 0).length = 1 := by decide +kernel
  have hlength := hlines.length_eq
  rw [hone] at hlength
  exact absurd hlength (by decide)

/-- One tea is sent, what the server answers is lost, and it is sent again. -/
def sameTea : List PhoneAction :=
  teaSent (text "cart-0001") ++ servedAlone 0
    ++ [.failed, .submit (text "cart-0002")] ++ servedAlone 1 ++ [.answered]

/-- Sent again as it was, the cart is the order. -/
theorem cleared_cart_retried :
    (phoneAtTable.run sameTea).pool.world.Consists 0 [⟨(0, 0), 0, 1, [], []⟩] := by
  have hmeets : phoneAtTable.Meets PhoneNet.sameLines sameTea = true := by decide +kernel
  have hempties : (phoneAtTable.run sameTea).emptying (.read 0)
      = some (⟨text "cart-0001", some 7, [⟨(0, 0), 0, 1, [], []⟩]⟩, 0) := by
    decide +kernel
  have h := PhoneNet.cleared_cart _ kitchenOpen (fun id i hi => nomatch hi) (some 7) []
    (fun _ => []) sameTea hmeets (.read 0) _ _ hempties
  exact h

end Masadan
