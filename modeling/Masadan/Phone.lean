import Masadan.OrderTotals
import Masadan.PhoneServer

/-!
# The customer's phone

`CustomerApp.tsx` between the customer and the server. The cart outlives the page, in
`localStorage`; the session is a cookie, which outlives it too; the idempotency key of a
submission is a ref of the page, drawn at the first submission and dropped when a success
is read. What the phone sends may be lost, and so may the answer; the page may be loaded
anew at any time, and a scan that is answered replaces the cookie and loads the page of its
table. Whether the server then shows the menu or the wall is not followed: a page is taken
to show the menu.

`PhoneNet` is the phone, what it has sent and the server, and a run is a list of what
happens to them.
-/

namespace Masadan

/-! ## The phone and the network -/

/-- Where a submission is. -/
inductive Fate where
  | inFlight
  | lost
  /-- The `i`-th program serves it. -/
  | served (i : ℕ)
  deriving DecidableEq, Repr

/-- A submission the phone has sent. -/
structure Submission where
  key : Text
  cookie : Option ℕ
  cart : List CartLine
  deriving DecidableEq

/-- The request a submission is. -/
def Submission.request (x : Submission) (caller : Caller) (zod : Zod)
    (budget : Bool) : OrderRequest :=
  ⟨x.cookie, caller, some (orderBody x.cart x.key), zod, budget⟩

/-- The page, and what outlives it. -/
structure Phone where
  /-- The cookie of the session. -/
  cookie : Option ℕ
  /-- The table whose page it is. -/
  code : Text
  /-- `localStorage`: the cart of each table, written at each change. -/
  carts : Text → List CartLine
  /-- `idempotencyKeyRef`. -/
  idempotencyKey : Option Text
  /-- `submitting`: the submission whose response is awaited. -/
  submitting : Option ℕ
  /-- The successes whose bodies are awaited (`res.json()`), each with the order it names. -/
  reading : List (ℕ × Id)
  /-- `expired` or `settled`: there is nothing to tap on. -/
  expired : Bool

/-- The cart of the page. -/
def Phone.cart (p : Phone) : List CartLine := p.carts p.code

/-- `setCart`. -/
def Phone.setCart (p : Phone) (cart : List CartLine) : Phone :=
  { p with carts := fun code => if code = p.code then cart else p.carts code }

/-- The page of a table is loaded: what it kept in its own memory is gone. -/
def Phone.load (p : Phone) (cookie : Option ℕ) (code : Text) : Phone :=
  ⟨cookie, code, p.carts, none, none, [], false⟩

/-- There is a button to submit with: a cart with something in it, and no submission that
is awaited. -/
def Phone.canSubmit (p : Phone) : Bool :=
  !p.expired && p.submitting.isNone && !p.cart.isEmpty

/-- What `submitOrder` makes of a response to the `n`-th submission. -/
def Phone.respond (p : Phone) (n : ℕ) : Except DbError PhoneAnswer → Phone
  | .ok (.ordered (.ok id _ _)) => { p with submitting := none, reading := p.reading ++ [(n, id)] }
  | .ok (.ordered .no_session) => { p with submitting := none, expired := true }
  | _ => { p with submitting := none }

/-- **The phone, what it sent, and the server.** -/
structure PhoneNet (hmac : Hmac) where
  pool : (phoneServer hmac).Pool
  phone : Phone
  sent : List Submission
  /-- Where the `n`-th submission is. -/
  fate : ℕ → Fate

/-- What happens next. -/
inductive PhoneAction where
  /-- `onAdd`: a dish is put together on its sheet, and added. -/
  | add (item : MenuItemView) (taps : List SheetTap) (now : Time)
  | less (key : Id × Time)
  | more (key : Id × Time)
  /-- `submitOrder`. `drawn` is what `newIdempotencyKey` gives. -/
  | submit (drawn : Text)
  /-- A submission reaches the server. -/
  | deliver (n : ℕ) (caller : Caller) (zod : Zod) (budget : Bool)
  /-- It never will. -/
  | lose (n : ℕ)
  /-- A call of a handler is answered. -/
  | serve (i : ℕ) (c : Choice)
  | env (e : Disturbance)
  /-- The response to the submission awaited is there. -/
  | answered
  /-- It is lost, or the submission was: `fetch` throws. -/
  | failed
  /-- The body of a success is there. -/
  | read (k : ℕ)
  /-- The body is lost: `res.json()` throws. -/
  | unread (k : ℕ)
  /-- The session is found revoked or expired by another request, or the table settled. -/
  | wall
  | reload
  /-- The code on the table is scanned. `token` is what the server draws for the session. -/
  | scan (caller : Caller) (code sig : Text) (token : ℕ)
  /-- The answer of the `i`-th program, a scan's, sets the cookie and loads the page. -/
  | landed (i : ℕ)

namespace PhoneNet

variable {hmac : Hmac}

/-- Nothing sent yet. -/
def start (hmac : Hmac) (w₀ : World) (cookie : Option ℕ) (code : Text)
    (carts : Text → List CartLine) : PhoneNet hmac :=
  ⟨Sys.Pool.init w₀, ⟨cookie, code, carts, none, none, [], false⟩, [], fun _ => .inFlight⟩

/-- A key nobody has used: what `crypto.randomUUID` promises. -/
def isNew (s : PhoneNet hmac) (key : Text) : Bool :=
  s.sent.all (fun x => x.key != key)
    && s.pool.world.orders.rows.all (fun o => o.2.idempotencyKey != some key)

/-- The cart is sent under the key. -/
def send (s : PhoneNet hmac) (key : Text) : PhoneNet hmac where
  pool := s.pool
  phone := { s.phone with idempotencyKey := some key, submitting := some s.sent.length }
  sent := s.sent ++ [⟨key, s.phone.cookie, s.phone.cart⟩]
  fate := s.fate

/-- What becomes of the `n`-th submission. -/
def setFate (s : PhoneNet hmac) (n : ℕ) (f : Fate) : PhoneNet hmac :=
  { s with fate := fun m => if m = n then f else s.fate m }

/-- The response to the `n`-th submission, once its program is done. -/
def response (s : PhoneNet hmac) (n : ℕ) : Option (Except DbError PhoneAnswer) :=
  match s.fate n with
  | .served i => s.pool.outcome i
  | .inFlight => none
  | .lost => none

/-- Where the `i`-th program, if it served a scan, sends the phone. -/
def landing (s : PhoneNet hmac) (i : ℕ) : Option (ℕ × Text) :=
  match s.pool.threads[i]? with
  | none => none
  | some t =>
    match t.req, t.outcome with
    | .scan _ code _ _, some (.ok (.scanned (.menu token))) => some (token, code)
    | _, _ => none

/-- **One thing happens.** -/
def act (s : PhoneNet hmac) : PhoneAction → PhoneNet hmac
  | .add item taps now =>
    let sheet := taps.foldl ItemSheet.tap (.ofItem item)
    if !s.phone.expired && sheet.valid then
      { s with phone := s.phone.setCart (s.phone.cart ++ [sheet.line now]) }
    else s
  | .less key =>
    if s.phone.expired then s
    else { s with phone := s.phone.setCart (lessOf key s.phone.cart) }
  | .more key =>
    if s.phone.expired then s
    else { s with phone := s.phone.setCart (moreOf key s.phone.cart) }
  | .submit drawn =>
    if s.phone.canSubmit then
      match s.phone.idempotencyKey with
      | some key => s.send key
      | none => if s.isNew drawn then s.send drawn else s
    else s
  | .deliver n caller zod budget =>
    match s.sent[n]? with
    | none => s
    | some x =>
      if s.fate n = .inFlight then
        setFate { s with
          pool := s.pool.act (.arrive (.order (x.request caller zod budget))) }
          n (.served s.pool.threads.length)
      else s
  | .lose n =>
    if n < s.sent.length ∧ s.fate n = .inFlight then s.setFate n .lost else s
  | .serve i c => { s with pool := s.pool.act (.step i c) }
  | .env e => { s with pool := s.pool.act (.env e) }
  | .answered =>
    match s.phone.submitting with
    | none => s
    | some n =>
      match s.response n with
      | none => s
      | some x => { s with phone := s.phone.respond n x }
  | .failed => { s with phone := { s.phone with submitting := none } }
  | .read k =>
    match s.phone.reading[k]? with
    | none => s
    | some _ =>
      { s with phone := { s.phone with
          idempotencyKey := none, reading := s.phone.reading.eraseIdx k }.setCart [] }
  | .unread k => { s with phone := { s.phone with reading := s.phone.reading.eraseIdx k } }
  | .wall => { s with phone := { s.phone with expired := true } }
  | .reload => { s with phone := s.phone.load s.phone.cookie s.phone.code }
  | .scan caller code sig token =>
    { s with pool := s.pool.act (.arrive (.scan caller code sig token)) }
  | .landed i =>
    match s.landing i with
    | none => s
    | some (token, code) => { s with phone := s.phone.load (some token) code }

/-- A run. -/
def run (s : PhoneNet hmac) (acts : List PhoneAction) : PhoneNet hmac := acts.foldl act s

theorem run_append (s : PhoneNet hmac) (as bs : List PhoneAction) :
    s.run (as ++ bs) = (s.run as).run bs := List.foldl_append

/-- **The submission, and the order, on which the phone empties its cart.** -/
def emptying (s : PhoneNet hmac) : PhoneAction → Option (Submission × Id)
  | .read k =>
    match s.phone.reading[k]? with
    | none => none
    | some (n, id) => (s.sent[n]?).map (fun x => (x, id))
  | _ => none

/-- The `n`-th submission is under way, or has made an order. -/
def standing (s : PhoneNet hmac) (n : ℕ) : Bool :=
  match s.fate n with
  | .inFlight => true
  | .lost => false
  | .served i =>
    match s.pool.threads[i]? with
    | none => true
    | some t => t.outcome.isNone
      || t.view.past.any (fun e => e.after.orders.next != e.before.orders.next)

/-- **Every action of the run meets the condition** in the state it is taken in. -/
def Meets (cond : PhoneNet hmac → PhoneAction → Bool) (s : PhoneNet hmac) :
    List PhoneAction → Bool
  | [] => true
  | a :: as => cond s a && (s.act a).Meets cond as

theorem meets_append {cond : PhoneNet hmac → PhoneAction → Bool} {s : PhoneNet hmac}
    {as bs : List PhoneAction} : s.Meets cond (as ++ bs) = true
      ↔ s.Meets cond as = true ∧ (s.run as).Meets cond bs = true := by
  induction as generalizing s with
  | nil => simp [Meets, run]
  | cons a as ih =>
    rw [List.cons_append, Meets, Bool.and_eq_true, Meets, Bool.and_eq_true, ih, and_assoc]
    rfl

/-- **What one action preserves, a run preserves.** -/
theorem run_induction {cond : PhoneNet hmac → PhoneAction → Bool} (I : PhoneNet hmac → Prop)
    (hstep : ∀ s a, I s → cond s a = true → I (s.act a)) {s : PhoneNet hmac} (hs : I s)
    {as : List PhoneAction} (hm : s.Meets cond as = true) : I (s.run as) := by
  induction as generalizing s with
  | nil => exact hs
  | cons a as ih =>
    rw [Meets, Bool.and_eq_true] at hm
    exact ih (hstep s a hs hm.1) hm.2

/-! ## What an action comes to -/

/-- The action makes the phone drop its key: the page is loaded, or a success is read. -/
inductive Drops (s : PhoneNet hmac) : PhoneAction → Prop where
  | reload : Drops s .reload
  | landed (i : ℕ) (h : (s.landing i).isSome = true) : Drops s (.landed i)
  | read (k n : ℕ) (id : Id) (h : s.phone.reading[k]? = some (n, id)) : Drops s (.read k)

/-- **What an action comes to**, as far as submissions and orders go. -/
inductive Move (s : PhoneNet hmac) (a : PhoneAction) : PhoneNet hmac → Prop where
  /-- The phone alone, and it keeps its key. -/
  | kept (phone : Phone) (hcookie : phone.cookie = s.phone.cookie)
      (hkey : phone.idempotencyKey = s.phone.idempotencyKey)
      (hsubmitting : phone.submitting = none ∨ phone.submitting = s.phone.submitting)
      (hreading : phone.reading ⊆ s.phone.reading) : Move s a { s with phone := phone }
  /-- A success is there, and is yet to be read. -/
  | succeeded (phone : Phone) (n : ℕ) (id : Id) (number : ℕ) (again : Bool)
      (hawaited : s.phone.submitting = some n)
      (hresponse : s.response n = some (.ok (.ordered (.ok id number again))))
      (hcookie : phone.cookie = s.phone.cookie)
      (hkey : phone.idempotencyKey = s.phone.idempotencyKey) (hsubmitting : phone.submitting = none)
      (hreading : phone.reading = s.phone.reading ++ [(n, id)]) : Move s a { s with phone := phone }
  | dropped (phone : Phone) (hdrops : s.Drops a) (hkey : phone.idempotencyKey = none)
      (hsubmitting : phone.submitting = none ∨ phone.submitting = s.phone.submitting)
      (hreading : phone.reading ⊆ s.phone.reading) : Move s a { s with phone := phone }
  /-- The cart is sent, under the key that is held or a new one. -/
  | submitted (drawn key : Text) (ha : a = .submit drawn) (hcan : s.phone.canSubmit = true)
      (hkey : s.phone.idempotencyKey = some key
        ∨ s.phone.idempotencyKey = none ∧ s.isNew key = true) : Move s a (s.send key)
  /-- The server goes on, or a scan reaches it. -/
  | served (b : (phoneServer hmac).Action)
      (hb : ∀ r, b = .arrive r → ∃ caller code sig token, r = .scan caller code sig token) :
      Move s a { s with pool := s.pool.act b }
  | delivered (n : ℕ) (x : Submission) (caller : Caller) (zod : Zod) (budget : Bool)
      (hx : s.sent[n]? = some x) (hfate : s.fate n = .inFlight) :
      Move s a (setFate { s with
        pool := s.pool.act (.arrive (.order (x.request caller zod budget))) }
        n (.served s.pool.threads.length))
  | lost (n : ℕ) (hn : n < s.sent.length) (hfate : s.fate n = .inFlight) :
      Move s a (s.setFate n .lost)

variable {s : PhoneNet hmac}

theorem Move.nothing (a : PhoneAction) : s.Move a s :=
  .kept s.phone rfl rfl (.inr rfl) (List.Subset.refl _)

theorem act_move (s : PhoneNet hmac) (a : PhoneAction) : s.Move a (s.act a) := by
  cases a with
  | add item taps now =>
    dsimp only [act]
    split
    · exact .kept _ rfl rfl (.inr rfl) (List.Subset.refl _)
    · exact .nothing _
  | less key =>
    dsimp only [act]
    split
    · exact .nothing _
    · exact .kept _ rfl rfl (.inr rfl) (List.Subset.refl _)
  | more key =>
    dsimp only [act]
    split
    · exact .nothing _
    · exact .kept _ rfl rfl (.inr rfl) (List.Subset.refl _)
  | submit drawn =>
    dsimp only [act]
    split
    · next hcan =>
      split
      · next key hkey => exact .submitted drawn key rfl hcan (.inl hkey)
      · next hkey =>
        split
        · next hnew => exact .submitted drawn drawn rfl hcan (.inr ⟨hkey, hnew⟩)
        · exact .nothing _
    · exact .nothing _
  | deliver n caller zod budget =>
    dsimp only [act]
    split
    · exact .nothing _
    · next x hx =>
      split
      · next hfate => exact .delivered n x caller zod budget hx hfate
      · exact .nothing _
  | lose n =>
    dsimp only [act]
    split
    · next h => exact .lost n h.1 h.2
    · exact .nothing _
  | serve i c => exact .served _ (fun r hr => by cases hr)
  | env e => exact .served _ (fun r hr => by cases hr)
  | answered =>
    dsimp only [act]
    split
    · exact .nothing _
    · next n hn =>
      split
      · exact .nothing _
      · next x hx =>
        unfold Phone.respond
        split
        · exact .succeeded _ n _ _ _ hn hx rfl rfl rfl rfl
        · exact .kept _ rfl rfl (.inl rfl) (List.Subset.refl _)
        · exact .kept _ rfl rfl (.inl rfl) (List.Subset.refl _)
  | failed => exact .kept _ rfl rfl (.inl rfl) (List.Subset.refl _)
  | read k =>
    dsimp only [act]
    split
    · exact .nothing _
    · next p hp =>
      exact .dropped _ (.read k p.1 p.2 hp) rfl (.inr rfl) (List.eraseIdx_subset)
  | unread k => exact .kept _ rfl rfl (.inr rfl) List.eraseIdx_subset
  | wall => exact .kept _ rfl rfl (.inr rfl) (List.Subset.refl _)
  | reload => exact .dropped _ .reload rfl (.inl rfl) (List.nil_subset _)
  | scan caller code sig token =>
    exact .served _ (fun r hr => ⟨caller, code, sig, token, by cases hr; rfl⟩)
  | landed i =>
    dsimp only [act]
    split
    · exact .nothing _
    · next token code h =>
      exact .dropped _ (.landed i (by rw [h]; rfl)) rfl (.inl rfl) (List.nil_subset _)

/-! ## What is so in every state -/

/-- **The server is that of a run**, and serves what was sent: each submission that is
served by one program, and each program that places an order for one. No order there was is
under a key of the phone, and only the latest submission is awaited. -/
structure Ok (w₀ : World) (s : PhoneNet hmac) : Prop where
  run : ∃ acts, s.pool = phoneRun hmac w₀ acts
  served : ∀ n i, s.fate n = .served i → ∃ (x : Submission) (t : (phoneServer hmac).Thread)
    (caller : Caller) (zod : Zod) (budget : Bool), s.sent[n]? = some x
      ∧ s.pool.threads[i]? = some t ∧ t.req = .order (x.request caller zod budget)
  owned : ∀ (i : ℕ) (t : (phoneServer hmac).Thread) (req : OrderRequest),
    s.pool.threads[i]? = some t → t.req = .order req → ∃ n, s.fate n = .served i
  unused : ∀ x ∈ s.sent, ∀ id o, w₀.orders.get? id = some o → o.idempotencyKey ≠ some x.key
  newest : ∀ n, s.phone.submitting = some n → n + 1 = s.sent.length
  held : ∀ key, s.phone.idempotencyKey = some key → ∃ x ∈ s.sent, x.key = key

variable {w₀ : World} {a : PhoneAction} {s' : PhoneNet hmac}

theorem phone_spawns (op : Call) : (phoneServer hmac).spawns op = [] := by
  cases op with
  | background job => rfl
  | _ => rfl

theorem Ok.start (w₀ : World) (cookie : Option ℕ) (code : Text) (carts : Text → List CartLine) :
    (start hmac w₀ cookie code carts).Ok w₀ where
  run := ⟨[], rfl⟩
  served _ _ h := nomatch h
  owned _ _ _ h := nomatch h
  unused _ hx := absurd hx List.not_mem_nil
  newest _ h := nomatch h
  held _ h := nomatch h

theorem Ok.placing (h : s.Ok w₀) : (placingProtocol hmac w₀).PoolOk PhonePost w₀ s.pool := by
  obtain ⟨acts, hacts⟩ := h.run
  rw [hacts]
  exact placing_run hmac w₀ acts

/-- The server acts. -/
theorem Ok.run_act (h : s.Ok w₀) (b : (phoneServer hmac).Action) :
    ∃ acts, s.pool.act b = phoneRun hmac w₀ acts := by
  obtain ⟨acts, hacts⟩ := h.run
  refine ⟨acts ++ [b], ?_⟩
  show _ = Sys.Pool.run _ (acts ++ [b])
  rw [Sys.Pool.run_concat, hacts]

theorem Ok.stays_act (h : s.Ok w₀) (b : (phoneServer hmac).Action) :
    OrdersStay s.pool.world (s.pool.act b).world :=
  h.placing.act_evolves placingSound ((placingProtocol hmac w₀).cond_true (fun _ _ _ _ _ => rfl) _ _)

/-- What is served stays served by its program. -/
theorem Ok.served_act (h : s.Ok w₀) (b : (phoneServer hmac).Action) {n i : ℕ}
    (hn : s.fate n = .served i) : ∃ (x : Submission) (t : (phoneServer hmac).Thread)
      (caller : Caller) (zod : Zod) (budget : Bool), s.sent[n]? = some x
        ∧ (s.pool.act b).threads[i]? = some t
        ∧ t.req = .order (x.request caller zod budget) := by
  obtain ⟨x, t, caller, zod, budget, hx, ht, hreq⟩ := h.served n i hn
  obtain ⟨t', ht', hreq', _⟩ := Sys.Pool.act_persists (a := b) phone_kills ht
  exact ⟨x, t', caller, zod, budget, hx, ht', hreq'.trans hreq⟩

/-- An order that was there when a key was drawn is not under it. -/
theorem Ok.unused_new (h : s.Ok w₀) {key : Text} (hnew : s.isNew key = true) {id : Id} {o : Order}
    (ho : w₀.orders.get? id = some o) : o.idempotencyKey ≠ some key := by
  intro hkey
  obtain ⟨⟨o', ho', hsame⟩, _⟩ := (placing_rely h.placing.rely).orders id o ho
  unfold isNew at hnew
  rw [Bool.and_eq_true] at hnew
  have hother := List.all_eq_true.mp hnew.2 (id, o') (Rows.get?_eq_some_iff.mp ho')
  dsimp only at hother
  rw [hsame.key, hkey, bne_self_eq_false] at hother
  cases hother

/-- Another state of the phone. -/
theorem Ok.phone (h : s.Ok w₀) {phone : Phone}
    (hkey : phone.idempotencyKey = none ∨ phone.idempotencyKey = s.phone.idempotencyKey)
    (hsubmitting : phone.submitting = none ∨ phone.submitting = s.phone.submitting) :
    PhoneNet.Ok w₀ { s with phone := phone } where
  run := h.run
  served := h.served
  owned := h.owned
  unused := h.unused
  newest n hn := by
    rcases hsubmitting with hnone | hsame
    · cases hnone.symm.trans hn
    · exact h.newest n (hsame.symm.trans hn)
  held key hheld := by
    rcases hkey with hnone | hsame
    · cases hnone.symm.trans hheld
    · exact h.held key (hsame.symm.trans hheld)

/-- The cart is sent. -/
theorem Ok.submitted (h : s.Ok w₀) {key : Text} (hkey : s.phone.idempotencyKey = some key
    ∨ s.phone.idempotencyKey = none ∧ s.isNew key = true) : (s.send key).Ok w₀ where
  run := h.run
  served n i hn := by
    obtain ⟨x, t, caller, zod, budget, hx, ht, hreq⟩ := h.served n i hn
    refine ⟨x, t, caller, zod, budget, ?_, ht, hreq⟩
    show (s.sent ++ _)[n]? = some x
    rw [List.getElem?_append_left (List.getElem?_eq_some_iff.mp hx).1]
    exact hx
  owned := h.owned
  unused x hx id o ho := by
    rcases List.mem_append.mp hx with hx | hx
    · exact h.unused x hx id o ho
    · rw [List.mem_singleton.mp hx]
      rcases hkey with hheld | ⟨_, hnew⟩
      · obtain ⟨y, hy, rfl⟩ := h.held key hheld
        exact h.unused y hy id o ho
      · exact h.unused_new hnew ho
  newest n hn := by
    cases hn
    show _ = (s.sent ++ [_]).length
    rw [List.length_append, List.length_singleton]
  held k hk := by
    cases hk
    exact ⟨_, List.mem_append_right _ (List.mem_singleton.mpr rfl), rfl⟩

/-- A submission reaches the server. -/
theorem Ok.delivered (h : s.Ok w₀) {n : ℕ} {x : Submission} (caller : Caller) (zod : Zod)
    (budget : Bool) (hx : s.sent[n]? = some x) (hfate : s.fate n = .inFlight) :
    (setFate { s with
      pool := s.pool.act (.arrive (.order (x.request caller zod budget))) }
      n (.served s.pool.threads.length)).Ok w₀ where
  run := h.run_act (.arrive (.order (x.request caller zod budget)))
  served m i hm := by
    replace hm : (if m = n then Fate.served s.pool.threads.length else s.fate m) = .served i := hm
    split at hm
    · next hmn =>
      obtain rfl : s.pool.threads.length = i := Fate.served.inj hm
      exact ⟨x, _, caller, zod, budget, hmn ▸ hx, List.getElem?_concat_length, rfl⟩
    · exact h.served_act _ hm
  owned i t req ht hreq := by
    rcases Sys.Pool.act_place phone_spawns ht with ⟨t₀, ht₀, hreq₀⟩ | ⟨_, rfl⟩
    · obtain ⟨m, hm⟩ := h.owned i t₀ req ht₀ (hreq₀.trans hreq)
      refine ⟨m, (if_neg ?_).trans hm⟩
      rintro rfl
      cases hfate.symm.trans hm
    · exact ⟨n, if_pos rfl⟩
  unused := h.unused
  newest := h.newest
  held := h.held

/-- A submission is lost. -/
theorem Ok.lost (h : s.Ok w₀) {n : ℕ} (hfate : s.fate n = .inFlight) :
    (s.setFate n .lost).Ok w₀ where
  run := h.run
  served m i hm := by
    replace hm : (if m = n then Fate.lost else s.fate m) = .served i := hm
    split at hm
    · cases hm
    · exact h.served m i hm
  owned i t req ht hreq := by
    obtain ⟨m, hm⟩ := h.owned i t req ht hreq
    refine ⟨m, (if_neg ?_).trans hm⟩
    rintro rfl
    cases hfate.symm.trans hm
  unused := h.unused
  newest := h.newest
  held := h.held

/-- **Every action keeps it.** -/
theorem Ok.move (h : s.Ok w₀) (hm : s.Move a s') : s'.Ok w₀ := by
  cases hm with
  | kept phone _ hkey hsubmitting _ => exact h.phone (.inr hkey) hsubmitting
  | succeeded phone n id number again _ _ _ hkey hsubmitting _ =>
    exact h.phone (.inr hkey) (.inl hsubmitting)
  | dropped phone _ hkey hsubmitting _ => exact h.phone (.inl hkey) hsubmitting
  | submitted drawn key _ _ hkey => exact h.submitted hkey
  | served b hb =>
    refine ⟨h.run_act b, fun n i hn => h.served_act b hn, fun i t req ht hreq => ?_, h.unused,
      h.newest, h.held⟩
    rcases Sys.Pool.act_place phone_spawns ht with ⟨t₀, ht₀, hreq₀⟩ | ⟨rfl, _⟩
    · exact h.owned i t₀ req ht₀ (hreq₀.trans hreq)
    · obtain ⟨_, _, _, _, hscan⟩ := hb _ rfl
      cases hreq.symm.trans hscan
  | delivered n x caller zod budget hx hfate =>
    exact h.delivered caller zod budget hx hfate
  | lost n _ hfate => exact h.lost hfate

/-! ## What stays -/

/-- Orders stay, with their lines. -/
theorem Ok.stays (h : s.Ok w₀) (hm : s.Move a s') : OrdersStay s.pool.world s'.pool.world := by
  cases hm with
  | served b _ => exact h.stays_act b
  | delivered n x caller zod budget _ _ => exact h.stays_act _
  | _ => exact .of_eq rfl rfl rfl

/-- What was sent was sent. -/
theorem Move.sent (hm : s.Move a s') {n : ℕ} {x : Submission} (hx : s.sent[n]? = some x) :
    s'.sent[n]? = some x := by
  cases hm with
  | submitted drawn key _ _ _ =>
    show (s.sent ++ _)[n]? = some x
    rw [List.getElem?_append_left (List.getElem?_eq_some_iff.mp hx).1]
    exact hx
  | _ => exact hx

/-- What becomes of one submission is nothing to the others. -/
theorem standing_setFate (s : PhoneNet hmac) {m n : ℕ} (f : Fate) (h : n ≠ m) :
    (s.setFate m f).standing n = s.standing n := by
  have hfate : (s.setFate m f).fate n = s.fate n := if_neg h
  unfold standing
  rw [hfate]
  rfl

/-- The programs go on. -/
theorem standing_act (b : (phoneServer hmac).Action) {n : ℕ}
    (h : standing { s with pool := s.pool.act b } n = true) : s.standing n = true := by
  unfold standing at h ⊢
  dsimp only at h
  split at h
  · rfl
  · cases h
  · next i _ =>
    dsimp only
    cases ht : s.pool.threads[i]? with
    | none => rfl
    | some t =>
      by_cases hdone : t.outcome = none
      · dsimp only
        rw [hdone]
        rfl
      · rw [Sys.Pool.act_finished phone_kills ht hdone] at h
        exact h

/-- **What is over stays over.** -/
theorem Move.standing (hm : s.Move a s') {n : ℕ} (h : s'.standing n = true) :
    s.standing n = true := by
  have hunsent : ∀ {m : ℕ}, s.fate m = .inFlight → n = m → s.standing n = true := by
    intro m hfate hnm
    unfold PhoneNet.standing
    rw [hnm, hfate]
  cases hm with
  | served b _ => exact standing_act b h
  | delivered m x caller zod budget _ hfate =>
    by_cases hnm : n = m
    · exact hunsent hfate hnm
    · rw [standing_setFate _ _ hnm] at h
      exact standing_act _ h
  | lost m _ hfate =>
    by_cases hnm : n = m
    · exact hunsent hfate hnm
    · rw [standing_setFate _ _ hnm] at h
      exact h
  | _ => exact h

end PhoneNet

/-! ## A cart of one tea -/

/-- A phone at the open table. -/
abbrev phoneAtTable : PhoneNet (fun secret message => secret ++ message) :=
  .start _ kitchenOpen (some 7) [] (fun _ => [])

/-- A dish without options. -/
def tea : MenuItemView := ⟨0, [], [], [], [], 100, none, [], true, []⟩

/-- A tea is put in the cart, and sent under the key. -/
def teaSent (key : Text) : List PhoneAction := [.add tea [] 0, .submit key]

/-- The `n`-th submission reaches the server, which answers the calls of its program. -/
def servedAlone (n : ℕ) : List PhoneAction :=
  .deliver n ⟨[], []⟩ .plain true :: List.replicate 10 (.serve n plain)

end Masadan
